import TieredMemory.Decimal.Binary

/-!
# A fixed number of decimal places

A number is written with the nearest decimal of the given number of places; an exact tie goes to
the even last digit. The sign of a negative number is kept, also on zero.
-/

namespace TieredMemory.Decimal

/-- The decimal digits of a natural number. -/
def digits (n : Nat) : List Char := Nat.toDigits 10 n

/-- `n` in decimal, with zeros in front up to the given width. -/
def padded (width n : Nat) : String :=
  String.ofList (List.replicate (width - (digits n).length) '0' ++ digits n)

/-- `scaled / 10^places` with a point before the last `places` digits. -/
def withPoint (places scaled : Nat) : String :=
  if places == 0 then String.ofList (digits scaled)
  else String.ofList (digits (scaled / tenTo places)) ++ "." ++ padded places (scaled % tenTo places)

/-- The number with the given number of decimal places. -/
def fixed (places : Nat) (x : Float) : String :=
  match Value.ofFloat x with
  | .nan => "nan"
  | .infinite negative => if negative then "-inf" else "inf"
  | .finite negative mantissa exponent =>
    let (num, den) := fraction mantissa exponent
    (if negative then "-" else "") ++ withPoint places (roundDiv (num * tenTo places) den)

/-- A whole number with a comma between groups of three digits. -/
def grouped (n : Int) : String :=
  let rec group : List Char → List Char
    | a :: b :: c :: d :: r => a :: b :: c :: ',' :: group (d :: r)
    | r => r
  (if n < 0 then "-" else "") ++ String.ofList (group (digits n.natAbs).reverse).reverse

end TieredMemory.Decimal
