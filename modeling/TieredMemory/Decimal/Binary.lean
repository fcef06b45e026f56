/-!
# The value of a floating-point number

A finite number is a sign, a natural mantissa and a binary exponent: ± m · 2^q. Rounding a quotient
of natural numbers to the nearest one, a tie to the even neighbour, is the only rounding the decimal
forms need.
-/

namespace TieredMemory.Decimal

/-- The power of two with the exponent. -/
def twoTo (n : Nat) : Nat := Nat.pow 2 n

/-- The power of ten with the exponent. -/
def tenTo (n : Nat) : Nat := Nat.pow 10 n

/-- What a floating-point number denotes. -/
inductive Value where
  /-- Not a number. -/
  | nan
  /-- An infinity. -/
  | infinite (negative : Bool)
  /-- ± mantissa · 2^exponent. -/
  | finite (negative : Bool) (mantissa : Nat) (exponent : Int)
  deriving Repr, DecidableEq

/-- The value that the bits of a number stand for. -/
def Value.ofFloat (x : Float) : Value :=
  let bits := x.toBits.toNat
  let negative := bits / twoTo 63 == 1
  let field := bits / twoTo 52 % twoTo 11
  let fraction := bits % twoTo 52
  if field == 2047 then (if fraction == 0 then .infinite negative else .nan)
  else if field == 0 then .finite negative fraction (-1074)
  else .finite negative (twoTo 52 + fraction) (Int.ofNat field - 1075)

/-- The natural number nearest to `num / den`; of two nearest ones the even one. -/
def roundDiv (num den : Nat) : Nat :=
  let q := num / den
  let r := num % den
  if 2 * r < den then q else if den < 2 * r then q + 1 else if q % 2 == 0 then q else q + 1

/-- `mantissa · 2^exponent` as a fraction. -/
def fraction (mantissa : Nat) (exponent : Int) : Nat × Nat :=
  if exponent ≥ 0 then (mantissa * twoTo exponent.toNat, 1) else (mantissa, twoTo (-exponent).toNat)

end TieredMemory.Decimal
