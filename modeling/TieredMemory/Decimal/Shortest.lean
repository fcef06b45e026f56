import TieredMemory.Decimal.Binary
import TieredMemory.Decimal.Places

/-!
# The shortest decimal that reads back

A number is written with the fewest digits that still identify it: of all decimals in the interval
of reals that round to the number, one with the fewest digits, and of those the nearest. The
interval includes its ends exactly if the mantissa is even.
-/

namespace TieredMemory.Decimal

/-- Twice the interval that rounds to `mantissa · 2^exponent`, as numerators over one denominator:
lower end, value, upper end, denominator. -/
def interval (mantissa : Nat) (exponent : Int) : Nat × Nat × Nat × Nat :=
  -- below a power of two the grid is finer, except at the smallest exponent
  let fine := mantissa == twoTo 52 && exponent != -1074
  let (num, den) := fraction 1 exponent
  ((if fine then 4 * mantissa - 1 else 4 * mantissa - 2) * num, 4 * mantissa * num,
    (4 * mantissa + 2) * num, 4 * den)

/-- The point `n` of the decimal grid `unitNum / unitDen` lies in the interval. -/
def inInterval (even : Bool) (lo hi den unitNum unitDen n : Nat) : Bool :=
  let point := n * unitNum * den
  let lo := lo * unitDen
  let hi := hi * unitDen
  if even then lo ≤ point && point ≤ hi else lo < point && point < hi

/-- The digits and the power of ten of the last one, for the first grid that has a point in the
interval; `fuel` bounds the number of grids, each ten times finer than the one before. -/
def shortestFrom (even : Bool) (lo value hi den : Nat) : Nat → Int → Nat × Int
  | 0, e => (roundDiv value den, e)
  | fuel + 1, e =>
    let (unitNum, unitDen) := if e ≥ 0 then (tenTo e.toNat, 1) else (1, tenTo (-e).toNat)
    let below := value * unitDen / (den * unitNum)
    let isIn := inInterval even lo hi den unitNum unitDen
    let nearer := roundDiv (value * unitDen) (den * unitNum)
    if isIn nearer then (nearer, e)
    else if isIn below then (below, e)
    else if isIn (below + 1) then (below + 1, e)
    else shortestFrom even lo value hi den fuel (e - 1)

/-- The shortest digits of a number that is not zero, and the power of ten of the last digit. -/
def shortest (mantissa : Nat) (exponent : Int) : Nat × Int :=
  let (lo, value, hi, den) := interval mantissa exponent
  -- a power of ten that is not below the number: 10^30 < 2^100 < 10^31
  let bits := (Nat.log2 mantissa : Int) + 1 + exponent
  let top := bits * (if bits < 0 then 30 else 31) / 100 + 1
  shortestFrom (mantissa % 2 == 0) lo value hi den 400 top

/-- Drop the zeros at the end of the digits, raising the exponent. -/
def withoutZeros : Nat → Nat → Int → Nat × Int
  | 0, n, e => (n, e)
  | fuel + 1, n, e => if n ≠ 0 ∧ n % 10 = 0 then withoutZeros fuel (n / 10) (e + 1) else (n, e)

/-- How the digits `n` with the last one at `10^e` are written: positional from 0.0001 up to below
10^16, with one digit after the point at least, and with an exponent of at least two digits
otherwise. -/
def written (n : Nat) (e : Int) : String :=
  let ds := digits n
  -- the position of the point, counted from the first digit
  let point : Int := ds.length + e
  if point > 16 || point ≤ -4 then
    let x := point - 1
    let tail := String.ofList (ds.drop 1)
    String.ofList (ds.take 1) ++ (if tail.isEmpty then "" else "." ++ tail) ++ "e"
      ++ (if x < 0 then "-" else "+") ++ padded 2 x.natAbs
  else if point ≤ 0 then
    "0." ++ String.ofList (List.replicate (-point).toNat '0' ++ ds)
  else
    let whole := ds.take point.toNat ++ List.replicate (point.toNat - ds.length) '0'
    let tail := ds.drop point.toNat
    String.ofList whole ++ "." ++ (if tail.isEmpty then "0" else String.ofList tail)

/-- The number with the fewest digits that read back. -/
def plain (x : Float) : String :=
  match Value.ofFloat x with
  | .nan => "nan"
  | .infinite negative => if negative then "-inf" else "inf"
  | .finite negative mantissa exponent =>
    (if negative then "-" else "") ++
      (if mantissa == 0 then "0.0"
      else
        let (n, e) := shortest mantissa exponent
        let (n, e) := withoutZeros 400 n e
        written n e)

end TieredMemory.Decimal
