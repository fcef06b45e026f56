import TieredMemory.Calendar
import TieredMemory.Decimal.Amount
import TieredMemory.Fault

/-!
# Durations from numbers of units

A configured duration is a floating-point number of seconds, hours or days. It becomes the nearest
whole number of microseconds, a tie going to the even one; a number that is infinite or longer than
a billion days has no duration, and neither has what is not a number.
-/

namespace TieredMemory

/-- Microseconds in a second. -/
def second : Duration := 1000000

/-- Microseconds in an hour. -/
def hour : Duration := 3600 * second

/-- Microseconds in a day. -/
def day : Duration := 24 * hour

/-- The whole part of a finite number and the rest, both with the sign of the number. -/
def wholeAndRest (x : Float) : Int × Float :=
  match Decimal.Value.ofFloat x with
  | .finite negative mantissa exponent =>
    let (num, den) := Decimal.fraction mantissa exponent
    let whole : Int := num / den
    let whole := if negative then -whole else whole
    (whole, if exponent ≥ 0 then 0 else x - Float.ofInt whole)
  | _ => (0, 0)

/-- The integer nearest to a finite number, a tie going to the even one. -/
def nearest (x : Float) : Int :=
  match Decimal.Value.ofFloat x with
  | .finite negative mantissa exponent =>
    let (num, den) := Decimal.fraction mantissa exponent
    let n : Int := Decimal.roundDiv num den
    if negative then -n else n
  | _ => 0

/-- The duration of `x` units, the unit being an even number of microseconds. -/
def Duration.ofUnits (unit : Duration) (x : Float) : Except Fault Duration :=
  if x.isNaN then .error .undefinedDuration
  else if x.isInf then .error .tooLarge
  else
    let (whole, rest) := wholeAndRest x
    let d := whole * unit + nearest (rest * Float.ofInt unit)
    if d.natAbs > (1000000000 * day).natAbs then .error .tooLarge else .ok d

/-- The duration moved up to whole milliseconds: the resolution of timers. -/
def Duration.toTimer (d : Duration) : Duration := -(-d / 1000) * 1000

/-- The time that a timer of so many seconds takes; an endless one never goes off. -/
def Decimal.Amount.timer? (s : Decimal.Amount) : Option Duration :=
  (Duration.ofUnits second s.value).toOption.map Duration.toTimer

end TieredMemory
