import TieredMemory.Decimal.Places

/-!
# Points in time

Times and durations are whole microseconds. A *moment* is a point in time by calendar and clock,
without a time zone; the time zero is noon of 15 January 2024. The stored text of a moment pads
every field, and has a fraction exactly if there are microseconds.
-/

namespace TieredMemory

/-- Microseconds since noon of 15 January 2024. -/
abbrev Time := Int

/-- A number of microseconds. -/
abbrev Duration := Int

/-- Whole milliseconds as a duration. -/
def milliseconds (n : Int) : Duration := n * 1000

/-- A point in time by calendar and clock. -/
structure Moment where
  year : Nat
  month : Nat
  day : Nat
  hour : Nat
  minute : Nat
  second : Nat
  micro : Nat
  deriving Repr, DecidableEq

namespace Moment

/-- Days from 1 March of the year 0 to a date, in years that begin in March. -/
def dayNumber (year month day : Nat) : Int :=
  let y : Int := (year : Int) - (if month ≤ 2 then 1 else 0)
  let m : Int := ((month : Int) + 9) % 12
  365 * y + y / 4 - y / 100 + y / 400 + (153 * m + 2) / 5 + day - 1

/-- The date with the given number of days since 1 March of the year 0. -/
def ofDayNumber (n : Int) : Int × Nat × Nat :=
  let era := n / 146097
  let doe := n % 146097
  let yoe := (doe - doe / 1460 + doe / 36524 - doe / 146096) / 365
  let doy := doe - (365 * yoe + yoe / 4 - yoe / 100)
  let mp := (5 * doy + 2) / 153
  let day := doy - (153 * mp + 2) / 5 + 1
  let month := if mp < 10 then mp + 3 else mp - 9
  let year := yoe + era * 400 + (if month ≤ 2 then 1 else 0)
  (year, month.toNat, day.toNat)

/-- Microseconds of one day. -/
def dayLength : Int := 86400000000

/-- Microseconds from midnight of 1 March of the year 0 to the time zero. -/
def origin : Int := dayNumber 2024 1 15 * dayLength + dayLength / 2

/-- The moment of a time. -/
def ofTime (t : Time) : Moment :=
  let micros := t + origin
  let (year, month, day) := ofDayNumber (micros / dayLength)
  let rest := (micros % dayLength).toNat
  ⟨year.toNat, month, day, rest / 3600000000, rest / 60000000 % 60, rest / 1000000 % 60,
    rest % 1000000⟩

/-- The time of a moment. -/
def toTime (m : Moment) : Time :=
  dayNumber m.year m.month m.day * dayLength
    + (((m.hour * 60 + m.minute) * 60 + m.second) * 1000000 + m.micro : Nat) - origin

/-- Date and time to the minute, as a heading shows them. -/
def toMinute (m : Moment) : String :=
  s!"{m.year}-{Decimal.padded 2 m.month}-{Decimal.padded 2 m.day} " ++
    s!"{Decimal.padded 2 m.hour}:{Decimal.padded 2 m.minute}"

/-- The stored text: every field padded, the fraction only when there is one. -/
def stored (m : Moment) : String :=
  s!"{Decimal.padded 4 m.year}-{Decimal.padded 2 m.month}-{Decimal.padded 2 m.day}T" ++
    s!"{Decimal.padded 2 m.hour}:{Decimal.padded 2 m.minute}:{Decimal.padded 2 m.second}" ++
    (if m.micro == 0 then "" else s!".{Decimal.padded 6 m.micro}")

/-- The number that decimal digits stand for; other characters are refused. -/
def number? (ds : List Char) : Option Nat :=
  if ds.all Char.isDigit && !ds.isEmpty then
    some (ds.foldl (fun n c => n * 10 + (c.toNat - 48)) 0)
  else none

/-- The moment that a stored text gives. -/
def ofStored? (s : String) : Option Moment :=
  match s.toList with
  | y1 :: y2 :: y3 :: y4 :: '-' :: o1 :: o2 :: '-' :: d1 :: d2 :: 'T' ::
      h1 :: h2 :: ':' :: m1 :: m2 :: ':' :: s1 :: s2 :: fraction => do
    let year ← number? [y1, y2, y3, y4]
    let month ← number? [o1, o2]
    let day ← number? [d1, d2]
    let hour ← number? [h1, h2]
    let minute ← number? [m1, m2]
    let second ← number? [s1, s2]
    match fraction with
    | [] => some ⟨year, month, day, hour, minute, second, 0⟩
    | '.' :: ds =>
        if ds.length == 6 then (number? ds).map (⟨year, month, day, hour, minute, second, ·⟩)
        else none
    | _ => none
  | _ => none

end Moment

end TieredMemory
