/-!
# Ranges of code points

Character classes are kept as lists of runs of code points. A run is a plain range, a range that
takes every `step`-th code point, or such a range together with the distance to a related character.
-/

namespace TieredMemory.Text

/-- First and last code point of a run. -/
abbrev Range := Nat × Nat

/-- First and last code point of a run and the step between its members. -/
abbrev StepRun := Nat × Nat × Nat

/-- First and last code point of a run, the step between its members, and the distance from a
member to its image. -/
abbrev ShiftRun := Nat × Nat × Nat × Int

/-- The code point lies in the range. -/
def Range.holds (n : Nat) (r : Range) : Bool := r.1 ≤ n && n ≤ r.2

/-- The code point is a member of the run. -/
def StepRun.holds (n : Nat) (r : StepRun) : Bool :=
  r.1 ≤ n && n ≤ r.2.1 && (n - r.1) % r.2.2 == 0

/-- The code point is a member of the run. -/
def ShiftRun.holds (n : Nat) (r : ShiftRun) : Bool :=
  r.1 ≤ n && n ≤ r.2.1 && (n - r.1) % r.2.2.1 == 0

/-- Membership in a list of ranges. -/
def inRanges (ranges : List Range) (c : Char) : Bool := ranges.any (Range.holds c.toNat)

/-- Membership in a list of stepped runs. -/
def inRuns (runs : List StepRun) (c : Char) : Bool := runs.any (StepRun.holds c.toNat)

/-- The image of a character under a list of shifting runs: itself when no run holds it. -/
def shifted (runs : List ShiftRun) (c : Char) : Char :=
  match runs.find? (ShiftRun.holds c.toNat) with
  | some r => Char.ofNat (c.toNat + r.2.2.2).toNat
  | none => c

end TieredMemory.Text
