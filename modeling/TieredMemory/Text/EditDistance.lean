/-!
# Edit distance

The least number of single-character insertions, deletions and substitutions between two texts, row
by row: the row of a prefix `a` holds the distances from `a` to every prefix of `b`. Distances
relative to the longer length give a similarity between zero and one.
-/

namespace TieredMemory.Text

/-- The rest of the row for one more character `c`, given the entry to the left and the row above:
each entry is the least of an insertion, a deletion and a substitution. -/
def nextEntries (c : Char) (left : Nat) : List Char → List Nat → List Nat
  | d :: ds, diagonal :: above :: row =>
    let entry := min (min (above + 1) (left + 1)) (diagonal + if c = d then 0 else 1)
    entry :: nextEntries c entry ds (above :: row)
  | _, _ => []

/-- The row for one more character. -/
def nextRow (c : Char) (b : List Char) (row : List Nat) : List Nat :=
  let first := row.headD 0 + 1
  first :: nextEntries c first b row

/-- The least number of single-character edits between two texts. -/
def editDistance (a b : String) : Nat :=
  if a = b then 0
  else
    let cs := b.toList
    (a.toList.foldl (fun row c => nextRow c cs row) (List.range (cs.length + 1))).getLastD 0

section

variable (ν : Type) [OfScientific ν] [Sub ν] [Mul ν] [Div ν] [LT ν] [DecidableLT ν]

/-- A whole number among the numbers of an arithmetic. -/
def whole (n : Nat) : ν := OfScientific.ofScientific n false 0

/-- One minus the edit distance relative to the longer length, in some arithmetic. Texts whose lengths
differ by more than three tenths of it are not alike at all. -/
def similarityIn (a b : String) : ν :=
  let longer := max a.length b.length
  if longer = 0 then whole ν 1
  else if whole ν longer * 0.3 < whole ν (longer - min a.length b.length) then whole ν 0
  else whole ν 1 - whole ν (editDistance a b) / whole ν longer

end

/-- The similarity in the arithmetic of floating-point numbers. -/
def similarity (a b : String) : Float := similarityIn Float a b

end TieredMemory.Text
