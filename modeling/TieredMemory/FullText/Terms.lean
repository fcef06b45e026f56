import TieredMemory.FullText.Stem
import TieredMemory.FullText.TermTable

/-!
# Terms of a text

A term is the stem of a maximal run of letters and digits, folded to lower case without diacritics.
Combining marks inside a run are dropped; a run does not begin with one.
-/

namespace TieredMemory.FullText

open TieredMemory.Text

/-- The character is a letter or digit of a term. -/
def isTermChar (c : Char) : Bool :=
  if c.toNat < 128 then c.isAlphanum else inRanges termRanges c

/-- The character is a combining mark. -/
def isMark (c : Char) : Bool := c.toNat ≥ 128 && inRanges markRanges c

/-- The folded form of a letter or digit. -/
def foldTermChar (c : Char) : Char :=
  if c.toNat < 128 then (if 'A' ≤ c && c ≤ 'Z' then Char.ofNat (c.toNat + 32) else c)
  else
    match letterForms.find? fun p => p.2.toList.contains c with
    | some (base, _) => base
    | none => shifted foldRuns c

/-- The folded runs of term characters, given the run in progress, last character first. -/
def termRuns (run : Option (List Char)) : List Char → List (List Char)
  | [] => (run.map List.reverse).toList
  | c :: r =>
    if isTermChar c then termRuns (some (foldTermChar c :: run.getD [])) r
    else if isMark c && run.isSome then termRuns run r
    else (run.map List.reverse).toList ++ termRuns none r

/-- The terms of a text, in order. -/
def terms (s : String) : List Term :=
  (termRuns none s.toList).map fun run => stemOf (bytes (String.ofList run))

end TieredMemory.FullText
