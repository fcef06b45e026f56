import TieredMemory.Text.Case.Table

/-!
# Letter case

Lower-casing of whole texts. Every character has its lower-case form, with two rules beyond the
table: a capital I with a dot becomes two characters, and a capital sigma takes its final form at
the end of a word, that is after a cased character and not before one, where case-ignorable
characters in between are looked past.
-/

namespace TieredMemory.Text

open Case

/-- The lower-case form of one character on its own. -/
def lowerChar (c : Char) : Char :=
  if c.toNat < 128 then (if 'A' ≤ c && c ≤ 'Z' then Char.ofNat (c.toNat + 32) else c)
  else shifted lowerRuns c

/-- The character is cased, for characters that are not case-ignorable. -/
def isCased (c : Char) : Bool :=
  if c.toNat < 128 then c.isAlpha else inRanges casedRanges c

/-- A final sigma looks past the character. -/
def isCaseIgnorable (c : Char) : Bool := inRanges caseIgnorableRanges c

/-- The sigma between `before`, nearest character first, and `after` ends a word. -/
def endsWord (before after : List Char) : Bool :=
  (match before.dropWhile isCaseIgnorable with
    | [] => false
    | c :: _ => isCased c)
  && (match after.dropWhile isCaseIgnorable with
    | [] => true
    | c :: _ => !isCased c)

/-- Lower-case a text, given the characters before it, nearest first. -/
def lowerFrom (before : List Char) : List Char → List Char
  | [] => []
  | c :: r =>
    if c = 'Σ' then (if endsWord before r then 'ς' else 'σ') :: lowerFrom (c :: before) r
    else if c = 'İ' then 'i' :: '\u0307' :: lowerFrom (c :: before) r
    else lowerChar c :: lowerFrom (c :: before) r

/-- The lower-case form of a text. -/
def lower (s : String) : String := String.ofList (lowerFrom [] s.toList)

/-- The character is upper case. -/
def isUpperChar (c : Char) : Bool :=
  if c.toNat < 128 then 'A' ≤ c && c ≤ 'Z' else inRuns uppercaseRuns c

/-- The character is lower case. -/
def isLowerChar (c : Char) : Bool :=
  if c.toNat < 128 then 'a' ≤ c && c ≤ 'z' else inRuns lowercaseRuns c

/-- A text is shouted when it has an upper-case character and no lower-case or title-case one. -/
def isShouted (s : String) : Bool :=
  s.toList.all (fun c => !(isLowerChar c || inRanges titlecaseRanges c))
    && s.toList.any isUpperChar

end TieredMemory.Text
