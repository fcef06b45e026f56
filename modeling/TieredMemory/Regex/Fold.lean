import TieredMemory.Text.Case

/-!
# Comparison without regard to letter case

Two characters are the same letter when their lower-case forms are equal or belong to one of a few
sets of letters that share a capital. The forms of a letter are all characters that are the same
letter as it is.
-/

namespace TieredMemory.Regex

open TieredMemory.Text

/-- Sets of lower-case letters that share a capital letter. -/
def sharedCapitals : List (List Char) := [
  ['i', 'ı'], ['s', 'ſ'], ['µ', 'μ'], ['\u0345', 'ι', '\u1fbe'], ['ΐ', '\u1fd3'], ['ΰ', '\u1fe3'],
  ['β', 'ϐ'], ['ε', 'ϵ'], ['θ', 'ϑ'], ['κ', 'ϰ'], ['π', 'ϖ'], ['ρ', 'ϱ'], ['ς', 'σ'], ['φ', 'ϕ'],
  ['в', '\u1c80'], ['д', '\u1c81'], ['о', '\u1c82'], ['с', '\u1c83'], ['т', '\u1c84', '\u1c85'],
  ['ъ', '\u1c86'], ['ѣ', '\u1c87'], ['\u1c88', '\ua64b'], ['ṡ', 'ẛ'], ['\ufb05', '\ufb06']]

/-- The single lower-case character by which a letter is compared. -/
def foldChar (c : Char) : Char := if c == 'İ' then 'i' else lowerChar c

/-- The ASCII lower-case character. -/
def foldAscii (c : Char) : Char := if 'A' ≤ c && c ≤ 'Z' then Char.ofNat (c.toNat + 32) else c

/-- The lower-case letters that are the same letter as a given lower-case one. -/
def sameLower (c : Char) : List Char := (sharedCapitals.find? fun set => set.contains c).getD [c]

/-- The characters whose lower-case form is the given one. -/
def withLower (c : Char) : List Char :=
  let capitals := Case.lowerRuns.filterMap fun r =>
    let n := (Int.ofNat c.toNat - r.2.2.2).toNat
    if ShiftRun.holds n r then some (Char.ofNat n) else none
  (if foldChar c == c then [c] else []) ++ (if c == 'i' then ['İ'] else []) ++ capitals

/-- All characters that are the same letter. -/
def formsOf (c : Char) : List Char := ((sameLower (foldChar c)).map withLower).flatten

/-- All characters that are the same ASCII letter. -/
def asciiFormsOf (c : Char) : List Char :=
  if 'a' ≤ c && c ≤ 'z' then [c, Char.ofNat (c.toNat - 32)]
  else if 'A' ≤ c && c ≤ 'Z' then [c, Char.ofNat (c.toNat + 32)]
  else [c]

end TieredMemory.Regex
