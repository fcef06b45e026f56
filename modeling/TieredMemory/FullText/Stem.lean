/-!
# Stems of English words

Suffix stripping for English words, on the bytes of a term. A vowel is one of `a e i o u`, or a
`y` after a consonant; every other byte is a consonant. The *measure* of a stem is the number of
changes from a vowel to a consonant in it. Each step looks for one suffix and replaces it if the
part before it is long enough in this sense. Terms of less than three or more than 64 bytes are left
alone.
-/

namespace TieredMemory.FullText

/-- The bytes of a term. -/
abbrev Term := List UInt8

/-- The bytes of a text. -/
def bytes (s : String) : Term := s.toUTF8.toList

/-- The byte of a letter. -/
def letter (c : Char) : UInt8 := c.toNat.toUInt8

/-- The byte is a vowel, given whether the one before it is a consonant. -/
def isVowel (c : UInt8) (afterConsonant : Bool) : Bool :=
  c == letter 'a' || c == letter 'e' || c == letter 'i' || c == letter 'o' || c == letter 'u'
    || (afterConsonant && c == letter 'y')

/-- Which bytes are consonants, given whether the one before the first is. -/
def consonants (before : Bool) : Term → List Bool
  | [] => []
  | c :: r => let consonant := !isVowel c before; consonant :: consonants consonant r

/-- The number of changes from a vowel to a consonant. -/
def changes : List Bool → Nat
  | false :: true :: r => changes (true :: r) + 1
  | _ :: r => changes r
  | [] => 0

/-- The measure of a stem. -/
def stemMeasure (stem : Term) : Nat := changes (consonants false stem)

/-- There is a vowel in the stem. -/
def hasVowel (stem : Term) : Bool :=
  match stem with
  | [] => false
  | c :: r => isVowel c false || r.any fun d => isVowel d true

/-- The stem ends with a consonant, a vowel and a consonant other than `w`, `x` and `y`. -/
def endsShort (stem : Term) : Bool :=
  match stem.getLast? with
  | none => false
  | some c =>
    c != letter 'w' && c != letter 'x' && c != letter 'y' &&
      (consonants false stem).reverse.take 3 == [true, false, true]

/-- The part before a suffix, which is not empty. -/
def before? (suffix : String) (term : Term) : Option Term :=
  let ends := bytes suffix
  if ends.length < term.length && ends.isSuffixOf term then
    some (term.take (term.length - ends.length))
  else none

/-- A suffix, what stands in its place, and the condition on the part before it. -/
structure Rule where
  suffix : String
  replacement : String
  condition : Term → Bool

/-- Apply the first rule whose suffix the term has, if its condition holds; also whether it did. -/
def applyFirst (rules : List Rule) (term : Term) : Term × Bool :=
  match rules with
  | [] => (term, false)
  | rule :: r =>
    match before? rule.suffix term with
    | some stem =>
      if rule.condition stem then (stem ++ bytes rule.replacement, true) else (term, false)
    | none => applyFirst r term

/-- The measure is at least one. -/
def isLong (stem : Term) : Bool := stemMeasure stem > 0

/-- The measure is at least two. -/
def isVeryLong (stem : Term) : Bool := stemMeasure stem > 1

/-- Plurals. -/
def withoutPlural (term : Term) : Term :=
  match term.reverse with
  | c :: d :: r =>
    if c != letter 's' then term
    else if d == letter 'e' then
      match r with
      | e :: f :: _ :: _ =>
        if (e == letter 's' && f == letter 's') || e == letter 'i' then r.reverse else (d :: r).reverse
      | [e, _] => if e == letter 'i' then r.reverse else (d :: r).reverse
      | _ => (d :: r).reverse
    else if d != letter 's' then (d :: r).reverse
    else term
  | _ => term

/-- The rules for past tenses and present participles. -/
def tenseRules : List Rule := [⟨"ed", "", hasVowel⟩, ⟨"ing", "", hasVowel⟩]

/-- The rules that mend a stem that has lost its tense. -/
def mendingRules : List Rule :=
  [⟨"at", "ate", fun _ => true⟩, ⟨"bl", "ble", fun _ => true⟩, ⟨"iz", "ize", fun _ => true⟩]

/-- Mend a stem that has lost its tense: put an `e` at the end or undo a doubled consonant. -/
def mended (stem : Term) : Term :=
  let (mended, did) := applyFirst mendingRules stem
  if did then mended
  else
    match stem.reverse with
    | c :: d :: _ =>
      if !isVowel c false && c != letter 'l' && c != letter 's' && c != letter 'z' && c == d then
        stem.dropLast
      else if stemMeasure stem == 1 && endsShort stem then stem ++ bytes "e"
      else stem
    | _ => if stemMeasure stem == 1 && endsShort stem then stem ++ bytes "e" else stem

/-- Tenses. -/
def withoutTense (term : Term) : Term :=
  match before? "eed" term with
  | some stem => if isLong stem then stem ++ bytes "ee" else term
  | none =>
    let (stem, did) := applyFirst tenseRules term
    if did then mended stem else term

/-- A `y` at the end after a vowel anywhere before it becomes `i`. -/
def withoutFinalY (term : Term) : Term :=
  if term.getLast? == some (letter 'y') && hasVowel term.dropLast then term.dropLast ++ bytes "i"
  else term

/-- Double suffixes become single ones. -/
def doubleRules : List Rule :=
  [("ational", "ate"), ("tional", "tion"), ("enci", "ence"), ("anci", "ance"), ("izer", "ize"),
    ("logi", "log"), ("bli", "ble"), ("alli", "al"), ("entli", "ent"), ("ousli", "ous"), ("eli", "e"),
    ("ization", "ize"), ("ation", "ate"), ("ator", "ate"), ("alism", "al"), ("iveness", "ive"),
    ("fulness", "ful"), ("ousness", "ous"), ("aliti", "al"), ("iviti", "ive"), ("biliti", "ble")].map
    fun (suffix, replacement) => ⟨suffix, replacement, isLong⟩

/-- Further suffixes of long words. -/
def singleRules : List Rule :=
  [("ical", "ic"), ("ness", ""), ("icate", "ic"), ("iciti", "ic"), ("ful", ""), ("ative", ""),
    ("alize", "al")].map fun (suffix, replacement) => ⟨suffix, replacement, isLong⟩

/-- The stem is very long and ends with `s` or `t`. -/
def isVeryLongBeforeIon (stem : Term) : Bool :=
  (stem.getLast? == some (letter 's') || stem.getLast? == some (letter 't')) && isVeryLong stem

/-- Suffixes of very long words. -/
def lastRules : List Rule :=
  ["al", "ance", "ence", "er", "ic", "able", "ible", "ant", "ement", "ment", "ent"].map
      (fun suffix => ⟨suffix, "", isVeryLong⟩)
    ++ [⟨"ion", "", isVeryLongBeforeIon⟩]
    ++ ["ou", "ism", "ate", "iti", "ous", "ive", "ize"].map (fun suffix => ⟨suffix, "", isVeryLong⟩)

/-- An `e` at the end is dropped from long words. -/
def withoutFinalE (term : Term) : Term :=
  if term.getLast? == some (letter 'e') then
    let stem := term.dropLast
    if isVeryLong stem || (stemMeasure stem == 1 && !endsShort stem) then stem else term
  else term

/-- A double `l` at the end of a very long word becomes single. -/
def withoutDoubleL (term : Term) : Term :=
  match term.reverse with
  | c :: d :: _ =>
    if c == letter 'l' && d == letter 'l' && isVeryLong term.dropLast then term.dropLast else term
  | _ => term

/-- The stem of a term. -/
def stemOf (term : Term) : Term :=
  if term.length < 3 || term.length > 64 then term
  else
    let term := withoutFinalY (withoutTense (withoutPlural term))
    let term := (applyFirst doubleRules term).1
    let term := (applyFirst singleRules term).1
    let term := (applyFirst lastRules term).1
    withoutDoubleL (withoutFinalE term)

end TieredMemory.FullText
