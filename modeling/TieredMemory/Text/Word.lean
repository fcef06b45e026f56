import TieredMemory.Text.WordTable

/-!
# Words and word boundaries

A word character is a letter, a digit, a numeral or the low line. A phrase stands in a text as words
when it occurs there and neither end of it touches a word character on the outside where it has one
on the inside.
-/

namespace TieredMemory.Text

open Word

/-- Letters, digits and numerals. -/
def isAlphanumeric (c : Char) : Bool :=
  if c.toNat < 128 then c.isAlphanum else inRanges alphanumericRanges c

/-- Letters, digits, numerals and the low line. -/
def isWordChar (c : Char) : Bool := isAlphanumeric c || c == '_'

/-- The value of a decimal digit of any script. -/
def digitValue? (c : Char) : Option Nat :=
  let n := c.toNat
  if n < 128 then (if c.isDigit then some (n - 48) else none)
  else (digitRanges.find? (Range.holds n)).map fun r => (n - r.1) % 10

/-- A decimal digit of any script. -/
def isDecimalDigit (c : Char) : Bool := (digitValue? c).isSome

/-- There is a word character on exactly one side of the place between `before` and `after`. -/
def isBoundary (before after : Option Char) : Bool :=
  before.any isWordChar != after.any isWordChar

/-- The phrase starts here, at the beginning of `text`, with a boundary at both ends. -/
def phraseStarts (phrase : List Char) (before : Option Char) (text : List Char) : Bool :=
  phrase.isPrefixOf text && isBoundary before text.head?
    && isBoundary ((phrase.getLast?).or before) (text.drop phrase.length).head?

/-- One of the phrases stands in the text as words, `before` being the character before it. -/
def hasPhraseFrom (phrases : List (List Char)) (before : Option Char) : List Char → Bool
  | [] => phrases.any fun p => phraseStarts p before []
  | c :: r =>
    phrases.any (fun p => phraseStarts p before (c :: r)) || hasPhraseFrom phrases (some c) r

/-- One of the phrases stands in the text as words. -/
def hasPhrase (phrases : List String) (text : String) : Bool :=
  hasPhraseFrom (phrases.map String.toList) none text.toList

end TieredMemory.Text
