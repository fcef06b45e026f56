import TieredMemory.Order
import TieredMemory.Text.Blank
import TieredMemory.Text.Case
import TieredMemory.Text.EditDistance
import TieredMemory.Text.Find

/-!
# Keywords

A token is a run of lower-case ASCII letters, digits and the marks `+ # ' . -` that begins with a
letter or digit; full stops, quotes and hyphens at its ends are dropped. The content tokens of a
text are its distinct tokens that are not stop words, and the keyword score of a query is the share
of its content tokens that a text has.
-/

namespace TieredMemory.Keywords

/-- Words that carry no content. -/
def stopWords : List String := [
  "the", "a", "an", "and", "or", "but", "in", "on", "at", "to", "for",
  "of", "is", "are", "was", "were", "be", "it", "this", "that", "with",
  "as", "by", "from", "i", "me", "my", "you", "your", "we", "our", "do",
  "did", "what", "when", "where", "who", "how", "about", "please", "can",
  "could", "would", "should", "there", "their", "they", "them", "then"]

/-- A token begins with the character. -/
def isTokenStart (c : Char) : Bool := ('a' ≤ c && c ≤ 'z') || ('0' ≤ c && c ≤ '9')

/-- The character may stand inside a token. -/
def isTokenChar (c : Char) : Bool :=
  isTokenStart c || c == '+' || c == '#' || c == '\'' || c == '.' || c == '-'

/-- The character is dropped at the ends of a token. -/
def isTokenEdge (c : Char) : Bool := c == '.' || c == '\'' || c == '-'

/-- The runs of token characters that begin with a letter or digit, given the run in progress,
last character first. -/
def runs (run : List Char) : List Char → List (List Char)
  | [] => if run.isEmpty then [] else [run.reverse]
  | c :: r =>
    if run.isEmpty then (if isTokenStart c then runs [c] r else runs [] r)
    else if isTokenChar c then runs (c :: run) r
    else run.reverse :: runs [] r

/-- The tokens of a lower-case text. -/
def tokensOf (text : String) : List String :=
  ((runs [] text.toList).map fun run => Text.trimWhere isTokenEdge (String.ofList run)).filter
    fun t => !t.isEmpty

/-- The tokens of a text in order. -/
def tokens (text : String) : List String := tokensOf (Text.lower text)

/-- The distinct tokens of a text that are not stop words, in code point order. -/
def contentTokens (text : String) : List String :=
  sortedDistinct ((tokens text).filter fun t => !stopWords.contains t)

section

variable (ν : Type) [OfScientific ν] [Div ν]

/-- The share of the query's content tokens that are tokens of the text, in some arithmetic; one if the
whole query occurs in the text, zero if the query is blank. -/
def scoreIn (query text : String) : ν :=
  let wanted := Text.trim (Text.lower query)
  if wanted.isEmpty then Text.whole ν 0
  else if Text.occursIn wanted (Text.lower text) then Text.whole ν 1
  else
    let content := contentTokens query
    if content.isEmpty then Text.whole ν 0
    else
      let present := tokens text
      Text.whole ν (content.filter present.contains).length / Text.whole ν content.length

end

/-- The score in the arithmetic of floating-point numbers. -/
def score (query text : String) : Float := scoreIn Float query text

end TieredMemory.Keywords
