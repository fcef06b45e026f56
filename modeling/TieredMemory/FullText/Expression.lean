import TieredMemory.FullText.Terms
import TieredMemory.Keywords
import TieredMemory.Regex.Fold

/-!
# Search expressions

A search expression is a list of quoted literals joined by `OR`. Inside a literal a double quote is
written twice, so no character of the user's text is read as an operator. An expression ends at the
first character U+0000 at the latest; one whose literal has not ended by then is refused. A text
matches when the terms of one of the literals stand in it one after another; a literal without terms
matches nothing.

The plain search, for when an expression is refused, looks for a wildcard pattern instead.
-/

namespace TieredMemory.FullText

/-- The characters of a literal with quotes written twice. -/
def doubled : List Char → List Char
  | [] => []
  | c :: r => if c = '"' then '"' :: '"' :: doubled r else c :: doubled r

/-- A quoted literal. -/
def literal (s : List Char) : List Char := '"' :: doubled s ++ ['"']

/-- The literals joined by `OR`. -/
def joined : List (List Char) → List Char
  | [] => []
  | [s] => literal s
  | s :: r => literal s ++ [' ', 'O', 'R', ' '] ++ joined r

/-- The literals of a query: its content tokens, or the whole query when it has none. -/
def literalsOf (query : String) : List String :=
  let tokens := Keywords.contentTokens query
  if tokens.isEmpty then [query] else tokens

/-- The search expression of a query. -/
def expression (query : String) : String :=
  String.ofList (joined ((literalsOf query).map String.toList))

/-- The rest of a literal after its opening quote, and what follows the closing one. -/
def takeLiteral : List Char → Option (List Char × List Char)
  | [] => none
  | '"' :: '"' :: r => (takeLiteral r).map fun p => ('"' :: p.1, p.2)
  | c :: r => if c = '"' then some ([], r) else (takeLiteral r).map fun p => (c :: p.1, p.2)

/-- The literals of an expression; `fuel` bounds their number. -/
def literals? : Nat → List Char → Option (List (List Char))
  | 0, _ => none
  | fuel + 1, s =>
    match s with
    | '"' :: r =>
      match takeLiteral r with
      | none => none
      | some (l, []) => some [l]
      | some (l, ' ' :: 'O' :: 'R' :: ' ' :: r) => (literals? fuel r).map (l :: ·)
      | some _ => none
    | _ => none

/-- The literals of a written expression, which ends at the first U+0000. -/
def readExpression? (s : String) : Option (List String) :=
  let cs := s.toList.takeWhile (· != '\x00')
  (literals? (cs.length + 1) cs).map (·.map String.ofList)

/-- The terms stand in the text one after another. -/
def hasPhrase (phrase : List Term) (text : List Term) : Bool :=
  !phrase.isEmpty && (List.range (text.length + 1)).any fun i => phrase.isPrefixOf (text.drop i)

/-- The text with the given terms matches one of the literals. -/
def isMatch (literals : List String) (text : List Term) : Bool :=
  literals.any fun l => hasPhrase (terms l) text

/-- Two characters are equal, ASCII letter case aside. -/
def sameAsciiLetter (a b : Char) : Bool := Regex.foldAscii a == Regex.foldAscii b

/-- The text matches a wildcard pattern, where `%` stands for any characters and `_` for one. -/
def isLike : List Char → List Char → Bool
  | [], [] => true
  | [], _ :: _ => false
  | '%' :: p, [] => isLike p []
  | '%' :: p, c :: r => isLike p (c :: r) || isLike ('%' :: p) r
  | _ :: _, [] => false
  | a :: p, c :: r => (a == '_' || sameAsciiLetter a c) && isLike p r
termination_by p s => p.length + s.length

/-- The text contains the query as a wildcard pattern; both end at their first U+0000. -/
def containsLike (query text : String) : Bool :=
  isLike (('%' :: query.toList ++ ['%']).takeWhile (· != '\x00'))
    (text.toList.takeWhile (· != '\x00'))

end TieredMemory.FullText
