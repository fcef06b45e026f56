import TieredMemory.Json.Value
import TieredMemory.Decimal.Reading

/-!
# Reading JSON

A reader for the JSON grammar with three liberties: the words `NaN`, `Infinity` and `-Infinity` are
numbers, the last of several members of one name counts, and half a surrogate pair stands for the
replacement character. Control characters inside strings are refused, and so are integers of more
than 4300 digits. Arrays and objects may be nested to any depth: that deeply nested texts can exhaust
the stack of a program that reads them is left out.

The reader works on the characters that are left; `fuel` bounds the number of values and separators,
and the length of the text is always enough, since each of them takes a character.
-/

namespace TieredMemory.Json

/-- The blanks between JSON tokens. -/
def isSpace (c : Char) : Bool := c == ' ' || c == '\t' || c == '\n' || c == '\r'

/-- What follows the blanks. -/
def skipSpace (s : List Char) : List Char := s.dropWhile isSpace

/-- The value of a hexadecimal digit. -/
def hexDigit? (c : Char) : Option Nat :=
  if c.isDigit then some (c.toNat - 48)
  else if 'a' ≤ c && c ≤ 'f' then some (c.toNat - 87)
  else if 'A' ≤ c && c ≤ 'F' then some (c.toNat - 55)
  else none

/-- The value of four hexadecimal digits. -/
def hexQuad? (a b c d : Char) : Option Nat := do
  return (← hexDigit? a) * 4096 + (← hexDigit? b) * 256 + (← hexDigit? c) * 16 + (← hexDigit? d)

/-- The unit is the first half of a surrogate pair. -/
def isHighHalf (n : Nat) : Bool := 0xD800 ≤ n && n < 0xDC00

/-- The unit is the second half of a surrogate pair. -/
def isLowHalf (n : Nat) : Bool := 0xDC00 ≤ n && n < 0xE000

/-- The character of a unit on its own. -/
def unitChar (n : Nat) : Char := if isHighHalf n || isLowHalf n then '\uFFFD' else Char.ofNat n

/-- The character that a single letter after a backslash stands for. -/
def escapedChar? : Char → Option Char
  | '"' => some '"'
  | '\\' => some '\\'
  | '/' => some '/'
  | 'b' => some '\x08'
  | 'f' => some '\x0c'
  | 'n' => some '\n'
  | 'r' => some '\r'
  | 't' => some '\t'
  | _ => none

/-- A pair of escaped units at the start of the text: the character and what follows. -/
def surrogatePair? : List Char → Option (Char × List Char)
  | '\\' :: 'u' :: a :: b :: c :: d :: '\\' :: 'u' :: e :: f :: g :: h :: r => do
    let hi ← hexQuad? a b c d
    let lo ← hexQuad? e f g h
    if isHighHalf hi && isLowHalf lo then
      some (Char.ofNat (0x10000 + (hi - 0xD800) * 0x400 + (lo - 0xDC00)), r)
    else none
  | _ => none

/-- One character of a string, escaped or not: the character and what follows. -/
def stringChar? (s : List Char) : Option (Char × List Char) :=
  match surrogatePair? s with
  | some p => some p
  | none =>
    match s with
    | '\\' :: 'u' :: a :: b :: c :: d :: r => (hexQuad? a b c d).map fun n => (unitChar n, r)
    | '\\' :: c :: r => (escapedChar? c).map fun c => (c, r)
    | '\\' :: [] => none
    | c :: r => if c.toNat < 0x20 then none else some (c, r)
    | [] => none

/-- The rest of a string after its opening quote, and what follows the closing one. -/
def string? : Nat → List Char → List Char → Option (String × List Char)
  | 0, _, _ => none
  | fuel + 1, acc, s =>
    match s with
    | '"' :: r => some (String.ofList acc.reverse, r)
    | s => do
      let (c, r) ← stringChar? s
      string? fuel (c :: acc) r

/-- The digits at the start of a text. -/
def digitsOf (s : List Char) : List Char × List Char :=
  (s.takeWhile Char.isDigit, s.dropWhile Char.isDigit)

/-- The natural number of decimal digits. -/
def natOf (ds : List Char) : Nat := ds.foldl (fun n c => n * 10 + (c.toNat - 48)) 0

/-- The fraction part at the start of a text: its digits and what follows. -/
def fractionPart : List Char → List Char × List Char
  | '.' :: r => if (digitsOf r).1.isEmpty then ([], '.' :: r) else digitsOf r
  | r => ([], r)

/-- The exponent part at the start of a text: its value, if there is one, and what follows. -/
def exponentPart (s : List Char) : Option Int × List Char :=
  match s with
  | c :: r =>
    if c == 'e' || c == 'E' then
      let (negative, r) := match r with
        | '-' :: r => (true, r)
        | '+' :: r => (false, r)
        | r => (false, r)
      let (ds, rest) := digitsOf r
      if ds.isEmpty then (none, s)
      else (some (if negative then -(natOf ds : Int) else natOf ds), rest)
    else (none, s)
  | [] => (none, [])

/-- The most digits of an integer. -/
def mostDigits : Nat := 4300

/-- An unsigned number: its value and what follows. -/
def number? (negative : Bool) (s : List Char) : Option (Value × List Char) :=
  let (whole, r) := match s with
    | '0' :: r => (['0'], r)
    | s => digitsOf s
  if whole.isEmpty then none
  else
    let (frac, r) := fractionPart r
    let (exponent, r) := exponentPart r
    if frac.isEmpty && exponent.isNone then
      if mostDigits < whole.length then none
      else some (.int (if negative then -(natOf whole : Int) else natOf whole), r)
    else
      some (.real (Decimal.ofDigits negative (natOf (whole ++ frac))
        (exponent.getD 0 - frac.length)), r)

mutual

/-- The value at the start of a text, and what follows. -/
def value? : Nat → List Char → Option (Value × List Char)
  | 0, _ => none
  | fuel + 1, s =>
    match s with
    | '"' :: r => (string? (r.length + 1) [] r).map fun p => (.str p.1, p.2)
    | '[' :: r =>
      match skipSpace r with
      | ']' :: r => some (.arr [], r)
      | r => items? fuel [] r
    | '\x7b' :: r =>
      match skipSpace r with
      | '\x7d' :: r => some (.obj [], r)
      | r => members? fuel [] r
    | 'n' :: 'u' :: 'l' :: 'l' :: r => some (.null, r)
    | 't' :: 'r' :: 'u' :: 'e' :: r => some (.bool true, r)
    | 'f' :: 'a' :: 'l' :: 's' :: 'e' :: r => some (.bool false, r)
    | 'N' :: 'a' :: 'N' :: r => some (.real (0 / 0), r)
    | 'I' :: 'n' :: 'f' :: 'i' :: 'n' :: 'i' :: 't' :: 'y' :: r => some (.real (1 / 0), r)
    | '-' :: 'I' :: 'n' :: 'f' :: 'i' :: 'n' :: 'i' :: 't' :: 'y' :: r => some (.real (-(1 / 0)), r)
    | '-' :: r => number? true r
    | s => number? false s

/-- The items of an array from here on. -/
def items? : Nat → List Value → List Char → Option (Value × List Char)
  | 0, _, _ => none
  | fuel + 1, acc, s =>
    match value? fuel s with
    | none => none
    | some (v, r) =>
      match skipSpace r with
      | ',' :: r => items? fuel (v :: acc) (skipSpace r)
      | ']' :: r => some (.arr (v :: acc).reverse, r)
      | _ => none

/-- The members of an object from here on. -/
def members? : Nat → List (String × Value) → List Char → Option (Value × List Char)
  | 0, _, _ => none
  | fuel + 1, acc, s =>
    match s with
    | '"' :: r =>
      match string? (r.length + 1) [] r with
      | none => none
      | some (name, r) =>
        match skipSpace r with
        | ':' :: r =>
          match value? fuel (skipSpace r) with
          | none => none
          | some (v, r) =>
            match skipSpace r with
            | ',' :: r => members? fuel (assign name v acc) (skipSpace r)
            | '\x7d' :: r => some (.obj (assign name v acc), r)
            | _ => none
        | _ => none
    | _ => none

end

/-- The value that a whole text denotes. -/
def read? (s : String) : Option Value :=
  let cs := s.toList
  match value? (2 * cs.length + 1) (skipSpace cs) with
  | some (v, r) => if (skipSpace r).isEmpty then some v else none
  | none => none

end TieredMemory.Json
