import TieredMemory.Text.Quoted

/-!
# Writing JSON

Texts of JSON values in letters, digits and signs alone: inside a string the quote and the backslash
get a backslash before them, five control characters have letters, and every other character outside
the printable ASCII range is escaped by its unit in four hexadecimal digits, or by its two halves
when it is beyond the units. Items stand in one line with a comma and a space between them.
-/

namespace TieredMemory.Json

/-- A unit as an escape. -/
def unitEscape (n : Nat) : List Char := '\\' :: 'u' :: Text.hexadecimal 4 n

/-- A character inside a string. -/
def writtenChar (c : Char) : List Char :=
  if c = '"' then ['\\', '"']
  else if c = '\\' then ['\\', '\\']
  else if c = '\n' then ['\\', 'n']
  else if c = '\r' then ['\\', 'r']
  else if c = '\t' then ['\\', 't']
  else if c = '\x08' then ['\\', 'b']
  else if c = '\x0c' then ['\\', 'f']
  else if 0x20 ≤ c.toNat ∧ c.toNat ≤ 0x7E then [c]
  else if c.toNat < 0x10000 then unitEscape c.toNat
  else
    unitEscape (0xD800 + (c.toNat - 0x10000) / 0x400) ++
      unitEscape (0xDC00 + (c.toNat - 0x10000) % 0x400)

/-- A string between its quotes. -/
def writtenString (s : String) : List Char := '"' :: (s.toList.flatMap writtenChar ++ ['"'])

/-- A truth value. -/
def writtenBool (b : Bool) : List Char := if b then "true".toList else "false".toList

/-- A truth value under its name. -/
def writtenMember (m : String × Bool) : List Char := writtenString m.1 ++ ':' :: ' ' :: writtenBool m.2

/-- Written items with a comma and a space between them. -/
def separated : List (List Char) → List Char
  | [] => []
  | [a] => a
  | a :: b :: r => a ++ ',' :: ' ' :: separated (b :: r)

/-- The array of texts. -/
def writtenStrings (xs : List String) : String :=
  String.ofList ('[' :: (separated (xs.map writtenString) ++ [']']))

/-- The object that gives truth values to names. -/
def writtenBools (ms : List (String × Bool)) : String :=
  String.ofList ('\x7b' :: (separated (ms.map writtenMember) ++ ['\x7d']))

end TieredMemory.Json
