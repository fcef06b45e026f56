import TieredMemory.Text.PrintableTable

/-!
# Quoted texts

A text is shown between quotes so that every character of it can be told: single quotes, or double
quotes when only single ones occur in it. The quote and the backslash get a backslash before them,
tab, line feed and carriage return have letters, and every other character without a glyph is given
by its code point in two, four or eight hexadecimal digits.
-/

namespace TieredMemory.Text

open Quoted

/-- The character has a glyph, or is the space. -/
def isPrintable (c : Char) : Bool :=
  if c.toNat < 128 then 0x20 ≤ c.toNat && c.toNat < 0x7F else inRanges printableRanges c

/-- `n` in hexadecimal with at least `width` digits. -/
def hexadecimal (width n : Nat) : List Char :=
  let ds := Nat.toDigits 16 n
  List.replicate (width - ds.length) '0' ++ ds

/-- One character between the given quotes. -/
def quotedChar (quote c : Char) : List Char :=
  if c == quote || c == '\\' then ['\\', c]
  else if c == '\t' then ['\\', 't']
  else if c == '\n' then ['\\', 'n']
  else if c == '\r' then ['\\', 'r']
  else if isPrintable c then [c]
  else if c.toNat < 0x100 then '\\' :: 'x' :: hexadecimal 2 c.toNat
  else if c.toNat < 0x10000 then '\\' :: 'u' :: hexadecimal 4 c.toNat
  else '\\' :: 'U' :: hexadecimal 8 c.toNat

/-- The text between quotes. -/
def quoted (s : String) : String :=
  let cs := s.toList
  let quote := if cs.contains '\'' && !cs.contains '"' then '"' else '\''
  String.ofList (quote :: (cs.map (quotedChar quote)).flatten ++ [quote])

end TieredMemory.Text
