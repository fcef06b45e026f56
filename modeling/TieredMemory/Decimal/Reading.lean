import TieredMemory.Decimal.Binary
import TieredMemory.Text.Blank
import TieredMemory.Text.Case
import TieredMemory.Text.Word

/-!
# Reading decimal numbers

A decimal number is an optional sign, digits with an optional point among or around them, and an
optional exponent. Low lines may stand between two digits, digits of any script count, blanks around
the number are dropped, and the words for infinity and not-a-number are numbers too.
-/

namespace TieredMemory.Decimal

open TieredMemory.Text

/-- The number `digits · 10^exponent`, rounded to nearest. -/
def ofDigits (negative : Bool) (digits : Nat) (exponent : Int) : Float :=
  -- beyond these bounds the outcome is zero or infinite whatever the digits are
  let size := (Nat.log2 digits : Int)
  let x : Float :=
    if digits == 0 then 0
    else if exponent > 400 then 1 / 0
    else if exponent * 3 + size < -1200 then 0
    else Float.ofScientific digits (exponent < 0) exponent.natAbs
  if negative then -x else x

/-- Digits with single low lines between them: their value, their number and what follows. -/
def digitRun (value count : Nat) : List Char → Nat × Nat × List Char
  | [] => (value, count, [])
  | c :: r =>
    if c.isDigit then digitRun (value * 10 + (c.toNat - 48)) (count + 1) r
    else match c, r with
      | '_', d :: r =>
        if count > 0 && d.isDigit then digitRun (value * 10 + (d.toNat - 48)) (count + 1) r
        else (value, count, c :: d :: r)
      | _, _ => (value, count, c :: r)

/-- The exponent part, if there is one: the power of ten and what follows. -/
def exponentPart (s : List Char) : Option (Int × List Char) :=
  match s with
  | c :: r =>
    if c == 'e' || c == 'E' then
      let (negative, r) := match r with
        | '-' :: r => (true, r)
        | '+' :: r => (false, r)
        | r => (false, r)
      let (value, count, rest) := digitRun 0 0 r
      if count == 0 then none else some (if negative then -(value : Int) else value, rest)
    else some (0, s)
  | [] => some (0, [])

/-- An unsigned decimal number that takes up the whole text. -/
def unsigned? (negative : Bool) (s : List Char) : Option Float :=
  let (whole, wholeCount, r) := digitRun 0 0 s
  let (value, fracCount, r) := match r with
    | '.' :: r =>
      let (frac, fracCount, r') := digitRun 0 0 r
      (whole * tenTo fracCount + frac, fracCount, r')
    | r => (whole, 0, r)
  if wholeCount + fracCount == 0 then none
  else match exponentPart r with
    | some (e, []) => some (ofDigits negative value (e - fracCount))
    | _ => none

/-- A number beyond ASCII is read with the blanks and digits of every script put into ASCII. -/
def asciiForm (s : List Char) : List Char :=
  if s.all (·.toNat < 128) then s
  else s.map fun c =>
    if c.toNat < 127 then c
    else if isBlank c then ' '
    else match digitValue? c with
      | some d => Char.ofNat (48 + d)
      | none => '?'

/-- The blanks that are dropped around a number: those of ASCII without the separator controls. -/
def isPadding (c : Char) : Bool := c == ' ' || (0x09 ≤ c.toNat && c.toNat ≤ 0x0D)

/-- The number that a text denotes. -/
def read? (s : String) : Option Float :=
  let s := (trimWhere isPadding (String.ofList (asciiForm s.toList))).toList
  let (negative, s) := match s with
    | '-' :: r => (true, r)
    | '+' :: r => (false, r)
    | r => (false, r)
  let word := String.ofList (s.map lowerChar)
  if word == "inf" || word == "infinity" then some (if negative then -(1 / 0) else 1 / 0)
  else if word == "nan" then some (0 / 0)
  else unsigned? negative s

end TieredMemory.Decimal
