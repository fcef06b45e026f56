import TieredMemory.Regex.Fold
import TieredMemory.Text.Blank
import TieredMemory.Text.Word

/-!
# Regular expressions

The form of an expression after reading: every part knows under which options it stands. An
expression matches at a place of a text; the groups that it closed on the way hold the pieces of the
text that they matched.
-/

namespace TieredMemory.Regex

open TieredMemory.Text

/-- Options under which a part of an expression stands. -/
structure Options where
  ignoreCase : Bool := true
  multiline : Bool := false
  dotAll : Bool := false
  verbose : Bool := false
  ascii : Bool := false
  deriving Repr, DecidableEq

/-- Classes of characters with a name of one letter. -/
inductive CharClass where
  | digit
  | space
  | word
  deriving Repr, DecidableEq

/-- One member of a set of characters. -/
inductive SetItem where
  | range (first last : Char)
  | inClass (cls : CharClass) (negated : Bool)
  deriving Repr, DecidableEq

/-- Places in a text. -/
inductive Anchor where
  /-- The beginning, or the beginning of a line. -/
  | lineStart
  /-- The end, the place before a line feed at the end, or the end of a line. -/
  | lineEnd
  /-- The beginning of the text. -/
  | textStart
  /-- The end of the text. -/
  | textEnd
  /-- Between a word character and another. -/
  | boundary
  /-- Not between a word character and another. -/
  | insideWord
  deriving Repr, DecidableEq

/-- How a repetition chooses its number of rounds. -/
inductive Greed where
  /-- As many as possible. -/
  | greedy
  /-- As few as possible. -/
  | lazy
  /-- As many as possible, once and for all. -/
  | possessive
  deriving Repr, DecidableEq

/-- An expression. -/
inductive Expr where
  | set (negated : Bool) (items : List SetItem) (options : Options)
  | any (options : Options)
  | anchor (place : Anchor) (options : Options)
  | seq (parts : List Expr)
  | choice (branches : List Expr)
  | group (number : Option Nat) (body : Expr)
  | repetition (min : Nat) (max : Option Nat) (greed : Greed) (body : Expr)
  /-- What stands before or after the place, looked at without moving. -/
  | look (behind : Option Nat) (negated : Bool) (body : Expr)
  /-- The first way in which the body matches, and no other. -/
  | atomic (body : Expr)
  /-- What a group has matched; `least` and `most` bound its length. -/
  | reference (number least : Nat) (most : Option Nat) (options : Options)
  /-- One of two expressions, according to whether a group has matched. -/
  | conditional (number : Nat) (yes no : Expr)

/-- The class holds the character. -/
def CharClass.holds (cls : CharClass) (ascii : Bool) (c : Char) : Bool :=
  (!ascii || c.toNat < 128) &&
    match cls with
    | digit => isDecimalDigit c
    | space => if ascii then c == ' ' || (9 ≤ c.toNat && c.toNat ≤ 13) else isBlank c
    | word => isWordChar c

/-- The item holds the character. -/
def SetItem.holds (ascii : Bool) (c : Char) : SetItem → Bool
  | range first last => first ≤ c && c ≤ last
  | inClass cls negated => cls.holds ascii c != negated

/-- The set holds the character under the options. -/
def setHolds (negated : Bool) (items : List SetItem) (options : Options) (c : Char) : Bool :=
  let forms :=
    if !options.ignoreCase then [c] else if options.ascii then asciiFormsOf c else formsOf c
  let isIn := items.any fun item =>
    match item with
    | .range .. => forms.any fun f => item.holds options.ascii f
    | .inClass .. => item.holds options.ascii c
  isIn != negated

mutual

/-- The least and the greatest number of characters that an expression matches. -/
def Expr.width : Expr → Nat × Option Nat
  | .set .. | .any _ => (1, some 1)
  | .anchor .. | .look .. => (0, some 0)
  | .seq parts => sumWidths parts
  | .choice branches => rangeWidths branches
  | .group _ body | .atomic body => body.width
  | .repetition min max _ body =>
    let (lo, hi) := body.width
    (min * lo, match max, hi with
      | some m, some h => some (m * h)
      | _, some 0 => some 0
      | _, _ => none)
  | .reference _ least most _ => (least, most)
  | .conditional _ yes no =>
    let (lo, hi) := yes.width
    let (lo', hi') := no.width
    (min lo lo', match hi, hi' with
      | some a, some b => some (max a b)
      | _, _ => none)

/-- The widths of parts one after another. -/
def sumWidths : List Expr → Nat × Option Nat
  | [] => (0, some 0)
  | e :: r =>
    let (lo, hi) := e.width
    let (lo', hi') := sumWidths r
    (lo + lo', match hi, hi' with
      | some a, some b => some (a + b)
      | _, _ => none)

/-- The widths of any one of several branches. -/
def rangeWidths : List Expr → Nat × Option Nat
  | [] => (0, some 0)
  | [e] => e.width
  | e :: r =>
    let (lo, hi) := e.width
    let (lo', hi') := rangeWidths r
    (min lo lo', match hi, hi' with
      | some a, some b => some (max a b)
      | _, _ => none)

end

end TieredMemory.Regex
