import TieredMemory.Fact
import TieredMemory.Pattern.Basic
import TieredMemory.Planner

/-!
# The context of a query

What a read brings together: the pattern that applies, facts, turns from the archive and recent
turns. It is shown as sections in that order, empty ones left out, and its size is given as a number
of tokens of four characters.
-/

namespace TieredMemory

/-- The answer to a query. -/
structure Context where
  recent : List Turn := []
  facts : List Fact := []
  archived : List Turn := []
  pattern : Option Pattern := none

namespace Context

/-- The characters of a token. -/
def charsPerToken : Nat := 4

/-- The number of characters of texts. -/
def charsIn : List String → Nat
  | [] => 0
  | t :: r => t.length + charsIn r

/-- The size in tokens. -/
def tokens (c : Context) : Nat :=
  (charsIn (c.recent.map Turn.text) + charsIn (c.facts.map Fact.key)
    + charsIn (c.facts.map Fact.value) + charsIn (c.archived.map Turn.text)
    + charsIn (c.pattern.map Pattern.template).toList) / charsPerToken

/-- A heading and its lines. -/
def titled (heading : String) (lines : List String) : String := "\n".intercalate (heading :: lines)

/-- The lines of a list under a heading; none for an empty list. -/
def listSection (heading : String) (lines : List String) : List String :=
  if lines.isEmpty then [] else [titled heading lines]

/-- A recent turn on one line. -/
def recentLine (t : Turn) : String := t.role.name ++ ": " ++ t.text

/-- An archived turn on one line. -/
def archivedLine (t : Turn) : String :=
  "- [" ++ (Moment.ofTime t.createdAt).toMinute ++ "] " ++ recentLine t

/-- The sections that are not empty. -/
def sections (c : Context) : List String :=
  (c.pattern.map fun p => titled ("## Procedure: " ++ p.name) [p.template]).toList
    ++ listSection "## Known facts" (c.facts.map fun f => "- " ++ f.text)
    ++ listSection "## From earlier conversations" (c.archived.map archivedLine)
    ++ listSection "## Recent turns" (c.recent.map recentLine)

/-- The context as a text for a prompt. -/
def render (c : Context) : String := "\n\n".intercalate c.sections

end Context

end TieredMemory
