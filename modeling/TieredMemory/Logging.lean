import TieredMemory.Fault
import TieredMemory.Order

/-!
# Logging

A line of the log gives the level, the source and the wording of a message. Setting the log up fixes
the least level that is written; a level may be given by name or by number, and an unknown name
stands for the usual level. Level zero leaves the decision to the surroundings, which write warnings
and more.
-/

namespace TieredMemory.Logging

/-- How a level may be given. -/
inductive LevelChoice where
  /-- The usual one. -/
  | usual
  | named (name : String)
  | number (n : Int)
  deriving Repr, DecidableEq

/-- The usual level. -/
def usualLevel : Int := 20

/-- The level of warnings. -/
def warning : Int := 30

/-- The names of levels. -/
def levelNames : List (String × Int) := [
  ("NOTSET", 0), ("DEBUG", 10), ("INFO", 20), ("WARN", 30), ("WARNING", 30), ("ERROR", 40),
  ("CRITICAL", 50), ("FATAL", 50)]

/-- A name that stands for the form of lines instead of a level, and that form. -/
def reservedName : String × String := ("BASIC_FORMAT", "%(levelname)s:%(name)s:%(message)s")

/-- A name that stands for the styles of lines instead of a level. -/
def stylesName : String := "_STYLES"

/-- A letter as a capital, as far as the capital is an ASCII letter. -/
def capitalLetter (c : Char) : Char :=
  if c == 'ı' then 'I' else if c == 'ſ' then 'S' else c.toUpper

/-- The number of a chosen level. -/
def levelOf : LevelChoice → Except Fault Int
  | .usual => .ok usualLevel
  | .number n => .ok n
  | .named name =>
    let capital := name.map capitalLetter
    if capital = reservedName.1 then .error (.unknownLevel reservedName.2)
    else if capital = stylesName then .error .notConvertible
    else .ok (((levelNames.find? fun p => p.1 == capital).map (·.2)).getD usualLevel)

/-- The name that a line gives a level. -/
def shownLevel (n : Int) : String :=
  if n = 0 then "NOTSET"
  else if n = 10 then "DEBUG"
  else if n = 20 then "INFO"
  else if n = 30 then "WARNING"
  else if n = 40 then "ERROR"
  else if n = 50 then "CRITICAL"
  else s!"Level {n}"

/-- The text with blanks up to eight characters. -/
def padded (s : String) : String := s ++ String.ofList (List.replicate (8 - s.length) ' ')

/-- A message for the log. -/
structure Message where
  level : Int
  /-- The part of the program that it comes from. -/
  source : String
  text : String

/-- The line of a message without its time. -/
def Message.line (m : Message) : String :=
  s!" | {padded (shownLevel m.level)} | mnemo.{m.source} | {m.text}"

/-- A log as it is set up. -/
structure Setup where
  level : Int
  writesFile : Bool

/-- Set the log up. -/
def setup (choice : LevelChoice) (writesFile : Bool) : Except Fault Setup :=
  (levelOf choice).map fun level => ⟨level, writesFile⟩

/-- The number of places that lines are written to. -/
def Setup.places (s : Setup) : Nat := if s.writesFile then 2 else 1

/-- The least level that is written. -/
def Setup.threshold (s : Setup) : Int := if s.level = 0 then warning else s.level

/-- The level of sources that talk too much: warnings at least. -/
def Setup.noisyLevel (s : Setup) : Int := max s.level warning

/-- The number of sources that talk too much. -/
def noisySources : List String := ["LiteLLM", "httpx", "aiosqlite"]

/-- The message is written. One at level zero or below never is. -/
def Setup.writes (s : Setup) (m : Message) : Bool := 0 < m.level && s.threshold ≤ m.level

/-- The lines that messages leave in the log. -/
def Setup.lines (s : Setup) (messages : List Message) : List String :=
  (messages.filter s.writes).map Message.line

end TieredMemory.Logging
