import TieredMemory.Decimal.Places
import TieredMemory.Text.Quoted

/-!
# What can go wrong

Every failure is given by its cause. A *rejection* is the caller's fault and is found before
anything has changed; an *outage* is a collaborator that is there but does not serve; the other
faults arise when an answer of a collaborator is read or when a call is made out of order. The
wording is in `Rejection.message`, `Outage.message` and `Fault.message` alone.
-/

namespace TieredMemory

/-- Why an argument is refused. -/
inductive Rejection where
  /-- An identifier with other than 1 to 128 of the permitted characters. -/
  | malformed (field shown : String)
  /-- A text with nothing but blanks in it. -/
  | emptyText (field : String)
  /-- A text with more than the permitted number of characters. -/
  | tooLong (field : String) (limit : Int)
  /-- A limit that is not a natural number. -/
  | badLimit (field : String)
  /-- A turn written under another user or conversation than its own. -/
  | misplaced (turn owner itsConversation user conversation : String)
  /-- A pattern without a name. -/
  | unnamedPattern
  /-- A pattern without instructions. -/
  | uninstructedPattern
  /-- A pattern without triggers. -/
  | untriggeredPattern
  /-- A pattern with a blank trigger. -/
  | blankTrigger
  /-- An archive of an unknown kind. -/
  | unknownArchive (name : String)
  deriving Repr, DecidableEq

/-- Why a collaborator does not serve. -/
inductive Outage where
  /-- It says so itself. -/
  | stated (text : String)
  /-- The completion call failed. -/
  | completion (text : String)
  /-- The embedding call failed. -/
  | embedding (text : String)
  /-- No embedding model is chosen. -/
  | noEmbeddingModel
  /-- The answer is not a sentiment. -/
  | notSentiment (answer : String)
  /-- The registry has no such model. -/
  | unknownModel (id : String)
  /-- The model is of another kind than asked for. -/
  | wrongKind (id kind wanted : String)
  /-- The registry entry names a kind that does not exist. -/
  | unknownKind (shownId shownKind : String)
  /-- There is no registry at the place. -/
  | noRegistry (path : String)
  deriving Repr, DecidableEq

/-- A failure, by cause. -/
inductive Fault where
  /-- An argument is refused. -/
  | rejected (why : Rejection)
  /-- A collaborator does not serve. -/
  | unavailable (why : Outage)
  /-- A collaborator or callback broke down with a text of its own. -/
  | broken (text : String)
  /-- A call on an archive that is not connected. -/
  | notConnected
  /-- A text that should be JSON is not. -/
  | notJson
  /-- A JSON text that should be an array is not one; `what` names its items. -/
  | notArray (what : String)
  /-- A text that should be a number is not. -/
  | notNumber (text : String)
  /-- A value of a kind that stands for no number or no sequence. -/
  | notConvertible
  /-- A value without the parts that are asked of it. -/
  | shapeless
  /-- A required member is missing. -/
  | missing (name : String)
  /-- A number beyond the greatest representable one. -/
  | tooLarge
  /-- A duration of what is not a number. -/
  | undefinedDuration
  /-- A cadence of zero. -/
  | zeroCadence
  /-- A search expression that does not end. -/
  | unterminatedSearch
  /-- A row without a value that it must have. -/
  | incompleteRow
  /-- A logging level of an unknown name. -/
  | unknownLevel (name : String)
  deriving Repr, DecidableEq

/-- The wording of a rejection. -/
def Rejection.message : Rejection → String
  | .malformed field shown => s!"{field} is malformed: {shown}"
  | .emptyText field => s!"{field} cannot be empty"
  | .tooLong field limit => s!"{field} cannot exceed {Decimal.grouped limit} characters"
  | .badLimit field => s!"{field} must be a non-negative integer"
  | .misplaced turn owner itsConversation user conversation =>
    s!"turn {turn} belongs to {owner}/{itsConversation}, not {user}/{conversation}"
  | .unnamedPattern => "pattern name cannot be empty"
  | .uninstructedPattern => "pattern instruction_template cannot be empty"
  | .untriggeredPattern => "pattern needs at least one trigger"
  | .blankTrigger => "pattern triggers cannot be empty"
  | .unknownArchive name => s!"Unknown archive backend: {name}"

/-- The wording of an outage. -/
def Outage.message : Outage → String
  | .stated text => text
  | .completion text => s!"completion failed: {text}"
  | .embedding text => s!"embedding failed: {text}"
  | .noEmbeddingModel => "no embedding model configured"
  | .notSentiment answer => s!"unparseable sentiment: {Text.quoted answer}"
  | .unknownModel id => s!"Model {id} not in registry"
  | .wrongKind id kind wanted => s!"Model {id} is a {kind} model, not {wanted}"
  | .unknownKind shownId shownKind => s!"Model {shownId} has unknown kind {shownKind}"
  | .noRegistry path => s!"Model registry not found at {path}"

/-- The wording of a fault. -/
def Fault.message : Fault → String
  | .rejected why => why.message
  | .unavailable why => why.message
  | .broken text => text
  | .notConnected => "Archive not connected. Call connect() first."
  | .notJson => "not a JSON text"
  | .notArray what => s!"expected a JSON array of {what}"
  | .notNumber text => s!"could not convert string to float: {Text.quoted text}"
  | .notConvertible => "not a value of the expected kind"
  | .shapeless => "a value without the expected parts"
  | .missing name => s!"missing member {name}"
  | .tooLarge => "number too large"
  | .undefinedDuration => "cannot convert float NaN to integer"
  | .zeroCadence => "a cadence of zero"
  | .unterminatedSearch => "unterminated search expression"
  | .incompleteRow => "a row without a required value"
  | .unknownLevel name => s!"Unknown level: {Text.quoted name}"

end TieredMemory
