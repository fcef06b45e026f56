import TieredMemory.Calendar

/-!
# Turns

A turn is one message of a conversation. It belongs to a user and to one of the user's
conversations; its importance is set when it is written and lies between zero and one.
-/

namespace TieredMemory

/-- The numbers that an embedding model gives to a text. -/
abbrev Embedding := List Float

/-- Who speaks. -/
inductive Role where
  | user
  | assistant
  | system
  deriving Repr, DecidableEq

/-- The written name of a role. -/
def Role.name : Role → String
  | user => "user"
  | assistant => "assistant"
  | system => "system"

/-- The role of a written name. -/
def Role.ofName? : String → Option Role
  | "user" => some user
  | "assistant" => some assistant
  | "system" => some system
  | _ => none

/-- What was noticed about a text when it was written. -/
structure Flags where
  isQuestion : Bool
  hasDecision : Bool
  hasCode : Bool
  deriving Repr, DecidableEq

/-- A user and one of the user's conversations. -/
structure Place where
  user : String
  conversation : String
  deriving Repr, DecidableEq

/-- One message of a conversation. -/
structure Turn where
  id : String
  user : String
  conversation : String
  role : Role
  text : String
  createdAt : Time
  importance : Float
  flags : Flags
  entities : List String
  embedding : Option Embedding

/-- Where a turn belongs. -/
def Turn.place (t : Turn) : Place := ⟨t.user, t.conversation⟩

end TieredMemory
