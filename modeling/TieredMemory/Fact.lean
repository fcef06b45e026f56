import TieredMemory.Order
import TieredMemory.Turn

/-!
# Facts

A fact is a key and a value learned from a user's messages, with a record of how often and when it
was last used. A fact may be evicted when it is both rarely used and idle for long.
-/

namespace TieredMemory

/-- What a fact is about. -/
inductive FactKind where
  | person
  | location
  | technology
  | decision
  | preference
  | limit
  | goal
  | other
  deriving Repr, DecidableEq

/-- The written name of a kind. -/
def FactKind.name : FactKind → String
  | person => "person"
  | location => "place"
  | technology => "technology"
  | decision => "decision"
  | preference => "preference"
  | limit => "constraint"
  | goal => "goal"
  | other => "other"

/-- All kinds. -/
def FactKind.all : List FactKind :=
  [person, location, technology, decision, preference, limit, goal, other]

/-- The kind of a written name; any other text names the kind `other`. -/
def FactKind.ofName (s : String) : FactKind := (all.find? fun k => k.name == s).getD other

/-- A learned fact. -/
structure Fact where
  id : String
  user : String
  conversation : String
  key : String
  value : String
  kind : FactKind
  importance : Float
  embedding : Option Embedding
  lastAccessed : Time
  accessCount : Int
  createdAt : Time

namespace Fact

/-- The fact as one text. -/
def text (f : Fact) : String := s!"{f.key}: {f.value}"

/-- The fact with one more use at the given time. -/
def recordAccess (now : Time) (f : Fact) : Fact :=
  { f with lastAccessed := now, accessCount := f.accessCount + 1 }

/-- Used less than `minCount` times and idle for longer than `ttl`. -/
def isStale (ttl : Duration) (minCount : Int) (now : Time) (f : Fact) : Bool :=
  f.accessCount < minCount && now - f.lastAccessed > ttl

end Fact

end TieredMemory
