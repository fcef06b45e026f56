import TieredMemory.Fault
import TieredMemory.Json.Value
import TieredMemory.Text.Blank
import TieredMemory.Turn

/-!
# Arguments

What an argument has to be before anything is done with it: an identifier has 1 to 128 characters
among ASCII letters, digits and the marks `_ . : @ -`; a text has something other than blanks and at
most a given number of characters; a limit is a natural number. A truth value stands for a number
where a limit is asked for.
-/

namespace TieredMemory

/-- A character of an identifier. -/
def isIdentifierChar (c : Char) : Bool :=
  c.isAlphanum || c == '_' || c == '.' || c == ':' || c == '@' || c == '-'

/-- 1 to 128 characters of the permitted ones. -/
def isIdentifier (s : String) : Bool :=
  let cs := s.toList
  1 ≤ cs.length && cs.length ≤ 128 && cs.all isIdentifierChar

/-- The text as an identifier. -/
def checkIdentifier (field s : String) : Except Rejection String :=
  if isIdentifier s then .ok s else .error (.malformed field (Text.quoted s))

/-- A text that says something in at most `limit` characters. -/
def checkText (field : String) (limit : Int) (s : String) : Except Rejection String :=
  if Text.isEmptyText s then .error (.emptyText field)
  else if (s.length : Int) > limit then .error (.tooLong field limit)
  else .ok s

/-- The greatest length of a message. -/
def longestText : Int := 10000

/-- The greatest length of a query. -/
def longestQuery : Int := 5000

/-- A query that says something and is not too long. -/
def checkQuery (s : String) : Except Rejection String := checkText "query" longestQuery s

/-- A limit that is a natural number. -/
def checkLimit (field : String) (n : Int) : Except Rejection Nat :=
  if n < 0 then .error (.badLimit field) else .ok n.toNat

/-- The number that a limit stands for. -/
def limitValue (field : String) : Json.Value → Except Rejection Nat
  | .int n => checkLimit field n
  | .bool b => .ok (if b then 1 else 0)
  | _ => .error (.badLimit field)

/-- A user's identifier. -/
def checkUser (user : String) : Except Rejection Unit :=
  (checkIdentifier "user_id" user).map fun _ => ()

/-- The identifiers of a user and of a conversation as a place. -/
def checkPlace (user conversation : String) : Except Rejection Place := do
  let user ← checkIdentifier "user_id" user
  let conversation ← checkIdentifier "conversation_id" conversation
  return ⟨user, conversation⟩

/-- Any value as an identifier. -/
def checkIdentifierValue (field : String) (v : Json.Value) : Except Rejection Json.Value :=
  match v with
  | .str s => (checkIdentifier field s).map fun _ => v
  | _ => .error (.malformed field v.quoted)

/-- Any value as a text. -/
def checkTextValue (field : String) (limit : Int) (v : Json.Value) : Except Rejection Json.Value :=
  match v with
  | .str s => (checkText field limit s).map fun _ => v
  | _ => .error (.emptyText field)

/-- Any value as a limit. -/
def checkLimitValue (field : String) (v : Json.Value) : Except Rejection Json.Value :=
  (limitValue field v).map fun _ => v

end TieredMemory
