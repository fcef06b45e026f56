import TieredMemory.FullText.Expression
import TieredMemory.Json.Reader
import TieredMemory.Json.Writer
import TieredMemory.Order
import TieredMemory.Validation
import TieredMemory.World

/-!
# The archive in a file

The log of turns as a table of rows with a full-text index beside it. Statements change the working
contents; a commit makes them durable, and what is not committed is lost when the file is opened
again. Inserting a row enters its text into the index, and deleting a row deletes its entries. To
write a turn is to delete the row with its identifier, to insert the new row, and to commit.

A search looks its expression up in the index; if the expression is refused, the rows are searched
for the query as a wildcard pattern. Rows come by importance, then by the stored text of their time;
a row without an importance is ranked last and read as one of importance zero. Role and time are
stored as texts, flags and entities as texts of JSON values. Embeddings are not stored.
-/

namespace TieredMemory

/-- The flags as the text of an object. -/
def Flags.stored (f : Flags) : String :=
  Json.writtenBools [("is_question", f.isQuestion), ("has_decision", f.hasDecision),
    ("has_code", f.hasCode)]

/-- The flags that the text of an object gives; one that it does not name is not set. -/
def Flags.ofStored (s : String) : Flags :=
  let members := match Json.read? s with
    | some (.obj members) => members
    | _ => []
  let isSet (name : String) : Bool := match Json.lookup? name members with
    | some (.bool b) => b
    | _ => false
  ⟨isSet "is_question", isSet "has_decision", isSet "has_code"⟩

/-- The texts that the text of an array gives. -/
def entitiesOfStored (s : String) : List String :=
  match Json.read? s with
  | some (.arr items) => items.filterMap fun v => v.toText.toOption
  | _ => []

/-- A stored turn. -/
structure Row where
  id : String
  user : String
  conversation : String
  /-- The written name of the role. -/
  role : String
  text : String
  /-- The stored text of the time. -/
  createdAt : String
  importance : Option Float
  /-- The flags, as the text of an object. -/
  flags : String
  /-- The entities, as the text of an array. -/
  entities : String

namespace Row

/-- The row of a turn. -/
def ofTurn (t : Turn) : Row where
  id := t.id
  user := t.user
  conversation := t.conversation
  role := t.role.name
  text := t.text
  createdAt := (Moment.ofTime t.createdAt).stored
  importance := if t.importance.isNaN then none else some t.importance
  flags := t.flags.stored
  entities := Json.writtenStrings t.entities

/-- The turn that a row gives. -/
def toTurn (r : Row) : Turn where
  id := r.id
  user := r.user
  conversation := r.conversation
  role := (Role.ofName? r.role).getD .user
  text := r.text
  createdAt := ((Moment.ofStored? r.createdAt).map Moment.toTime).getD 0
  importance := if r.importance.getD 0 == 0 then 0 else r.importance.getD 0
  flags := Flags.ofStored r.flags
  entities := entitiesOfStored r.entities
  embedding := none

/-- Ranked lower by importance, where a missing one comes last, then by the text of the time. -/
def ranksBelow (a b : Row) : Bool :=
  match a.importance, b.importance with
  | none, some _ => true
  | some _, none => false
  | none, none => decide (a.createdAt < b.createdAt)
  | some x, some y => floatThen x y (a.createdAt < b.createdAt)

end Row

/-- An entry of the full-text index. -/
structure IndexEntry where
  id : String
  user : String
  content : String

/-- The rows and their index. -/
structure Contents where
  rows : List Row := []
  entries : List IndexEntry := []

/-- A statement that changes the contents. -/
inductive Statement where
  /-- Delete the row with the identifier. -/
  | delete (id : String)
  /-- Delete the row with the identifier if it is the user's. -/
  | deleteOwned (user id : String)
  /-- Delete the rows of a user. -/
  | deleteUser (user : String)
  /-- Insert a row. -/
  | insert (row : Row)
  /-- Make the contents durable. -/
  | commit

/-- An archive in a file. -/
structure ArchiveTable where
  isOpen : Bool := false
  /-- What the open connection sees. -/
  working : Contents := {}
  /-- What the file holds. -/
  durable : Contents := {}

namespace Contents

/-- Delete the rows that satisfy `p` and their entries. -/
def deleteWhere (p : Row → Bool) (c : Contents) : Contents where
  rows := c.rows.filter fun r => !p r
  entries := c.entries.filter fun e => !(c.rows.any fun r => p r && r.id == e.id)

/-- Insert a row and its entry. -/
def insert (r : Row) (c : Contents) : Contents where
  rows := c.rows ++ [r]
  entries := c.entries ++ [⟨r.id, r.user, r.text⟩]

/-- The row with the identifier. -/
def row? (c : Contents) (id : String) : Option Row := c.rows.find? fun r => r.id == id

/-- The rows of the user's entries that match one of the literals. -/
def matching (user : String) (literals : List String) (c : Contents) : List Row :=
  (c.entries.filter fun e =>
    e.user == user && FullText.isMatch literals (FullText.terms e.content)).filterMap fun e =>
      c.row? e.id

/-- The user's rows that contain the query as a wildcard pattern. -/
def containing (user query : String) (c : Contents) : List Row :=
  c.rows.filter fun r => r.user == user && FullText.containsLike query r.text

/-- The rows of a conversation as their index has them: by the text of their time, then as they were
inserted. -/
def indexed (p : Place) (c : Contents) : List Row :=
  ascending (fun a b => decide (a.createdAt < b.createdAt))
    (c.rows.filter fun r => r.user == p.user && r.conversation == p.conversation)

/-- The last `n` rows of a conversation by the text of their time: the first `n` of the index read
backwards, turned round. -/
def latest (p : Place) (n : Nat) (c : Contents) : List Row :=
  ((c.indexed p).reverse.take n).reverse

end Contents

namespace ArchiveTable

/-- Run one statement. -/
def run (a : ArchiveTable) : Statement → ArchiveTable
  | .delete id => { a with working := a.working.deleteWhere fun r => r.id == id }
  | .deleteOwned user id =>
    { a with working := a.working.deleteWhere fun r => r.id == id && r.user == user }
  | .deleteUser user => { a with working := a.working.deleteWhere fun r => r.user == user }
  | .insert row => { a with working := a.working.insert row }
  | .commit => { a with durable := a.working }

/-- Run statements one after another. -/
def runAll (a : ArchiveTable) (statements : List Statement) : ArchiveTable := statements.foldl run a

/-- Open the file. -/
def connect (a : ArchiveTable) : ArchiveTable := { a with isOpen := true, working := a.durable }

/-- Close the file. -/
def close (a : ArchiveTable) : ArchiveTable := { a with isOpen := false, working := a.durable }

/-- Close the file and open it again. -/
def reopen (a : ArchiveTable) : ArchiveTable := a.close.connect

/-- A call needs an open connection. -/
def checkOpen (a : ArchiveTable) : Except Fault Unit :=
  if a.isOpen then .ok () else .error .notConnected

/-- The statements that write a turn. -/
def appendStatements (t : Turn) : List Statement := [.delete t.id, .insert (Row.ofTurn t), .commit]

/-- Write a turn, interrupted after the first `n` statements. -/
def appendInterrupted (n : Nat) (t : Turn) (a : ArchiveTable) : ArchiveTable :=
  a.runAll ((appendStatements t).take n)

/-- What is checked before a turn is written. -/
def checkAppend (t : Turn) (a : ArchiveTable) : Except Fault Unit := do
  (checkUser t.user).mapError .rejected
  a.checkOpen

/-- Write a turn. -/
def append (t : Turn) (a : ArchiveTable) : Except Fault ArchiveTable := do
  a.checkAppend t
  return a.runAll (appendStatements t)

/-- Write a turn that has no text: its row is refused once the old one is deleted. -/
def appendWithoutText (t : Turn) (a : ArchiveTable) : Except Fault Unit × ArchiveTable :=
  match a.checkAppend t with
  | .ok () => (.error .incompleteRow, a.appendInterrupted 1 t)
  | .error why => (.error why, a)

/-- The greatest limit that a statement takes, plus one. -/
def limitBound : Nat := 9223372036854775808

/-- A limit that a statement takes. -/
def checkBound (n : Nat) : Except Fault Unit := if n < limitBound then .ok () else .error .tooLarge

/-- The first `n` turns of the rows by rank. -/
def bestOf (n : Nat) (rows : List Row) : List Turn :=
  ((descending Row.ranksBelow rows).take n).map Row.toTurn

/-- Search the user's turns, with the notice of a search without the index. -/
def search (user query : String) (limit : Int) (a : ArchiveTable) :
    Except Fault (List Turn × Option Notice) := do
  (checkUser user).mapError .rejected
  let n ← (checkLimit "max_results" limit).mapError .rejected
  if n = 0 then return ([], none)
  a.checkOpen
  checkBound n
  match FullText.readExpression? (FullText.expression query) with
  | some literals => return (bestOf n (a.working.matching user literals), none)
  | none =>
    return (bestOf n (a.working.containing user query),
      some (.searchedWithoutIndex user .unterminatedSearch))

/-- The turn with the identifier. -/
def get? (id : String) (a : ArchiveTable) : Except Fault (Option Turn) := do
  a.checkOpen
  return (a.working.row? id).map Row.toTurn

/-- The last turns of a user's conversation in order of time. -/
def conversation (a : ArchiveTable) (user conversation : String) (limit : Int) :
    Except Fault (List Turn) := do
  (checkUser user).mapError .rejected
  let n ← (checkLimit "limit" limit).mapError .rejected
  a.checkOpen
  checkBound n
  return (a.working.latest ⟨user, conversation⟩ n).map Row.toTurn

/-- Remove the user's turn with the identifier, and say whether there was one. -/
def delete (user id : String) (a : ArchiveTable) : Except Fault (Bool × ArchiveTable) := do
  a.checkOpen
  return (a.working.rows.any fun r => r.id == id && r.user == user,
    a.runAll [.deleteOwned user id, .commit])

/-- Remove the user's turns, and count them. -/
def deleteUser (user : String) (a : ArchiveTable) : Except Fault (Nat × ArchiveTable) := do
  a.checkOpen
  return ((a.working.rows.filter fun r => r.user == user).length,
    a.runAll [.deleteUser user, .commit])

end ArchiveTable

end TieredMemory
