import TieredMemory.Keywords
import TieredMemory.Order
import TieredMemory.Similarity
import TieredMemory.Validation
import TieredMemory.World

/-!
# The archive in memory

The full log of turns in the order in which they were written. No two turns have the same
identifier: writing one again, even for another user, puts it at the end and drops the earlier one.
A search selects by likeness to the query and ranks by importance, then by time.
-/

namespace TieredMemory

/-- A log of turns. -/
structure ArchiveLog where
  /-- Turns less like a query than this are not found. -/
  minSimilarity : Float := 0.5
  turns : List Turn := []

namespace ArchiveLog

/-- The turns of a user. -/
def ofUser (a : ArchiveLog) (user : String) : List Turn := a.turns.filter fun t => t.user == user

/-- The turn with the identifier. -/
def get? (a : ArchiveLog) (id : String) : Option Turn := a.turns.find? fun t => t.id == id

/-- Put a turn at the end of the log. -/
def insert (t : Turn) (a : ArchiveLog) : ArchiveLog :=
  { a with turns := a.turns.filter (fun x => x.id ≠ t.id) ++ [t] }

/-- The turn with an embedding, if it can be had. -/
def embedded (t : Turn) (w : World) : Turn × World :=
  match t.embedding with
  | some _ => (t, w)
  | none =>
    let (e, w) := w.embed t.user "archive.append" t.text
    ({ t with embedding := e }, w)

/-- Write a turn after embedding it. -/
def append (t : Turn) (a : ArchiveLog) (w : World) : Except Rejection (Turn × ArchiveLog × World) :=
  do
  checkUser t.user
  let (t, w) := embedded t w
  return (t, a.insert t, w)

/-- How much a turn is like a query: by embeddings where both have one, else by keywords. -/
def likeness (query : String) (embedding : Option Embedding) (t : Turn) : Float :=
  match embedding, t.embedding with
  | some q, some e => if e.isEmpty then Keywords.score query t.text else cosine q e
  | _, _ => Keywords.score query t.text

/-- Ranked lower: by importance, then by time. -/
def ranksBelow (a b : Turn) : Bool :=
  floatThen a.importance b.importance (a.createdAt < b.createdAt)

/-- The user's turns that are like enough to the query, best first. -/
def matching (user query : String) (embedding : Option Embedding) (a : ArchiveLog) : List Turn :=
  descending ranksBelow
    ((a.ofUser user).filter fun t => a.minSimilarity ≤ likeness query embedding t)

/-- Search the user's turns. -/
def search (user query : String) (limit : Int) (a : ArchiveLog) (w : World) :
    Except Rejection (List Turn × World) := do
  checkUser user
  let n ← checkLimit "max_results" limit
  if (a.ofUser user).isEmpty || n = 0 then return ([], w)
  let (embedding, w) := w.embed user "archive.search" query
  return ((a.matching user query embedding).take n, w)

/-- The last `n` turns of a conversation in order of time. -/
def latest (a : ArchiveLog) (p : Place) (n : Nat) : List Turn :=
  lastOf n (ascending (fun x y => x.createdAt < y.createdAt)
    ((a.ofUser p.user).filter fun t => t.conversation == p.conversation))

/-- The last turns of a user's conversation in order of time. -/
def conversation (a : ArchiveLog) (user conversation : String) (limit : Int) :
    Except Rejection (List Turn) := do
  checkUser user
  let n ← checkLimit "limit" limit
  return a.latest ⟨user, conversation⟩ n

/-- Remove the user's turn with the identifier, and say whether there was one. -/
def delete (user id : String) (a : ArchiveLog) : Bool × ArchiveLog :=
  match a.get? id with
  | some t =>
    if t.user = user then (true, { a with turns := a.turns.filter fun x => x.id ≠ id })
    else (false, a)
  | none => (false, a)

/-- Remove the user's turns, and count them. -/
def deleteUser (user : String) (a : ArchiveLog) : Nat × ArchiveLog :=
  ((a.ofUser user).length, { a with turns := a.turns.filter fun t => t.user ≠ user })

end ArchiveLog

end TieredMemory
