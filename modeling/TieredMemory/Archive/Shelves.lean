import TieredMemory.Archive.Log
import TieredMemory.Keyed

/-!
# The archive on shelves

The archive in memory with its two indices: a catalogue leads from an identifier to its turn, and every
user has a shelf with the user's turns in the order in which they were written. A turn that is written
under an identifier of another user's turn takes the identifier over: the other turn is deleted first.
A shelf stays, empty, when its turns are deleted one by one.
-/

namespace TieredMemory

/-- Turns in a catalogue and on the shelves of their users. -/
structure Shelves where
  /-- Turns less like a query than this are not found. -/
  minSimilarity : Float := 0.5
  /-- The turn of each identifier. -/
  catalogue : List (String × Turn) := []
  /-- The turns of each user. -/
  shelves : List (String × List Turn) := []

namespace Shelves

/-- The turn with the identifier. -/
def get? (a : Shelves) (id : String) : Option Turn :=
  (Keyed.find? Prod.fst id a.catalogue).map Prod.snd

/-- The turns of a user; without a shelf there are none. -/
def shelf (a : Shelves) (user : String) : List Turn :=
  ((Keyed.find? Prod.fst user a.shelves).map Prod.snd).getD []

/-- The turns on all shelves. -/
def all (a : Shelves) : List Turn := a.shelves.flatMap Prod.snd

/-- Take a turn out of the catalogue and off a user's shelf. -/
def discard (user id : String) (a : Shelves) : Shelves :=
  { a with
    catalogue := Keyed.remove Prod.fst id a.catalogue
    shelves := Keyed.put Prod.fst (user, (a.shelf user).filter fun t => t.id ≠ id) a.shelves }

/-- Remove the user's turn with the identifier, and say whether there was one. -/
def delete (user id : String) (a : Shelves) : Bool × Shelves :=
  match a.get? id with
  | none => (false, a)
  | some t => if t.user ≠ user then (false, a) else (true, a.discard user id)

/-- Delete the turn that has the identifier of a new one, if it is another user's. -/
def release (t : Turn) (a : Shelves) : Shelves :=
  match a.get? t.id with
  | none => a
  | some previous => if previous.user ≠ t.user then (a.delete previous.user t.id).2 else a

/-- Put a turn at the end of its user's shelf and into the catalogue. -/
def place (t : Turn) (a : Shelves) : Shelves :=
  { a with
    catalogue := Keyed.put Prod.fst (t.id, t) a.catalogue
    shelves :=
      Keyed.put Prod.fst (t.user, (a.shelf t.user).filter (fun x => x.id ≠ t.id) ++ [t])
        a.shelves }

/-- Write a turn under its identifier. -/
def insert (t : Turn) (a : Shelves) : Shelves := (a.release t).place t

/-- Write a turn after embedding it. -/
def append (t : Turn) (a : Shelves) (w : World) : Except Rejection (Turn × Shelves × World) := do
  checkUser t.user
  let (t, w) := ArchiveLog.embedded t w
  return (t, a.insert t, w)

/-- The user's turns that are like enough to the query, best first. -/
def matching (user query : String) (embedding : Option Embedding) (a : Shelves) : List Turn :=
  descending ArchiveLog.ranksBelow
    ((a.shelf user).filter fun t => a.minSimilarity ≤ ArchiveLog.likeness query embedding t)

/-- Search the user's turns. -/
def search (user query : String) (limit : Int) (a : Shelves) (w : World) :
    Except Rejection (List Turn × World) := do
  checkUser user
  let n ← checkLimit "max_results" limit
  if (a.shelf user).isEmpty || n = 0 then return ([], w)
  let (embedding, w) := w.embed user "archive.search" query
  return ((a.matching user query embedding).take n, w)

/-- The last turns of a user's conversation in order of time. -/
def conversation (a : Shelves) (user conversation : String) (limit : Int) :
    Except Rejection (List Turn) := do
  checkUser user
  let n ← checkLimit "limit" limit
  return lastOf n (ascending (fun x y => x.createdAt < y.createdAt)
    ((a.shelf user).filter fun t => t.conversation == conversation))

/-- Remove the user's shelf with the turns on it, and count them. -/
def deleteUser (user : String) (a : Shelves) : Nat × Shelves :=
  let turns := a.shelf user
  (turns.length,
    { a with
      catalogue := turns.foldl (fun c t => Keyed.remove Prod.fst t.id c) a.catalogue
      shelves := Keyed.remove Prod.fst user a.shelves })

end Shelves

end TieredMemory
