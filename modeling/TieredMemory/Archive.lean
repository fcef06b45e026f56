import TieredMemory.Archive.Log
import TieredMemory.Archive.Table

/-!
# Archives

An archive is a log in memory or a table in a file. Both hold the full record of turns, and answer
the same calls; only the log uses embeddings, and only the table has to be open.
-/

namespace TieredMemory

/-- The full record of turns. -/
inductive Archive where
  | log (log : ArchiveLog)
  | table (table : ArchiveTable)

namespace Archive

/-- Write a turn. The log gives it an embedding. -/
def append (t : Turn) (w : World) : Archive → Except Fault (Turn × Archive × World)
  | log a => ((a.append t w).mapError .rejected).map fun (t, a, w) => (t, log a, w)
  | table a => (a.append t).map fun a => (t, table a, w)

/-- Search the user's turns. -/
def search (user query : String) (limit : Int) (w : World) :
    Archive → Except Fault (List Turn × World)
  | log a => (a.search user query limit w).mapError .rejected
  | table a => (a.search user query limit).map fun (found, notice) => (found, w.reportAny notice)

/-- The turn with the identifier. -/
def get? (id : String) : Archive → Except Fault (Option Turn)
  | log a => .ok (a.get? id)
  | table a => a.get? id

/-- The last turns of a user's conversation in order of time. -/
def conversation (user conversation : String) (limit : Int) : Archive → Except Fault (List Turn)
  | log a => (a.conversation user conversation limit).mapError .rejected
  | table a => a.conversation user conversation limit

/-- Remove the user's turn with the identifier, and say whether there was one. -/
def delete (user id : String) : Archive → Except Fault (Bool × Archive)
  | log a => let (removed, a) := a.delete user id; .ok (removed, log a)
  | table a => (a.delete user id).map fun (removed, a) => (removed, table a)

/-- Remove the user's turns, and count them. -/
def deleteUser (user : String) : Archive → Except Fault (Nat × Archive)
  | log a => let (n, a) := a.deleteUser user; .ok (n, log a)
  | table a => (a.deleteUser user).map fun (n, a) => (n, table a)

/-- Close the archive. A log has nothing to close. -/
def close : Archive → Archive
  | log a => log a
  | table a => table a.close

/-- The identifiers of each user's turns, in the order in which the turns came. -/
def contents : Archive → List (String × String)
  | log a => a.turns.map fun t => (t.user, t.id)
  | table a => a.working.rows.map fun r => (r.user, r.id)

end Archive

end TieredMemory
