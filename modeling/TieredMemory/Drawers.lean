import TieredMemory.FactStore

/-!
# The fact store in drawers

The fact store with its two tables: every user has a drawer with the user's facts by identifier, in
the order in which they came, and a register says in whose drawer an identifier is. A drawer is made
when the first fact is put into it and stays, empty, when its facts are removed one by one. Every
operation that brings or removes a fact keeps up the register itself.
-/

namespace TieredMemory

/-- Facts in the drawers of their users, and a register of owners. -/
structure Drawers where
  /-- Facts used less often than this may be pruned. -/
  minAccessCount : Int := 2
  /-- Facts idle for longer than this may be pruned. -/
  ttl : Duration := 2592000000000
  /-- Facts less like a query than this are not found. -/
  minSimilarity : Float := 0.3
  /-- The facts of each user. -/
  drawers : List (String × List Fact) := []
  /-- The owner of each identifier. -/
  owners : List (String × String) := []

namespace Drawers

/-- The facts in a user's drawer; without a drawer there are none. -/
def drawer (d : Drawers) (user : String) : List Fact :=
  ((Keyed.find? Prod.fst user d.drawers).map Prod.snd).getD []

/-- The owner of a fact. -/
def owner? (d : Drawers) (id : String) : Option String :=
  (Keyed.find? Prod.fst id d.owners).map Prod.snd

/-- The fact with the identifier, in the drawer of its owner. -/
def get? (d : Drawers) (id : String) : Option Fact :=
  (d.owner? id).bind fun user => Keyed.find? Fact.id id (d.drawer user)

/-- Change what is in a user's drawer, if there is one. -/
def change (user : String) (g : List Fact → List Fact) (d : Drawers) : Drawers :=
  { d with drawers := Keyed.update Prod.fst user (fun e => (e.1, g e.2)) d.drawers }

/-! ### Storing -/

/-- Put a fact into a user's drawer and enter the user as its owner. -/
def enter (user : String) (f : Fact) (d : Drawers) : Drawers :=
  { d with
    drawers := Keyed.put Prod.fst (user, Keyed.put Fact.id f (d.drawer user)) d.drawers
    owners := Keyed.put Prod.fst (f.id, user) d.owners }

/-- Make a fact the user's and store it, unless one in the drawer agrees with it: that one becomes at
least as important. Say whether the fact was stored. -/
def insert (user : String) (f : Fact) (d : Drawers) : Bool × Drawers :=
  let f := { f with user }
  match (d.drawer user).find? fun g => FactStore.agrees g f with
  | some g =>
    (false, d.change user (Keyed.update Fact.id g.id fun g =>
      { g with importance := greatest g.importance f.importance }))
  | none => (true, d.enter user f)

/-- Store facts for a user one after another, and count the stored ones. -/
def insertAll (user : String) : List Fact → Drawers → Nat × Drawers
  | [], d => (0, d)
  | f :: r, d =>
    let (stored, d) := d.insert user f
    let (n, d) := insertAll user r d
    ((if stored then n + 1 else n), d)

/-- Store facts for a user after embedding them. -/
def store (user conversation : String) (facts : List Fact) (d : Drawers) (w : World) :
    Except Rejection (Nat × Drawers × World) := do
  let place ← checkPlace user conversation
  let (facts, w) := FactStore.embedAll place.user facts w
  let (n, d) := d.insertAll place.user facts
  return (n, d, w)

/-! ### Searching -/

/-- The user's facts that are like enough to the query, best first. -/
def matching (user query : String) (embedding : Option Embedding) (d : Drawers) : List Fact :=
  let scored := (d.drawer user).map fun f => (FactStore.likeness query embedding f, f)
  (descending FactStore.ranksBelow (scored.filter fun p => d.minSimilarity ≤ p.1)).map (·.2)

/-- The first `n` matching facts, each with this use counted. -/
def find (now : Time) (user query : String) (embedding : Option Embedding) (n : Nat)
    (d : Drawers) : List Fact × Drawers :=
  let found := (d.matching user query embedding).take n
  (found.map (Fact.recordAccess now),
    d.change user fun facts => facts.map fun f =>
      if f.id ∈ found.map Fact.id then f.recordAccess now else f)

/-- Search the user's facts. -/
def search (user query : String) (limit : Int) (d : Drawers) (w : World) :
    Except Rejection (List Fact × Drawers × World) := do
  checkUser user
  let n ← checkLimit "max_results" limit
  if (d.drawer user).isEmpty || n = 0 then return ([], d, w)
  let (embedding, w) := w.embed user "facts.search" query
  let (found, d) := d.find w.now user query embedding n
  return (found, d, w)

/-- Count a use of the fact with the identifier, and say whether there is one. -/
def recordAccess (now : Time) (id : String) (d : Drawers) : Bool × Drawers :=
  match d.owner? id with
  | none => (false, d)
  | some user =>
    match Keyed.find? Fact.id id (d.drawer user) with
    | none => (false, d)
    | some _ => (true, d.change user (Keyed.update Fact.id id (Fact.recordAccess now)))

/-! ### Listing and forgetting -/

/-- List the user's facts by importance, then by the latest use, best first. -/
def list (d : Drawers) (user : String) : Except Rejection (List Fact) :=
  (checkUser user).map fun _ =>
    descending (fun a b => floatThen a.importance b.importance (a.lastAccessed < b.lastAccessed))
      (d.drawer user)

/-- Remove the user's stale facts, and count them. -/
def prune (now : Time) (user : String) (d : Drawers) : Nat × Drawers :=
  let isStale := Fact.isStale d.ttl d.minAccessCount now
  let stale := (d.drawer user).filter isStale
  (stale.length,
    { d.change user (List.filter fun f => !isStale f) with
      owners := FactStore.withoutOwners stale d.owners })

/-- Remove the user's drawer with the facts in it, and count them. -/
def deleteUser (user : String) (d : Drawers) : Nat × Drawers :=
  let gone := d.drawer user
  (gone.length,
    { d with
      drawers := Keyed.remove Prod.fst user d.drawers
      owners := FactStore.withoutOwners gone d.owners })

end Drawers

end TieredMemory
