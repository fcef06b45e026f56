import TieredMemory.Fact
import TieredMemory.Keyed
import TieredMemory.Keywords
import TieredMemory.Similarity
import TieredMemory.Validation
import TieredMemory.World

/-!
# The fact store

Each user's facts in the order in which they came. A fact that agrees with a stored one in key and
value, letter case aside, is not stored again: the stored one keeps the greater importance of the
two. A search ranks by likeness to the query, then by importance, then by the latest use, and counts
as a use of every fact that it returns. A register of owners tells whose fact an identifier belongs
to.
-/

namespace TieredMemory

/-- Facts of several users. -/
structure FactStore where
  /-- Facts used less often than this may be pruned. -/
  minAccessCount : Int := 2
  /-- Facts idle for longer than this may be pruned. -/
  ttl : Duration := 2592000000000
  /-- Facts less like a query than this are not found. -/
  minSimilarity : Float := 0.3
  /-- The facts of all users, in the order in which they came. -/
  facts : List Fact := []
  /-- Whose fact an identifier belongs to. -/
  owners : List (String × String) := []

namespace FactStore

/-- What tells a user's facts apart in the store. -/
def address (f : Fact) : String × String := (f.user, f.id)

/-- The facts of a user. -/
def ofUser (s : FactStore) (user : String) : List Fact := s.facts.filter fun f => f.user == user

/-- The owner of a fact. -/
def owner? (s : FactStore) (id : String) : Option String :=
  (Keyed.find? Prod.fst id s.owners).map (·.2)

/-- The fact with the identifier. -/
def get? (s : FactStore) (id : String) : Option Fact :=
  (s.owner? id).bind fun user => Keyed.find? address (user, id) s.facts

/-- The users that have facts. -/
def users (s : FactStore) : List String := sortedDistinct (s.facts.map Fact.user)

/-! ### Storing -/

/-- Two facts agree in key and value, letter case aside. -/
def agrees (a b : Fact) : Bool :=
  Text.lower a.key == Text.lower b.key && Text.lower a.value == Text.lower b.value

/-- Raise the importance of the fact at an address to at least the given one. -/
def raise (a : String × String) (importance : Float) (s : FactStore) : FactStore :=
  { s with
    facts := Keyed.update address a
      (fun f => { f with importance := greatest f.importance importance }) s.facts }

/-- Store one fact for a user, unless a stored one agrees with it, and say whether it was stored. -/
def insert (user : String) (f : Fact) (s : FactStore) : Bool × FactStore :=
  match (s.ofUser user).find? fun g => agrees g f with
  | some g => (false, s.raise (address g) f.importance)
  | none =>
    (true,
      { s with
        facts := Keyed.put address { f with user } s.facts
        owners := Keyed.put Prod.fst (f.id, user) s.owners })

/-- Store facts for a user one after another, and count the stored ones. -/
def insertAll (user : String) : List Fact → FactStore → Nat × FactStore
  | [], s => (0, s)
  | f :: r, s =>
    let (stored, s) := s.insert user f
    let (n, s) := insertAll user r s
    ((if stored then n + 1 else n), s)

/-- Embed the facts that have no embedding yet. -/
def embedAll (user : String) : List Fact → World → List Fact × World
  | [], w => ([], w)
  | f :: r, w =>
    let (f, w) := match f.embedding with
      | some _ => (f, w)
      | none =>
        let (e, w) := w.embed user "facts.store" f.text
        ({ f with embedding := e }, w)
    let (r, w) := embedAll user r w
    (f :: r, w)

/-- Store facts for a user after embedding them. -/
def store (user conversation : String) (facts : List Fact) (s : FactStore) (w : World) :
    Except Rejection (Nat × FactStore × World) := do
  let place ← checkPlace user conversation
  let (facts, w) := embedAll place.user facts w
  let (n, s) := s.insertAll place.user facts
  return (n, s, w)

/-! ### Searching -/

/-- How much a fact is like a query: by embeddings where both have one, else by keywords. -/
def likeness (query : String) (embedding : Option Embedding) (f : Fact) : Float :=
  match embedding, f.embedding with
  | some q, some e => if e.isEmpty then Keywords.score query f.text else cosine q e
  | _, _ => Keywords.score query f.text

/-- Ranked lower: by likeness, then by importance, then by the latest use. -/
def ranksBelow (a b : Float × Fact) : Bool :=
  floatThen a.1 b.1
    (floatThen a.2.importance b.2.importance (a.2.lastAccessed < b.2.lastAccessed))

/-- The user's facts that are like enough to the query, best first. -/
def matching (user query : String) (embedding : Option Embedding) (s : FactStore) : List Fact :=
  let scored := (s.ofUser user).map fun f => (likeness query embedding f, f)
  (descending ranksBelow (scored.filter fun p => s.minSimilarity ≤ p.1)).map (·.2)

/-- Count a use of each of the user's facts with the identifiers. -/
def recordUses (now : Time) (user : String) (ids : List String) (s : FactStore) : FactStore :=
  { s with
    facts := s.facts.map fun f =>
      if f.user = user ∧ f.id ∈ ids then f.recordAccess now else f }

/-- The first `n` matching facts, each with this use counted. -/
def find (now : Time) (user query : String) (embedding : Option Embedding) (n : Nat)
    (s : FactStore) : List Fact × FactStore :=
  let found := (s.matching user query embedding).take n
  (found.map (Fact.recordAccess now), s.recordUses now user (found.map Fact.id))

/-- Search the user's facts. -/
def search (user query : String) (limit : Int) (s : FactStore) (w : World) :
    Except Rejection (List Fact × FactStore × World) := do
  checkUser user
  let n ← checkLimit "max_results" limit
  if (s.ofUser user).isEmpty || n = 0 then return ([], s, w)
  let (embedding, w) := w.embed user "facts.search" query
  let (found, s) := s.find w.now user query embedding n
  return (found, s, w)

/-- Count a use of the fact with the identifier, and say whether there is one. -/
def recordAccess (now : Time) (id : String) (s : FactStore) : Bool × FactStore :=
  match s.get? id with
  | none => (false, s)
  | some f =>
    (true, { s with facts := Keyed.update address (address f) (Fact.recordAccess now) s.facts })

/-! ### Listing and forgetting -/

/-- The user's facts by importance, then by the latest use, best first. -/
def ranked (s : FactStore) (user : String) : List Fact :=
  descending (fun a b => floatThen a.importance b.importance (a.lastAccessed < b.lastAccessed))
    (s.ofUser user)

/-- List the user's facts. -/
def list (s : FactStore) (user : String) : Except Rejection (List Fact) :=
  (checkUser user).map fun _ => s.ranked user

/-- The owners without those of the facts. -/
def withoutOwners (facts : List Fact) (owners : List (String × String)) : List (String × String) :=
  owners.filter fun e => facts.all fun f => f.id ≠ e.1

/-- Remove the user's stale facts, and count them. -/
def prune (now : Time) (user : String) (s : FactStore) : Nat × FactStore :=
  let stale := (s.ofUser user).filter (Fact.isStale s.ttl s.minAccessCount now)
  (stale.length,
    { s with
      facts := s.facts.filter fun f => !(f.user == user && f.isStale s.ttl s.minAccessCount now)
      owners := withoutOwners stale s.owners })

/-- Remove the user's facts, and count them. -/
def deleteUser (user : String) (s : FactStore) : Nat × FactStore :=
  let gone := s.ofUser user
  (gone.length,
    { s with
      facts := s.facts.filter fun f => f.user ≠ user
      owners := withoutOwners gone s.owners })

end FactStore

end TieredMemory
