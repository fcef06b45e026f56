import TieredMemory.Duration
import TieredMemory.Pattern.Consolidation
import TieredMemory.Pattern.Detection
import TieredMemory.Pattern.Score
import TieredMemory.Validation

/-!
# The pattern store

Each user's patterns in the order in which they came. A pattern that is alike to a stored one is
merged with it; a user with too many patterns loses the least used ones. Every match counts as a
use, and every so many uses a consolidation is set going in the background. While one is under way
for a user, others for that user are skipped: the first to start holds the user's *guard*. Deleting
a user leaves the guard to the consolidation that holds it; the next one gets a new guard.
-/

namespace TieredMemory

/-- A consolidation in the background. -/
structure Consolidation where
  user : String
  /-- The number of the guard that it takes. -/
  guard : Nat
  /-- When it goes to work, once it has started and holds its guard. -/
  wakeAt : Option Time

/-- Patterns of several users. -/
structure PatternStore where
  /-- The greatest number of patterns of a user. -/
  capacity : Nat := 100
  /-- A consolidation is due whenever the uses of a matched pattern are a multiple of this. -/
  consolidationEvery : Int := 10
  /-- Seconds that a consolidation may take. -/
  consolidationTimeout : Decimal.Amount := .real 120
  /-- Seconds between the start of a consolidation and its work. -/
  consolidationDebounce : Decimal.Amount := .real 0.1
  policy : ReinforcementPolicy := {}
  /-- The patterns of all users, in the order in which they came. -/
  patterns : List Pattern := []
  /-- The guard of each user. -/
  guards : List (String × Nat) := []
  /-- The guards that are held. -/
  held : List Nat := []
  /-- How many guards there have been. -/
  guardCount : Nat := 0
  /-- The consolidations in the background, in the order in which they were set going. -/
  background : List Consolidation := []

namespace PatternStore

/-- What tells a user's patterns apart in the store. -/
def address (p : Pattern) : String × String := (p.user, p.id)

/-- The patterns of a user. -/
def ofUser (s : PatternStore) (user : String) : List Pattern :=
  s.patterns.filter fun p => p.user == user

/-- The users that have patterns. -/
def users (s : PatternStore) : List String := sortedDistinct (s.patterns.map Pattern.user)

/-! ### Storing -/

/-- What is wrong with a pattern, if anything. -/
def check (p : Pattern) : Except Rejection Unit := do
  checkUser p.user
  if Text.isEmptyText p.name then throw .unnamedPattern
  if Text.isEmptyText p.template then throw .uninstructedPattern
  if p.triggers.isEmpty then throw .untriggeredPattern
  if p.triggers.any fun t => Text.isEmptyText t.text then throw .blankTrigger

/-- Less used, or as much used and longer ago. -/
def isLesser (a b : Pattern) : Bool :=
  a.usage < b.usage || (a.usage == b.usage && a.lastUsed < b.lastUsed)

/-- The user's patterns without the first of the least ones. -/
def withoutLeast (user : String) (s : PatternStore) : PatternStore :=
  match s.ofUser user with
  | [] => s
  | p :: r =>
    { s with patterns := Keyed.remove address (address (leastFrom isLesser p r)) s.patterns }

/-- Give up least patterns of a user until no more than the capacity are left. -/
def evict (user : String) (s : PatternStore) : PatternStore :=
  Nat.repeat (withoutLeast user) ((s.ofUser user).length - s.capacity) s

/-- The most used stored pattern that a new one is alike to. -/
def counterpart? (p : Pattern) (s : PatternStore) : Option Pattern :=
  (descending (fun a b => decide (a.usage < b.usage)) (s.ofUser p.user)).find? fun q =>
    q.id ≠ p.id && q.isAlike p

/-- Put the survivor of a merge into the store in the place of the loser. -/
def settle (survivor loser : Pattern) (s : PatternStore) : PatternStore :=
  { s with
    patterns := Keyed.put address survivor (Keyed.remove address (loser.user, loser.id) s.patterns) }

/-- Put a pattern into the store: merged with its counterpart if that is wanted and there is one,
otherwise as it is. The pattern that carries on is returned. -/
def insert (mergeAlike : Bool) (p : Pattern) (s : PatternStore) : Pattern × PatternStore :=
  match if mergeAlike then s.counterpart? p else none with
  | some q =>
    let (survivor, loser) := Pattern.ranked q p
    let survivor := survivor.merge s.policy loser
    (survivor, s.settle survivor loser)
  | none => (p, { s with patterns := Keyed.put address p s.patterns }.evict p.user)

/-- Embed the semantic triggers that have no embedding yet. -/
def embedTriggers (user : String) : List Trigger → World → List Trigger × World
  | [], w => ([], w)
  | t :: r, w =>
    let (t, w) :=
      if t.kind = .semantic ∧ t.embedding.isNone then
        let (e, w) := w.embed user "patterns.store" t.text
        ({ t with embedding := e }, w)
      else (t, w)
    let (r, w) := embedTriggers user r w
    (t :: r, w)

/-- Store a pattern after embedding its semantic triggers. -/
def store (p : Pattern) (mergeAlike : Bool) (s : PatternStore) (w : World) :
    Except Rejection (Pattern × PatternStore × World) := do
  check p
  let (triggers, w) := embedTriggers p.user p.triggers w
  let (kept, s) := s.insert mergeAlike { p with triggers }
  return (kept, s, w)

/-- Store detected patterns one after another, and return those that carry on. One that is refused
is reported. -/
def learn (user : String) :
    List Pattern → PatternStore → World → List Pattern × PatternStore × World
  | [], s, w => ([], s, w)
  | p :: r, s, w =>
    match s.store p true w with
    | .error why => learn user r s (w.report (.patternDiscarded user (.rejected why)))
    | .ok (kept, s, w) =>
      let (ps, s, w) := learn user r s w
      (kept :: ps, s, w)

/-! ### Consolidating -/

/-- Consolidate a user's patterns, and count the merges. -/
def consolidate (user : String) (s : PatternStore) : Nat × PatternStore :=
  let (merges, kept) := Pattern.consolidate s.policy (s.ofUser user)
  (merges,
    { s with
      patterns := s.patterns.filterMap fun p =>
        if p.user = user then Keyed.find? Pattern.id p.id kept else some p })

/-- The user's guard, a new one if there is none. -/
def guardOf (user : String) (s : PatternStore) : Nat × PatternStore :=
  match Keyed.find? Prod.fst user s.guards with
  | some (_, g) => (g, s)
  | none =>
    (s.guardCount,
      { s with guards := s.guards ++ [(user, s.guardCount)], guardCount := s.guardCount + 1 })

/-- Set a consolidation going, unless one holds the user's guard. -/
def schedule (user : String) (s : PatternStore) : PatternStore :=
  let (guard, s) := s.guardOf user
  if guard ∈ s.held then s
  else { s with background := s.background ++ [⟨user, guard, none⟩] }

/-- When a consolidation that starts now goes to work. -/
def wakeTime (now : Time) (s : PatternStore) : Time :=
  match s.consolidationDebounce.timer? with
  | some d => if d > 0 then now + d else now
  | none => now

/-- Start the consolidations that have not started. One whose guard is held is skipped. -/
def startAll (now : Time) (s : PatternStore) : PatternStore :=
  s.background.foldl
    (fun s c =>
      match c.wakeAt with
      | some _ => { s with background := s.background ++ [c] }
      | none =>
        if c.guard ∈ s.held then s
        else
          { s with
            held := s.held ++ [c.guard]
            background := s.background ++ [{ c with wakeAt := some (s.wakeTime now) }] })
    { s with background := [] }

/-- The work of one consolidation. One that may take no time is given up before anything is
merged. -/
def finish (c : Consolidation) (s : PatternStore) (w : World) : PatternStore × World :=
  let s := { s with held := s.held.filter (· ≠ c.guard) }
  if s.consolidationTimeout.value ≤ 0 then
    (s, w.report (.consolidationTimedOut c.user s.consolidationTimeout))
  else ((s.consolidate c.user).2, w)

/-- The consolidation goes to work at the time or before. -/
def Consolidation.isDue (now : Time) (c : Consolidation) : Bool := c.wakeAt.any (· ≤ now)

/-- Do the work of every consolidation that is due. -/
def finishDue (now : Time) (s : PatternStore) (w : World) : PatternStore × World :=
  let due := s.background.filter (Consolidation.isDue now)
  due.foldl (fun (s, w) c => finish c s w)
    ({ s with background := s.background.filter fun c => !Consolidation.isDue now c }, w)

/-- The times at which the consolidations go to work. -/
def wakeTimes (s : PatternStore) : List Time := s.background.filterMap Consolidation.wakeAt

/-- Let the consolidations do what can be done now. -/
def advance (s : PatternStore) (w : World) : PatternStore × World :=
  (s.startAll w.now).finishDue w.now w

/-- Go from one wake time to the next as long as they satisfy `p`, at most `n` times. -/
def runSteps (p : Time → Bool) : Nat → PatternStore → World → PatternStore × World
  | 0, s, w => (s, w)
  | n + 1, s, w =>
    match s.wakeTimes.min? with
    | none => (s, w)
    | some t =>
      if p t then
        let (s, w) := s.advance { w with now := max w.now t }
        runSteps p n s w
      else (s, w)

/-- Wait for a time with the consolidations at work. Every step does the work of one at least. -/
def wait (d : Duration) (s : PatternStore) (w : World) : PatternStore × World :=
  let limit := w.now + max d 0
  let (s, w) := s.advance w
  let (s, w) := s.runSteps (· < limit) s.background.length w
  (s, { w with now := limit })

/-- Wait for all consolidations. -/
def waitAll (s : PatternStore) (w : World) : PatternStore × World :=
  let (s, w) := s.advance w
  s.runSteps (fun _ => true) s.background.length w

/-! ### Learning -/

/-- Detect the patterns of a user's message by its marker, and store them. -/
def learnByMarkers (user : String) (text : Option String) (s : PatternStore) (w : World) :
    List Pattern × PatternStore × World :=
  let (ps, w) := Detection.byMarkers user text w
  s.learn user ps w

/-- Detect the patterns of a user's message after the completer has given its answer, and store
them. -/
def learnFromOutcome (user : String) (text : Option String) (outcome : Except Fault Json.Value)
    (s : PatternStore) (w : World) : List Pattern × PatternStore × World :=
  let (ps, w) := Detection.ofOutcome user text outcome w
  s.learn user ps w

/-- Detect the patterns of a user's message, by the completer if there is one, and store them. -/
def learnFrom (user : String) (text : Option String) (s : PatternStore) (w : World) :
    Except Rejection (List Pattern × PatternStore × World) :=
  (checkUser user).map fun _ =>
    match w.complete? (Detection.prompt text) with
    | none => s.learnByMarkers user text w
    | some (reply, w) =>
      let (s, w) := if reply.delay > 0 then s.wait reply.delay w else (s, w)
      s.learnFromOutcome user text reply.outcome w

/-! ### Matching -/

/-- Some pattern of the user has a trigger with an embedding. -/
def hasSemanticTriggers (user : String) (s : PatternStore) : Bool :=
  (s.ofUser user).any fun p =>
    p.triggers.any fun t => t.kind == .semantic && t.embedding.any fun e => !e.isEmpty

/-- Count a use of a pattern, and set a consolidation going if one is due. -/
def recordMatch (now : Time) (p : Pattern) (s : PatternStore) :
    Except Fault Pattern × PatternStore :=
  let used := p.recordUsage s.policy now
  let s := { s with patterns := Keyed.update address (address p) (fun _ => used) s.patterns }
  if s.consolidationEvery = 0 then (.error .zeroCadence, s)
  else if used.usage % s.consolidationEvery = 0 then (.ok used, s.schedule p.user)
  else (.ok used, s)

/-- The pattern of the user that applies to a query, with this use counted. -/
def apply (now : Time) (user query : String) (embedding : Option Embedding) (s : PatternStore) :
    Except Fault (Option Pattern) × PatternStore :=
  match Pattern.best? query embedding (s.ofUser user) with
  | .error why => (.error why, s)
  | .ok none => (.ok none, s)
  | .ok (some p) =>
    let (used, s) := s.recordMatch now p
    (used.map some, s)

/-- The pattern of the user that applies to a valid query. -/
def lookUp (user query : String) (s : PatternStore) (w : World) :
    Except Fault (Option Pattern) × PatternStore × World :=
  if (s.ofUser user).isEmpty then (.ok none, s, w)
  else
    let (embedding, w) :=
      if s.hasSemanticTriggers user then w.embed user "patterns.match" query else (none, w)
    let (found, s) := s.apply w.now user query embedding
    (found, s, w)

/-- Match a query against the user's patterns. -/
def matchQuery (user query : String) (s : PatternStore) (w : World) :
    Except Fault (Option Pattern) × PatternStore × World :=
  match (do checkUser user; checkQuery query) with
  | .error why => (.error (.rejected why), s, w)
  | .ok _ => s.lookUp user query w

/-! ### Listing and forgetting -/

/-- The user's patterns by use, then by the latest use, best first. -/
def ranked (s : PatternStore) (user : String) : List Pattern := descending isLesser (s.ofUser user)

/-- List the user's patterns. -/
def list (s : PatternStore) (user : String) : Except Rejection (List Pattern) :=
  (checkUser user).map fun _ => s.ranked user

/-- Remove the user's patterns, and count them. The guard is given up. -/
def deleteUser (user : String) (s : PatternStore) : Nat × PatternStore :=
  ((s.ofUser user).length,
    { s with
      patterns := s.patterns.filter fun p => p.user ≠ user
      guards := Keyed.remove Prod.fst user s.guards })

end PatternStore

end TieredMemory
