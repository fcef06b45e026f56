import TieredMemory.Context
import TieredMemory.Memory.Background

/-!
# Writing, reading and forgetting

A write checks its arguments, notes what can be seen of the turn, rates it, and puts it into the hot
cache and the archive; a turn of the user is enriched afterwards. A read plans which tiers answer a
query and asks them. Arguments are checked before anything changes.
-/

namespace TieredMemory

/-- What a round of maintenance did for a user. -/
structure MaintenanceReport where
  user : String
  pruned : Nat
  merged : Nat
  finishedAt : Time
  deriving Repr, DecidableEq

/-- How much of a user was deleted from each tier. -/
structure Deletion where
  buckets : Nat
  facts : Nat
  turns : Nat
  patterns : Nat
  deriving Repr, DecidableEq

namespace Memory

/-! ### Conversations -/

/-- The state of a conversation, a new one if there is none. -/
def stateAt (p : Place) (m : Memory) : ConversationState :=
  (Keyed.find? ConversationState.place p m.states).getD { place := p, lastQueryAt := m.now }

/-- Change the state of a conversation. -/
def changeState (p : Place) (f : ConversationState → ConversationState) (m : Memory) : Memory :=
  { m with states := Keyed.put ConversationState.place (f (m.stateAt p)) m.states }

/-! ### Writing -/

/-- What a turn has to be to be written at a place. -/
def checkWrite (user conversation : String) (t : Turn) : Except Rejection Place := do
  let place ← checkPlace user conversation
  let _ ← checkText "text" longestText t.text
  if t.place ≠ place then throw (.misplaced t.id t.user t.conversation user conversation)
  return place

/-- The sentiment of a turn; none if there is no one to rate it or the rating fails, which is
reported. -/
def sentimentOf (t : Turn) (m : Memory) : Float × Memory :=
  match m.world.rate? t.text with
  | none => (0, m)
  | some (delay, outcome, world) =>
    let m := { m with world }.awaitReply delay
    match outcome with
    | .ok x => (x, m)
    | .error why => (0, { m with world := m.world.report (.noSentiment t.user why) })

/-- The turn with its flags, its entities and its importance. -/
def assess (t : Turn) (m : Memory) : Turn × Memory :=
  let t := Extraction.annotate t
  let (sentiment, m) := m.sentimentOf t
  let (importance, scorer) := m.scorer.score m.now sentiment t
  ({ t with importance }, { m with scorer })

/-- Put a turn into the hot cache and the archive. -/
def place (p : Place) (t : Turn) (m : Memory) : Except Fault Turn × Memory :=
  match m.archive.append t m.world with
  | .ok (t, archive, world) =>
    (.ok t, { m with cache := m.cache.add m.now p t, archive, world })
  | .error why => (.error why, { m with cache := m.cache.add m.now p t })

/-- Have a turn enriched in the background. -/
def enrich (t : Turn) (m : Memory) : Memory :=
  { m with
    background :=
      m.background ++ [{ work := .extract, turn := t }, { work := .detect, turn := t }] }

/-- What follows when a turn has been placed: it is counted, and a turn of the user is enriched. -/
def acknowledge (p : Place) (t : Turn) (m : Memory) : Memory :=
  let m := m.changeState p fun s => { s with turnCount := s.turnCount + 1 }
  if t.role = .user then m.enrich t else m

/-- Write a turn. It is returned with its flags, entities, importance and embedding. -/
def write (user conversation : String) (t : Turn) (m : Memory) : Except Fault Turn × Memory :=
  match checkWrite user conversation t with
  | .error why => (.error (.rejected why), m)
  | .ok p =>
    let (t, m) := m.assess t
    match m.amid (place p t) with
    | (.error why, m) => (.error why, m)
    | (.ok t, m) => (.ok t, m.acknowledge p t)

/-! ### Reading -/

/-- What a read asks for. -/
def checkRead (user conversation query : String) : Except Rejection Place := do
  let place ← checkPlace user conversation
  let _ ← checkQuery query
  return place

/-- The plan of a query. -/
def planFor (query : String) (m : Memory) : Plan × Memory :=
  let (opening, world) := Planner.consult query m.world
  let m := { m with world }.awaitReply opening.delay
  let (plan, notice) := opening.plan
  (plan, { m with world := m.world.reportAny notice })

/-- Ask the hot cache for recent turns. -/
def askCache (p : Place) (m : Memory) : Except Fault (List Turn) × Memory :=
  let (recent, cache) := m.cache.recent m.now p m.recentLimit
  (.ok recent, { m with cache })

/-- Ask the fact store. -/
def askFacts (p : Place) (query : String) (m : Memory) : Except Fault (List Fact) × Memory :=
  match m.facts.search p.user query m.factLimit m.world with
  | .ok (found, facts, world) => (.ok found, { m with facts, world })
  | .error why => (.error (.rejected why), m)

/-- Ask the archive. -/
def askArchive (p : Place) (query : String) (m : Memory) : Except Fault (List Turn) × Memory :=
  match m.archive.search p.user query m.archiveLimit m.world with
  | .ok (found, world) => (.ok found, { m with world })
  | .error why => (.error why, m)

/-- Ask the pattern store. -/
def askPatterns (p : Place) (query : String) (m : Memory) :
    Except Fault (Option Pattern) × Memory :=
  let (found, patterns, world) := m.patterns.matchQuery p.user query m.world
  (found, { m with patterns, world })

/-- Ask a tier if the plan does, and take nothing from it otherwise. -/
def askIf {α : Type} (plan : Plan) (tier : Tier) (none : α) (ask : Memory → Except Fault α × Memory)
    (m : Memory) : Except Fault α × Memory :=
  if plan.uses tier then ask m else (.ok none, m)

/-- Ask the tiers of a plan. All of them are asked even if one fails. -/
def ask (p : Place) (query : String) (plan : Plan) (m : Memory) : Except Fault Context × Memory :=
  let (recent, m) := m.askIf plan .hotCache [] (askCache p)
  let (facts, m) := m.askIf plan .factStore [] (askFacts p query)
  let (archived, m) := m.askIf plan .archive [] (askArchive p query)
  let (pattern, m) := m.askIf plan .patternStore none (askPatterns p query)
  (do
    let pattern ← pattern
    return { recent := ← recent, facts := ← facts, archived := ← archived, pattern },
  m)

/-- Read what the memory has for a query, with the plan that it followed. -/
def read (user conversation query : String) (m : Memory) : Except Fault (Plan × Context) × Memory :=
  match checkRead user conversation query with
  | .error why => (.error (.rejected why), m)
  | .ok p =>
    let m := m.changeState p fun s => { s with lastQueryAt := m.now }
    let (plan, m) := m.planFor query
    let (context, m) := m.amid (ask p query plan)
    (context.map fun c => (plan, c), m)

/-! ### Forgetting -/

/-- Remove a turn from the hot cache if it was there, and from the archive. -/
def removeTurn (p : Place) (id : String) (isCached : Bool) (m : Memory) :
    Except Fault Bool × Memory :=
  let (uncached, cache) := if isCached then m.cache.remove id else (false, m.cache)
  match m.archive.delete p.user id with
  | .ok (unarchived, archive) => (.ok (uncached || unarchived), { m with cache, archive })
  | .error why => (.error why, { m with cache })

/-- Forget a turn of a conversation, and say whether there was one. -/
def forget (user conversation id : String) (m : Memory) : Except Fault Bool × Memory :=
  match checkPlace user conversation with
  | .error why => (.error (.rejected why), m)
  | .ok p =>
    let (cached, cache) := m.cache.recent m.now p m.recentLimit
    { m with cache }.amid (removeTurn p id (cached.any fun t => t.id == id))

/-- Give up the enrichments of a user's turns. Others go on meanwhile. -/
def cancelEnrichments (user : String) (m : Memory) : Memory :=
  let kept := m.background.filter fun e => e.turn.user ≠ user
  if kept.length = m.background.length then m else { m with background := kept }.settle

/-- Delete a user from the tiers. -/
def deleteFromTiers (user : String) (m : Memory) : Except Fault Deletion × Memory :=
  let (buckets, cache) := m.cache.deleteUser user
  let (factCount, facts) := m.facts.deleteUser user
  let (patternCount, patterns) := m.patterns.deleteUser user
  match m.archive.deleteUser user with
  | .ok (turns, archive) =>
    (.ok ⟨buckets, factCount, turns, patternCount⟩, { m with cache, facts, patterns, archive })
  | .error why => (.error why, { m with cache, facts, patterns })

/-- Delete all that is known of a user, and count what was deleted from each tier. -/
def deleteUser (user : String) (m : Memory) : Except Fault Deletion × Memory :=
  match checkUser user with
  | .error why => (.error (.rejected why), m)
  | .ok _ =>
    match (m.cancelEnrichments user).amid (deleteFromTiers user) with
    | (.error why, m) => (.error why, m)
    | (.ok counts, m) =>
      (.ok counts,
        { m with
          scorer := m.scorer.forget user
          states := m.states.filter fun s => s.place.user ≠ user })

/-! ### Listing and maintaining -/

/-- List the user's patterns. -/
def listPatterns (user : String) (m : Memory) : Except Rejection (List Pattern) :=
  m.patterns.list user

/-- List the user's facts. -/
def listFacts (user : String) (m : Memory) : Except Rejection (List Fact) := m.facts.list user

/-- The last turns of a conversation in the hot cache. -/
def recent (user conversation : String) (limit : Int) (m : Memory) :
    Except Rejection (List Turn × Memory) := do
  let (turns, cache) ← m.cache.recentAt m.now user conversation limit
  return (turns, { m with cache })

/-- Prune a user's facts and consolidate the user's patterns. -/
def maintain (user : String) (m : Memory) : Except Rejection MaintenanceReport × Memory :=
  match checkUser user with
  | .error why => (.error why, m)
  | .ok _ =>
    let ((pruned, merged), m) := m.amid fun m =>
      let (pruned, merged, m) := m.tidy user
      ((pruned, merged), m)
    (.ok ⟨user, pruned, merged, m.now⟩, m)

/-! ### Starting and stopping -/

/-- The job that sweeps the hot cache. -/
def sweepJob (m : Memory) : JobSpec Chore where
  id := "hot_cache_sweep"
  name := "Hot cache sweep"
  call := .sweep
  interval := some m.choreInterval
  priority := .high

/-- The job that maintains the stores. -/
def maintenanceJob (interval : Duration) (m : Memory) : JobSpec Chore where
  id := "maintenance"
  name := "Fact pruning and pattern consolidation"
  call := .maintain
  interval := some interval
  priority := .low
  delay := interval
  timeout := some m.taskTimeout

/-- Have the chores done regularly. -/
def start (m : Memory) : Except Fault Unit × Memory :=
  let m := { m with scheduler := m.scheduler.add m.now m.sweepJob }
  match Duration.ofUnits hour m.maintenanceHours with
  | .error why => (.error why, m)
  | .ok interval =>
    (.ok (), { m with scheduler := (m.scheduler.add m.now (m.maintenanceJob interval)).start })

/-- Stop the chores, wait for the work in the background, and close the archive. -/
def stop (m : Memory) : Memory :=
  let m := { m with scheduler := m.scheduler.stop m.now }.drain
  { m with archive := m.archive.close }

end Memory

end TieredMemory
