import TieredMemory.Archive
import TieredMemory.Extraction
import TieredMemory.FactStore
import TieredMemory.HotCache
import TieredMemory.Importance
import TieredMemory.PatternStore
import TieredMemory.Scheduler
import TieredMemory.Settings

/-!
# The memory

The four tiers with all that ties them together: the ledger of entities, the states of the
conversations, the enrichment of turns that is still to be done, the scheduled chores, and the world
around. An enrichment is one of two works on a turn, the extraction of facts or the detection of
patterns. It waits until it is started; then it is over at once or under way until the completer has
answered or its time has run out.
-/

namespace TieredMemory

/-- What is done for a turn in the background. -/
inductive Work where
  | extract
  | detect
  deriving Repr, DecidableEq

/-- The written name of a work. -/
def Work.name : Work → String
  | extract => "extract"
  | detect => "detect"

/-- How far an enrichment is. -/
inductive Progress where
  /-- It has not started. -/
  | waiting
  /-- It ends at the time: with what the completer gives, or without an answer if its time runs
  out. -/
  | underway (endsAt : Time) (outcome : Option (Except Fault Json.Value))

/-- A work on a turn in the background. -/
structure Enrichment where
  work : Work
  turn : Turn
  progress : Progress := .waiting

/-- The regular chores. -/
inductive Chore where
  /-- Sweep the hot cache. -/
  | sweep
  /-- Prune facts and consolidate patterns of every user. -/
  | maintain
  deriving Repr, DecidableEq

/-- Chores end well at once. -/
instance : Callable Chore := ⟨fun _ => {}⟩

/-- What is known of a conversation. -/
structure ConversationState where
  place : Place
  turnCount : Nat := 0
  lastQueryAt : Time
  deriving Repr, DecidableEq

/-- The tiers and all that ties them together. -/
structure Memory where
  /-- The number of turns that a read or a removal looks at in the hot cache. -/
  recentLimit : Nat := 10
  /-- The number of facts that a read returns. -/
  factLimit : Int := 20
  /-- The number of archived turns that a read returns. -/
  archiveLimit : Int := 5
  /-- Seconds that an enrichment may take. -/
  taskTimeout : Decimal.Amount := .real 300
  /-- The time between sweeps by the scheduler. -/
  choreInterval : Duration := 300 * second
  /-- Hours between two rounds of maintenance. -/
  maintenanceHours : Float := 24
  /-- The text with which the extraction of facts breaks down, if it does. -/
  extractionFault : Option String := none
  cache : HotCache := {}
  facts : FactStore := {}
  archive : Archive := .log {}
  patterns : PatternStore := {}
  scorer : Scorer := {}
  states : List ConversationState := []
  background : List Enrichment := []
  scheduler : Scheduler Chore := {}
  world : World := {}

namespace Memory

/-- The present time. -/
def now (m : Memory) : Time := m.world.now

/-- The memory at a later time. -/
def atTime (t : Time) (m : Memory) : Memory := { m with world := { m.world with now := t } }

/-- The model service that the settings ask for, unless there are collaborators already. -/
def withService (s : Settings) (environment : Environment)
    (completions embeddings : Script BackendAnswer) (w : World) : Except Fault World :=
  if s.completionModel.isEmpty || w.embedder.isSome || w.classifier.isSome ||
      w.completer.isSome then
    .ok w
  else do
    let service ← (Service.create Registry.standard environment s.completionModel
      (some s.embeddingModel) completions embeddings).mapError .unavailable
    return { w with
      service := some service
      completer := some .service
      classifier := some .service
      embedder := if s.embeddingModel.isEmpty then w.embedder else some .service }

/-- The archive that the settings ask for. -/
def archiveOf (s : Settings) : Except Fault Archive :=
  if s.archiveBackend = "sqlite" then .ok (.table ({} : ArchiveTable).connect)
  else if s.archiveBackend = "memory" then .ok (.log {})
  else .error (.rejected (.unknownArchive s.archiveBackend))

/-- An empty memory with the given settings. -/
def create (s : Settings) (environment : Environment)
    (completions embeddings : Script BackendAnswer) (w : World) : Except Fault Memory := do
  let w ← withService s environment completions embeddings w
  let archive ← archiveOf s
  let cacheTtl ← Duration.ofUnits hour s.hotCacheTtlHours
  let sweepInterval ← Duration.ofUnits second s.hotCacheSweepSeconds
  let factTtl ← Duration.ofUnits day s.factTtlDays
  let choreInterval ← Duration.ofUnits second (greatest s.hotCacheSweepSeconds 1)
  return {
    recentLimit := s.hotCacheCapacity.toNat
    factLimit := s.factSearchLimit
    archiveLimit := s.archiveSearchLimit
    taskTimeout := .real s.backgroundTimeoutSeconds
    choreInterval
    maintenanceHours := s.maintenanceIntervalHours
    cache := {
      capacity := s.hotCacheCapacity.toNat, ttl := cacheTtl
      maxBuckets := s.hotCacheMaxBuckets.toNat, sweepInterval, lastSweep := w.now }
    facts := { minAccessCount := s.factMinAccessCount, ttl := factTtl }
    archive
    patterns := {
      capacity := s.patternCapacity.toNat
      consolidationEvery := s.consolidationEvery
      consolidationTimeout := .real s.consolidationTimeoutSeconds
      consolidationDebounce := .real s.consolidationDebounceSeconds
      policy := s.policy }
    world := { w with sentiment := some (w.sentiment.getD .lexicon) } }

end Memory

end TieredMemory
