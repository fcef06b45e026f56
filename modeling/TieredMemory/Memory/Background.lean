import TieredMemory.Memory.Basic

/-!
# Work in the background

Nothing happens in the background while a call runs. Where a call waits, the background gets its
turn: enrichments start and end, consolidations start and do their work, the scheduler calls its
chores. The clock moves on to the next time at which there is something to do, and never beyond the
time for which the call waits.
-/

namespace TieredMemory.Memory

/-! ### Chores -/

/-- Sweep the hot cache. -/
def sweepCache (m : Memory) : Nat × Memory :=
  let (n, cache) := m.cache.sweep m.now
  (n, { m with cache })

/-- Prune a user's facts and consolidate the user's patterns, and count both. -/
def tidy (user : String) (m : Memory) : Nat × Nat × Memory :=
  let (pruned, facts) := m.facts.prune m.now user
  let (merged, patterns) := m.patterns.consolidate user
  (pruned, merged, { m with facts, patterns })

/-- The users that maintenance goes through, in order. -/
def maintained (m : Memory) : List String := sortedDistinct (m.facts.users ++ m.patterns.users)

/-- Tidy up for every user. -/
def tidyAll (m : Memory) : Memory := m.maintained.foldl (fun m user => (m.tidy user).2.2) m

/-- Do a chore. -/
def doChore (m : Memory) : Chore → Memory
  | .sweep => m.sweepCache.2
  | .maintain => m.tidyAll

/-- The chores among what happened. -/
def choresIn (shown : List (Happening Chore)) : List Chore :=
  shown.filterMap fun h =>
    match h with
    | .called c _ => some c
    | _ => none

/-- Let the scheduler do what is due, and say which chores it calls. Chores end at once, so it leaves
off at the time at which it began. -/
def wakeScheduler (m : Memory) : List Chore × Memory :=
  let (_, shown, scheduler) := m.scheduler.wake m.now
  (choresIn shown, { m with scheduler })

/-! ### Enrichments -/

/-- Store the facts of a turn. -/
def storeFacts (t : Turn) (facts : List Fact) (m : Memory) : Memory :=
  if facts.isEmpty then m
  else
    match m.facts.store t.user t.conversation facts m.world with
    | .ok (_, facts, world) => { m with facts, world }
    | .error why =>
      { m with world := m.world.report (.enrichmentFailed t.user "extract" (.rejected why)) }

/-- The enrichment of a turn without a completer. -/
def enrichByRules (work : Work) (t : Turn) (m : Memory) : Memory :=
  match work with
  | .extract =>
    let (facts, world) := Extraction.factsByRules t m.world
    { m with world }.storeFacts t facts
  | .detect =>
    let (_, patterns, world) := m.patterns.learnByMarkers t.user (some t.text) m.world
    { m with patterns, world }

/-- The enrichment of a turn after the completer has given its answer. -/
def enrichFromOutcome (work : Work) (t : Turn) (outcome : Except Fault Json.Value) (m : Memory) :
    Memory :=
  match work with
  | .extract =>
    let (facts, world) := Extraction.factsOfOutcome t outcome m.world
    { m with world }.storeFacts t facts
  | .detect =>
    let (_, patterns, world) := m.patterns.learnFromOutcome t.user (some t.text) outcome m.world
    { m with patterns, world }

/-- The prompt for a work on a turn. -/
def promptFor (work : Work) (t : Turn) : Prompt :=
  match work with
  | .extract => Extraction.prompt t.text
  | .detect => Detection.prompt (some t.text)

/-- The fault with which a work breaks down at its start. -/
def faultOf? (m : Memory) : Work → Option Fault
  | .extract => m.extractionFault.map .broken
  | .detect => none

/-- How long an enrichment takes that has to wait for an answer, and whether the answer comes in
time. -/
def allotted (timeout : Decimal.Amount) (delay : Duration) : Duration × Bool :=
  match timeout.timer? with
  | some limit => if limit ≤ delay then (limit, false) else (delay, true)
  | none => (delay, true)

/-- Start an enrichment. It is over, or it goes on in the background. -/
def startEnrichment (e : Enrichment) (m : Memory) : Memory :=
  match m.faultOf? e.work with
  | some why =>
    { m with world := m.world.report (.enrichmentFailed e.turn.user e.work.name why) }
  | none =>
    match m.world.complete? (promptFor e.work e.turn) with
    | none => m.enrichByRules e.work e.turn
    | some (reply, world) =>
      let m := { m with world }
      if reply.delay ≤ 0 then m.enrichFromOutcome e.work e.turn reply.outcome
      else
        let (lasts, answered) := allotted m.taskTimeout reply.delay
        let progress := .underway (m.now + lasts) (if answered then some reply.outcome else none)
        { m with background := m.background ++ [{ e with progress }] }

/-- End an enrichment. -/
def endEnrichment (e : Enrichment) (outcome : Option (Except Fault Json.Value)) (m : Memory) :
    Memory :=
  match outcome with
  | some outcome => m.enrichFromOutcome e.work e.turn outcome
  | none =>
    { m with world := m.world.report (.enrichmentTimedOut e.turn.user e.work.name m.taskTimeout) }

/-- Let an enrichment go on: start it if it waits, end it if it is due. -/
def advance (m : Memory) (e : Enrichment) : Memory :=
  match e.progress with
  | .waiting => m.startEnrichment e
  | .underway endsAt outcome =>
    if endsAt ≤ m.now then m.endEnrichment e outcome
    else { m with background := m.background ++ [e] }

/-- Let all enrichments go on. -/
def advanceAll (m : Memory) : Memory := m.background.foldl advance { m with background := [] }

/-! ### Turns of the background -/

/-- What the background does before the parts of a call: consolidations take their guards, and a
scheduler that has just been started begins its first pass. Sweeps are done then; other chores are
left for after the call's parts. -/
def beforeParts (m : Memory) : List Chore × Memory :=
  let m := { m with patterns := m.patterns.startAll m.now }
  match m.scheduler.loop with
  | .starting =>
    let (chores, m) := m.wakeScheduler
    let (sweeps, others) := chores.partition (· = .sweep)
    (others, sweeps.foldl doChore m)
  | _ => ([], m)

/-- Let the consolidations start that have been set going, and do the work of those that are due. -/
def consolidateDue (m : Memory) : Memory :=
  let (patterns, world) := m.patterns.advance m.world
  { m with patterns, world }

/-- What the background does after the parts of a call: chores that are left, enrichments,
consolidations, and the scheduler. A consolidation that the parts have set going starts, and if it
has no debounce to wait for, it does its work at once. -/
def afterParts (chores : List Chore) (m : Memory) : Memory :=
  let m := (chores.foldl doChore m).advanceAll.consolidateDue
  let (chores, m) := m.wakeScheduler
  chores.foldl doChore m

/-- Do the parts of a call with the background at work before and after them. -/
def amid {α : Type} (parts : Memory → α × Memory) (m : Memory) : α × Memory :=
  let (chores, m) := m.beforeParts
  let (a, m) := parts m
  (a, m.afterParts chores)

/-- Let the background do what can be done now. -/
def settle (m : Memory) : Memory := (m.amid fun m => ((), m)).2

/-! ### Waiting -/

/-- When an enrichment has something to do next. -/
def Enrichment.wakeTime (now : Time) (e : Enrichment) : Time :=
  match e.progress with
  | .waiting => now
  | .underway endsAt _ => endsAt

/-- When the background has something to do. -/
def wakeTimes (m : Memory) : List Time :=
  m.background.map (Enrichment.wakeTime m.now) ++ m.patterns.wakeTimes ++
    (m.scheduler.wakeTime? m.now).toList

/-- Let the background do what it has to do before a time, in at most so many steps. -/
def runSteps (limit : Time) : Nat → Memory → Memory
  | 0, m => m
  | n + 1, m =>
    match m.wakeTimes.min? with
    | none => m
    | some t => if t < limit then runSteps limit n (m.atTime (max m.now t)).settle else m

/-- Let the background do what it has to do before a time. It has something to do at most once in a
millisecond. -/
def runUntil (limit : Time) (m : Memory) : Memory :=
  runSteps limit (((limit - m.now) / 1000).toNat + 1) m

/-- Wait for a time with the background at work. -/
def wait (d : Duration) (m : Memory) : Memory :=
  let limit := m.now + d
  (m.settle.runUntil limit).atTime limit

/-- Wait until a time and let the background do what is due then. -/
def waitThrough (limit : Time) (m : Memory) : Memory :=
  (m.runUntil limit).atTime (max m.now limit) |>.settle

/-- Wait for the answer of a collaborator, if it takes time. -/
def awaitReply (delay : Duration) (m : Memory) : Memory := if delay > 0 then m.wait delay else m

/-- Wait for all enrichments. -/
def drainEnrichments (m : Memory) : Memory :=
  if m.background.isEmpty then m
  else
    let m := m.settle
    match (m.background.map (Enrichment.wakeTime m.now)).max? with
    | none => m
    | some t => m.waitThrough t

/-- Wait for all consolidations. -/
def drainConsolidations (m : Memory) : Memory :=
  if m.patterns.background.isEmpty then m
  else
    let m := m.settle
    match m.patterns.wakeTimes.max? with
    | none => m
    | some t => m.waitThrough t

/-- Wait for all work in the background that comes to an end. -/
def drain (m : Memory) : Memory := m.drainEnrichments.drainConsolidations

end TieredMemory.Memory
