import TieredMemory.Proofs.Memory.Step

/-!
# Enrichment, one call at a time

An enrichment waits whenever it calls a collaborator: the completer once, and the embedder for every
text that has to be embedded. Between two calls other work goes on, and at a call the enrichment may
be given up. An *activity* is work that is done in pieces: a change of the memory and what follows
it, both determined by the memory that the piece finds. The activities of an enrichment end, if
nothing comes between their pieces, where the enrichment ends that is done at once
(`finish_fromOutcome`, `finish_byRules`, `finish_starting`); whatever comes between, they bring in
nothing but what belongs to the user of the turn (`confined_starting`).
-/

namespace TieredMemory

/-- Work that is done in pieces. -/
inductive Activity where
  | done
  /-- A piece is to be done. -/
  | go (change : Memory → Memory) (next : Memory → Activity)

namespace Activity

/-- Do all pieces one after another. -/
def finish : Activity → Memory → Memory
  | done, m => m
  | go change next, m => (next m).finish (change m)

/-- Do the next piece. -/
def resume : Activity → Memory → Memory × Activity
  | done, m => (m, done)
  | go change next, m => (change m, next m)

/-- Every piece is done in steps that bring in nothing but what belongs to the user. -/
inductive Confined (user : String) : Activity → Prop where
  | done : Confined user done
  | go {change : Memory → Memory} {next : Memory → Activity}
    (hchange : ∀ m, Memory.Reach (.only user) m (change m)) (hnext : ∀ m, Confined user (next m)) :
    Confined user (go change next)

theorem Confined.resume {user : String} {a : Activity} (h : Confined user a) (m : Memory) :
    Memory.Reach (.only user) m (a.resume m).1 ∧ Confined user (a.resume m).2 := by
  cases h with
  | done => exact ⟨.refl _ m, .done⟩
  | go hchange hnext => exact ⟨hchange m, hnext m⟩

theorem Confined.finish {user : String} {a : Activity} (h : Confined user a) (m : Memory) :
    Memory.Reach (.only user) m (a.finish m) := by
  induction h generalizing m with
  | done => exact .refl _ m
  | go hchange hnext ih => exact (hchange m).trans (ih m _)

/-! ### Pieces -/

/-- Change the memory and go on. -/
def doing (change : Memory → Memory) (next : Activity) : Activity := go change fun _ => next

/-- Report a notice. -/
def reporting (n : Notice) (next : Activity) : Activity :=
  doing (fun m => { m with world := m.world.report n }) next

/-- Call the embedder and go on with the embedding. -/
def embedding (user operation text : String) (next : Option Embedding → Activity) : Activity :=
  go (fun m => { m with world := (m.world.embed user operation text).2 })
    fun m => next (m.world.embed user operation text).1

variable {user : String}

theorem Confined.reporting {a : Activity} (n : Notice) (h : Confined user a) :
    Confined user (reporting n a) := .go (fun _ => .step (.world _)) fun _ => h

theorem Confined.embedding {operation text : String} {next : Option Embedding → Activity}
    (h : ∀ e, Confined user (next e)) :
    Confined user (embedding user operation text next) :=
  .go (fun _ => .step (.world _)) fun _ => h _

/-! ### Storing facts -/

/-- Embed facts one after another. -/
def embeddingFacts (user : String) : List Fact → (List Fact → Activity) → Activity
  | [], next => next []
  | f :: r, next =>
    match f.embedding with
    | some _ => embeddingFacts user r fun fs => next (f :: fs)
    | none =>
      embedding user "facts.store" f.text fun e =>
        embeddingFacts user r fun fs => next ({ f with embedding := e } :: fs)

theorem finish_embeddingFacts (fs : List Fact) (next : List Fact → Activity) (m : Memory) :
    (embeddingFacts user fs next).finish m =
      (next (FactStore.embedAll user fs m.world).1).finish
        { m with world := (FactStore.embedAll user fs m.world).2 } := by
  induction fs generalizing next m with
  | nil => rfl
  | cons f r ih =>
    unfold embeddingFacts FactStore.embedAll
    cases f.embedding with
    | some e => exact ih _ m
    | none => exact ih _ _

theorem Confined.embeddingFacts {next : List Fact → Activity} (h : ∀ fs, Confined user (next fs))
    (fs : List Fact) : Confined user (embeddingFacts user fs next) := by
  induction fs generalizing next with
  | nil => exact h []
  | cons f r ih =>
    unfold Activity.embeddingFacts
    cases f.embedding with
    | some e => exact ih fun fs => h _
    | none => exact .embedding fun e => ih fun fs => h _

/-- Store the facts of a turn. -/
def storing (t : Turn) (facts : List Fact) : Activity :=
  if facts.isEmpty then done
  else
    match checkPlace t.user t.conversation with
    | .ok p =>
      embeddingFacts p.user facts fun fs =>
        doing (fun m => { m with facts := (m.facts.insertAll p.user fs).2 }) done
    | .error why => reporting (.enrichmentFailed t.user "extract" (.rejected why)) done

theorem finish_storing (t : Turn) (facts : List Fact) (m : Memory) :
    (storing t facts).finish m = m.storeFacts t facts := by
  unfold storing Memory.storeFacts FactStore.store
  split
  · rfl
  · cases checkPlace t.user t.conversation with
    | error why => rfl
    | ok p => exact finish_embeddingFacts facts _ m

theorem confined_storing (t : Turn) (facts : List Fact) : Confined t.user (storing t facts) := by
  unfold storing
  split
  · exact .done
  · cases hp : checkPlace t.user t.conversation with
    | error why => exact .reporting _ .done
    | ok p =>
      obtain ⟨rfl, -⟩ := checkPlace_inv hp
      exact .embeddingFacts
        (fun fs => .go (fun _ => .step (.storeFacts t.user fs rfl)) fun _ => .done) facts

/-! ### Learning patterns -/

/-- Embed the semantic triggers one after another. -/
def embeddingTriggers (user : String) : List Trigger → (List Trigger → Activity) → Activity
  | [], next => next []
  | t :: r, next =>
    if t.kind = .semantic ∧ t.embedding.isNone then
      embedding user "patterns.store" t.text fun e =>
        embeddingTriggers user r fun ts => next ({ t with embedding := e } :: ts)
    else embeddingTriggers user r fun ts => next (t :: ts)

theorem finish_embeddingTriggers (ts : List Trigger) (next : List Trigger → Activity)
    (m : Memory) :
    (embeddingTriggers user ts next).finish m =
      (next (PatternStore.embedTriggers user ts m.world).1).finish
        { m with world := (PatternStore.embedTriggers user ts m.world).2 } := by
  induction ts generalizing next m with
  | nil => rfl
  | cons t r ih =>
    unfold embeddingTriggers PatternStore.embedTriggers
    split
    · exact ih _ _
    · exact ih _ m

theorem Confined.embeddingTriggers {next : List Trigger → Activity}
    (h : ∀ ts, Confined user (next ts)) (ts : List Trigger) :
    Confined user (embeddingTriggers user ts next) := by
  induction ts generalizing next with
  | nil => exact h []
  | cons t r ih =>
    unfold Activity.embeddingTriggers
    split
    · exact .embedding fun e => ih fun ts => h _
    · exact ih fun ts => h _

/-- Store detected patterns one after another. -/
def learning (user : String) : List Pattern → Activity
  | [] => done
  | p :: r =>
    match PatternStore.check p with
    | .error why => reporting (.patternDiscarded user (.rejected why)) (learning user r)
    | .ok _ =>
      embeddingTriggers p.user p.triggers fun triggers =>
        doing (fun m => { m with patterns := (m.patterns.insert true { p with triggers }).2 })
          (learning user r)

theorem finish_learning (ps : List Pattern) (m : Memory) :
    (learning user ps).finish m = { m with
      patterns := (m.patterns.learn user ps m.world).2.1
      world := (m.patterns.learn user ps m.world).2.2 } := by
  induction ps generalizing m with
  | nil => rfl
  | cons p r ih =>
    unfold learning PatternStore.learn PatternStore.store
    cases PatternStore.check p with
    | error why => exact ih _
    | ok u => exact (finish_embeddingTriggers p.triggers _ m).trans (ih _)

theorem confined_learning {ps : List Pattern} (hps : ∀ p ∈ ps, p.user = user) :
    Confined user (learning user ps) := by
  induction ps with
  | nil => exact .done
  | cons p r ih =>
    obtain ⟨rfl, hr⟩ := List.forall_mem_cons.1 hps
    unfold learning
    cases PatternStore.check p with
    | error why => exact .reporting _ (ih hr)
    | ok u =>
      exact .embeddingTriggers (fun ts => .go
        (fun _ => .step (.storePattern true { p with triggers := ts } rfl)) fun _ => ih hr)
        p.triggers

/-! ### Detecting patterns -/

/-- Make patterns of the confident candidates one after another. -/
def describing (user : String) : List Candidate → (List Pattern → Activity) → Activity
  | [], next => next []
  | c :: r, next =>
    if c.confidence < Candidate.leastConfidence then describing user r next
    else
      embedding user "detect" c.template fun e =>
        go (fun m => { m with world := (Detection.create user c (c.triggers e) m.world).2 })
          fun m => describing user r fun ps =>
            next ((Detection.create user c (c.triggers e) m.world).1 :: ps)

theorem finish_describing (cs : List Candidate) (next : List Pattern → Activity) (m : Memory) :
    (describing user cs next).finish m =
      (next (Detection.ofCandidates user cs m.world).1).finish
        { m with world := (Detection.ofCandidates user cs m.world).2 } := by
  induction cs generalizing next m with
  | nil => rfl
  | cons c r ih =>
    unfold describing Detection.ofCandidates
    split
    · exact ih next m
    · exact ih _ _

theorem Confined.describing {next : List Pattern → Activity}
    (h : ∀ ps, (∀ p ∈ ps, p.user = user) → Confined user (next ps)) (cs : List Candidate) :
    Confined user (describing user cs next) := by
  induction cs generalizing next with
  | nil => exact h [] (by simp)
  | cons c r ih =>
    unfold Activity.describing
    split
    · exact ih h
    · refine .embedding fun e => .go (fun _ => .step (.world _)) fun m => ih fun ps hps => ?_
      exact h _ (List.forall_mem_cons.2 ⟨rfl, hps⟩)

theorem user_byMarkers (user : String) (text : Option String) (w : World) :
    ∀ p ∈ (Detection.byMarkers user text w).1, p.user = user := by
  unfold Detection.byMarkers Detection.byMarker
  split
  · split
    · simp
    · split
      · simp
      · simp [Detection.create]
  · simp

/-- Detect patterns by the marker, after a notice if there is one, and store them. -/
def detecting (t : Turn) (n : Option Notice) : Activity :=
  go (fun m => { m with
      world := (Detection.byMarkers t.user (some t.text) (m.world.reportAny n)).2 })
    fun m => learning t.user (Detection.byMarkers t.user (some t.text) (m.world.reportAny n)).1

theorem confined_detecting (t : Turn) (n : Option Notice) : Confined t.user (detecting t n) :=
  .go (fun _ => .step (.world _)) fun _ => confined_learning (user_byMarkers _ _ _)

/-! ### Enrichments -/

/-- The work on a turn without a completer. -/
def byRules (work : Work) (t : Turn) : Activity :=
  match work with
  | .extract =>
    go (fun m => { m with world := (Extraction.factsByRules t m.world).2 })
      fun m => storing t (Extraction.factsByRules t m.world).1
  | .detect => detecting t none

/-- The work on a turn after the completer has given its answer. -/
def fromOutcome (work : Work) (t : Turn) (outcome : Except Fault Json.Value) : Activity :=
  match work with
  | .extract =>
    go (fun m => { m with world := (Extraction.factsOfOutcome t outcome m.world).2 })
      fun m => storing t (Extraction.factsOfOutcome t outcome m.world).1
  | .detect =>
    match Detection.candidates outcome with
    | .ok cs => describing t.user cs (learning t.user)
    | .error why => detecting t (some (.detectedByRules t.user why))

/-- The work on a turn from its start: it breaks down, or it calls the completer if there is one. -/
def starting (work : Work) (t : Turn) : Activity :=
  go
    (fun m =>
      match m.faultOf? work with
      | some why => { m with world := m.world.report (.enrichmentFailed t.user work.name why) }
      | none =>
        match m.world.complete? (Memory.promptFor work t) with
        | none => m
        | some (_, world) => { m with world })
    fun m =>
      match m.faultOf? work with
      | some _ => done
      | none =>
        match m.world.complete? (Memory.promptFor work t) with
        | none => byRules work t
        | some (reply, _) => fromOutcome work t reply.outcome

theorem finish_byRules (work : Work) (t : Turn) (m : Memory) :
    (byRules work t).finish m = m.enrichByRules work t := by
  cases work with
  | extract =>
    unfold byRules Memory.enrichByRules
    simp only [finish]
    generalize Extraction.factsByRules t m.world = found
    exact finish_storing t found.1 _
  | detect =>
    unfold byRules detecting Memory.enrichByRules PatternStore.learnByMarkers
    simp only [finish, World.reportAny]
    generalize Detection.byMarkers t.user (some t.text) m.world = found
    exact finish_learning found.1 _

theorem finish_fromOutcome (work : Work) (t : Turn) (outcome : Except Fault Json.Value)
    (m : Memory) : (fromOutcome work t outcome).finish m = m.enrichFromOutcome work t outcome := by
  cases work with
  | extract =>
    unfold fromOutcome Memory.enrichFromOutcome
    simp only [finish]
    generalize Extraction.factsOfOutcome t outcome m.world = found
    exact finish_storing t found.1 _
  | detect =>
    unfold fromOutcome Memory.enrichFromOutcome PatternStore.learnFromOutcome Detection.ofOutcome
    cases Detection.candidates outcome with
    | ok cs =>
      simp only [finish_describing]
      generalize Detection.ofCandidates t.user cs m.world = found
      exact finish_learning found.1 _
    | error why =>
      unfold detecting
      simp only [finish, World.reportAny]
      generalize Detection.byMarkers t.user (some t.text) _ = found
      exact finish_learning found.1 _

/-- If the completer answers at once, the work ends where the enrichment does. -/
theorem finish_starting (e : Enrichment) (m : Memory)
    (h : ∀ r ∈ m.world.complete? (Memory.promptFor e.work e.turn), r.1.delay ≤ 0) :
    (starting e.work e.turn).finish m = m.startEnrichment e := by
  unfold starting Memory.startEnrichment
  simp only [finish]
  cases m.faultOf? e.work with
  | some why => rfl
  | none =>
    cases hr : m.world.complete? (Memory.promptFor e.work e.turn) with
    | none => exact finish_byRules e.work e.turn m
    | some r =>
      obtain ⟨reply, world⟩ := r
      have hdelay : reply.delay ≤ 0 := h _ hr
      simp only [hdelay, if_true]
      exact finish_fromOutcome e.work e.turn reply.outcome _

theorem confined_byRules (work : Work) (t : Turn) : Confined t.user (byRules work t) := by
  cases work with
  | extract => exact .go (fun _ => .step (.world _)) fun _ => confined_storing t _
  | detect => exact confined_detecting t none

theorem confined_fromOutcome (work : Work) (t : Turn) (outcome : Except Fault Json.Value) :
    Confined t.user (fromOutcome work t outcome) := by
  cases work with
  | extract => exact .go (fun _ => .step (.world _)) fun _ => confined_storing t _
  | detect =>
    unfold fromOutcome
    cases Detection.candidates outcome with
    | ok cs => exact .describing (fun ps hps => confined_learning hps) cs
    | error why => exact confined_detecting t _

theorem confined_starting (work : Work) (t : Turn) : Confined t.user (starting work t) := by
  refine .go (fun m => ?_) fun m => ?_
  · split
    · exact .step (.world _)
    · split
      · exact .refl _ m
      · exact .step (.world _)
  · split
    · exact .done
    · split
      · exact confined_byRules work t
      · exact confined_fromOutcome work t _

end Activity

end TieredMemory
