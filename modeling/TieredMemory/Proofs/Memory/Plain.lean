import TieredMemory.Proofs.Extraction
import TieredMemory.Proofs.Memory.Calls

/-!
# A memory without completer and embedder

Where there is no one to ask, an enrichment is over as soon as it starts: an extraction stores the
facts that the rules find, and a detection leaves the facts alone (`enrichByRules_extract`,
`beside_detect`). What lies beside the facts can change in many ways: the clock and the notices, the
other tiers, the scheduler's table.
-/

namespace TieredMemory

/-! ### Beside the facts -/

/-- From one world to the other no fact loses its number, and no completer or embedder comes or
goes. -/
structure World.Beside (w w' : World) : Prop where
  completer : w'.completer = w.completer
  embedder : w'.embedder = w.embedder
  facts : w.numbering.facts ≤ w'.numbering.facts

/-- From one memory to the other nothing has happened to the facts, to what waits in the background,
or to the loop of the scheduler. -/
structure Memory.Beside (m m' : Memory) : Prop where
  world : m.world.Beside m'.world
  facts : m'.facts = m.facts
  background : m'.background = m.background
  extractionFault : m'.extractionFault = m.extractionFault
  loop : m'.scheduler.loop = m.scheduler.loop

namespace World.Beside

variable {w w' w'' : World}

theorem refl (w : World) : w.Beside w := ⟨rfl, rfl, Nat.le_refl _⟩

theorem trans (h : w.Beside w') (h' : w'.Beside w'') : w.Beside w'' :=
  ⟨h'.completer.trans h.completer, h'.embedder.trans h.embedder, h.facts.trans h'.facts⟩

theorem report (w : World) (n : Notice) : w.Beside (w.report n) := ⟨rfl, rfl, Nat.le_refl _⟩

theorem rate {text : String} {delay : Duration} {outcome : Except Fault Float}
    (h : w.rate? text = some (delay, outcome, w')) : w.Beside w' := by
  unfold World.rate? at h
  split at h
  · cases h
  · cases h
    exact refl w
  · cases h
    exact ⟨rfl, rfl, Nat.le_refl _⟩

end World.Beside

/-! ### Without an embedder -/

section

variable {w : World}

theorem World.embed_of_none (hw : w.embedder = none) (user operation text : String) :
    w.embed user operation text = (none, w) := by
  unfold embed
  rw [hw]

theorem FactStore.embedAll_of_none (hw : w.embedder = none) (user : String) (fs : List Fact) :
    embedAll user fs w = (fs, w) := by
  induction fs with
  | nil => rfl
  | cons f r ih =>
    rcases f with ⟨id, owner, conversation, key, value, kind, importance, embedding, _, _, _⟩
    cases embedding <;> simp [embedAll, World.embed_of_none hw, ih]

theorem PatternStore.embedTriggers_of_none (hw : w.embedder = none) (user : String)
    (ts : List Trigger) : (embedTriggers user ts w).2 = w := by
  induction ts with
  | nil => rfl
  | cons t r ih =>
    simp only [embedTriggers, World.embed_of_none hw]
    split <;> exact ih

theorem PatternStore.beside_learn (hw : w.embedder = none) (user : String) (ps : List Pattern)
    (s : PatternStore) : w.Beside (s.learn user ps w).2.2 := by
  induction ps generalizing s w with
  | nil => exact .refl w
  | cons p r ih =>
    unfold learn
    cases hstore : s.store p true w with
    | error why =>
      have hw' : (w.report (.patternDiscarded user (.rejected why))).embedder = none := hw
      exact .trans (.report w _) (ih hw' s)
    | ok result =>
      obtain ⟨-, -, hstored⟩ := bind_eq_ok hstore
      cases hstored
      have hsame := embedTriggers_of_none hw p.user p.triggers
      simp only [hsame]
      exact ih hw _

theorem Detection.beside_byMarkers (user : String) (text : Option String) (w : World) :
    w.Beside (byMarkers user text w).2 := by
  unfold byMarkers byMarker
  split
  · split
    · exact .refl w
    · split
      · exact .refl w
      · exact ⟨rfl, rfl, Nat.le_refl _⟩
  · exact .report w _

theorem Extraction.beside_factsByRules (t : Turn) (w : World) :
    w.Beside (factsByRules t w).2 := by
  rw [factsByRules, (factsOf_inv t.user t.conversation (byRules t.text) w).1]
  exact ⟨rfl, rfl, Nat.le_add_right _ _⟩

theorem PatternStore.beside_finishDue (now : Time) (s : PatternStore) (w : World) :
    w.Beside (s.finishDue now w).2 := by
  refine List.foldlRecOn (motive := fun r : PatternStore × World => w.Beside r.2) _ _ (.refl w) ?_
  intro r h c _
  unfold finish
  simp only
  split
  · exact h.trans (.report _ _)
  · exact h

theorem Archive.beside_append {a a' : Archive} {t t' : Turn} {w' : World}
    (hw : w.embedder = none) (h : a.append t w = .ok (t', a', w')) : w.Beside w' := by
  cases a with
  | log a =>
    cases hlog : a.append t w with
    | error why => simp [Archive.append, hlog, Except.map, Except.mapError] at h
    | ok r =>
      simp only [Archive.append, hlog, Except.map, Except.mapError, Except.ok.injEq,
        Prod.mk.injEq] at h
      obtain ⟨-, -, rfl⟩ := h
      obtain ⟨-, -, hlog⟩ := bind_eq_ok hlog
      cases hlog
      simp only [World.embed_of_none hw]
      cases t.embedding <;> exact .refl w
  | table a =>
    cases hrow : a.append t with
    | error why => simp [Archive.append, hrow, Except.map] at h
    | ok r =>
      simp only [Archive.append, hrow, Except.map, Except.ok.injEq, Prod.mk.injEq] at h
      obtain ⟨-, -, rfl⟩ := h
      exact .refl w

end

namespace Memory

variable {m : Memory} {t : Turn} {e : Enrichment}

/-- There is no one to ask for facts, and nothing is done regularly. -/
structure Plain (m : Memory) : Prop where
  completer : m.world.completer = none
  embedder : m.world.embedder = none
  extractionFault : m.extractionFault = none
  loop : m.scheduler.loop = .stopped

theorem Plain.beside {m' : Memory} (h : m.Plain) (hb : m.Beside m') : m'.Plain :=
  ⟨hb.world.completer.trans h.completer, hb.world.embedder.trans h.embedder,
    hb.extractionFault.trans h.extractionFault, hb.loop.trans h.loop⟩

theorem Plain.withBackground (h : m.Plain) (es : List Enrichment) :
    Plain { m with background := es } :=
  ⟨h.completer, h.embedder, h.extractionFault, h.loop⟩

/-! ### Enrichments -/

/-- An enrichment that waits is over as soon as it starts. -/
theorem Plain.advance_eq (h : m.Plain) (he : e.progress = .waiting) :
    m.advance e = m.enrichByRules e.work e.turn := by
  have hfault : m.faultOf? e.work = none := by
    cases e.work
    · simp [faultOf?, h.extractionFault]
    · rfl
  have hnobody : m.world.complete? (promptFor e.work e.turn) = none := by
    simp [World.complete?, h.completer]
  unfold advance startEnrichment
  simp only [he, hfault, hnobody]

/-- An extraction numbers the facts that the rules find, and stores them. -/
theorem enrichByRules_extract (hw : m.world.embedder = none)
    (ht : (checkPlace t.user t.conversation).isOk = true) :
    m.enrichByRules .extract t = { m with
      facts := (m.facts.insertAll t.user (Extraction.factsByRules t m.world).1).2
      world := (Extraction.factsByRules t m.world).2 } := by
  have hw' := (Extraction.beside_factsByRules t m.world).embedder.trans hw
  unfold enrichByRules
  simp only
  generalize Extraction.factsByRules t m.world = found at hw' ⊢
  obtain ⟨fs, w⟩ := found
  cases hplace : checkPlace t.user t.conversation with
  | error why =>
    rw [hplace] at ht
    cases ht
  | ok p =>
    obtain ⟨rfl, -⟩ := checkPlace_inv hplace
    unfold storeFacts
    cases fs with
    | nil => rfl
    | cons f r =>
      have hstore : m.facts.store t.user t.conversation (f :: r) w =
          .ok ((m.facts.insertAll t.user (f :: r)).1, (m.facts.insertAll t.user (f :: r)).2, w) := by
        unfold FactStore.store
        rw [hplace]
        simp only [FactStore.embedAll_of_none hw', bind, Except.bind]
        rfl
      simp only [List.isEmpty_cons, Bool.false_eq_true, if_false, hstore]

/-- A detection leaves the facts alone. -/
theorem beside_detect (hw : m.world.embedder = none) : m.Beside (m.enrichByRules .detect t) := by
  have hmarkers := Detection.beside_byMarkers t.user (some t.text) m.world
  unfold enrichByRules PatternStore.learnByMarkers
  generalize Detection.byMarkers t.user (some t.text) m.world = found at hmarkers ⊢
  obtain ⟨ps, w⟩ := found
  have hlearned := PatternStore.beside_learn (hmarkers.embedder.trans hw) t.user ps m.patterns
  generalize hresult : m.patterns.learn t.user ps w = result at hlearned
  obtain ⟨kept, patterns, w'⟩ := result
  simp only [hresult]
  exact ⟨hmarkers.trans hlearned, rfl, rfl, rfl, rfl⟩

/-- An enrichment without a completer does not look at the background. -/
theorem enrichByRules_background (work : Work) (t : Turn) (m : Memory) (es : List Enrichment) :
    { m with background := es }.enrichByRules work t =
      { m.enrichByRules work t with background := es } := by
  cases work with
  | extract =>
    unfold enrichByRules storeFacts
    simp only
    obtain ⟨fs, w⟩ := Extraction.factsByRules t m.world
    simp only
    split
    · rfl
    · cases m.facts.store t.user t.conversation fs w <;> rfl
  | detect => simp only [enrichByRules]

theorem Plain.advance_background (h : m.Plain) (he : e.progress = .waiting)
    (es : List Enrichment) :
    { m with background := es }.advance e =
      { m.enrichByRules e.work e.turn with background := es } := by
  rw [(h.withBackground es).advance_eq he, enrichByRules_background]

end Memory

end TieredMemory
