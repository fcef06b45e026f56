import TieredMemory.Proofs.Memory.Asking
import TieredMemory.Proofs.Memory.Quiet

/-!
# What a read changes

A read changes what it uses and nothing else. The tiers that the plan asks are changed as by asking
them, the archive not at all; a tier that the plan does not ask stays as it is and adds nothing to
the context (`ReadEffect`). This holds of the asking itself, whatever goes on before and after it,
and at the end of a read during which nothing else runs (`Alone`).

A match may set a consolidation going, and it starts before the read gives back its context. With a
debounce to wait for, it does not run until then. Without one it is over by then, and so it is what
follows the asking (`System.read_effect`). The context holds what the tiers gave, as it was when they
gave it.
-/

namespace TieredMemory

/-- Searching an archive takes no time by itself. -/
theorem Archive.now_search {a : Archive} {user query : String} {limit : Int} {w w' : World}
    {found : List Turn} (h : a.search user query limit w = .ok (found, w')) : w'.now = w.now := by
  cases a with
  | log a =>
    have h := mapError_eq_ok h
    unfold ArchiveLog.search at h
    obtain ⟨-, -, h⟩ := bind_eq_ok h
    obtain ⟨n, -, h⟩ := bind_eq_ok h
    by_cases hnone : (a.ofUser user).isEmpty || n = 0
    · simp only [hnone, if_true] at h
      cases h
      rfl
    · simp only [hnone] at h
      cases h
      exact World.now_embed ..
  | table a =>
    cases hrows : a.search user query limit with
    | error why => simp [search, hrows, Except.map] at h
    | ok r =>
      simp only [search, hrows, Except.map, Except.ok.injEq, Prod.mk.injEq] at h
      rw [← h.2, World.now_reportAny]

namespace Memory

variable {m m' : Memory} {p : Place} {query : String} {plan : Plan} {c : Context}

/-- What a read has done to a memory by the time at which it gives back a context. -/
structure ReadEffect (p : Place) (plan : Plan) (c : Context) (m m' : Memory) : Prop where
  cache : if plan.uses .hotCache then HotCache.Recalled p m.cache m'.cache
    else m'.cache = m.cache ∧ c.recent = []
  facts : if plan.uses .factStore then FactStore.Searched m'.now c.facts m.facts m'.facts
    else m'.facts = m.facts ∧ c.facts = []
  archive : m'.archive = m.archive ∧ (plan.uses .archive = false → c.archived = [])
  patterns : if plan.uses .patternStore then
      PatternStore.Matched m'.now p.user c.pattern m.patterns m'.patterns
    else m'.patterns = m.patterns ∧ c.pattern = none
  /-- Only the state of the conversation at the place may change. -/
  states : ∀ q ≠ p, Keyed.find? ConversationState.place q m'.states =
    Keyed.find? ConversationState.place q m.states
  rest : m' = { m with
    cache := m'.cache, facts := m'.facts, patterns := m'.patterns, states := m'.states
    world := m'.world }

/-! ### Asking the tiers -/

theorem askIf_cases {α : Type} (plan : Plan) (tier : Tier) (none : α)
    (ask : Memory → Except Fault α × Memory) (m : Memory) :
    plan.uses tier = true ∧ m.askIf plan tier none ask = ask m ∨
      plan.uses tier = false ∧ m.askIf plan tier none ask = (.ok none, m) := by
  unfold askIf
  cases plan.uses tier with
  | true => exact .inl ⟨rfl, rfl⟩
  | false => exact .inr ⟨rfl, rfl⟩

theorem askCache_effect {recent : List Turn}
    (h : (.ok recent, m') = m.askIf plan .hotCache [] (askCache p)) :
    ∃ cache, m' = { m with cache } ∧
      if plan.uses .hotCache then HotCache.Recalled p m.cache cache
      else cache = m.cache ∧ recent = [] := by
  rcases askIf_cases plan .hotCache [] (askCache p) m with ⟨huse, hask⟩ | ⟨huse, hask⟩ <;>
    rw [hask] at h <;> simp only [huse, if_true, Bool.false_eq_true, if_false]
  · cases h
    exact ⟨_, rfl, HotCache.recalled_recent m.now p m.recentLimit m.cache⟩
  · cases h
    exact ⟨m.cache, rfl, rfl, rfl⟩

theorem askFacts_effect {found : List Fact}
    (h : (.ok found, m') = m.askIf plan .factStore [] (askFacts p query))
    (hn : (m.facts.facts.map FactStore.address).Nodup) :
    ∃ facts world, m' = { m with facts, world } ∧ world.now = m.now ∧
      if plan.uses .factStore then FactStore.Searched m.now found m.facts facts
      else facts = m.facts ∧ found = [] := by
  rcases askIf_cases plan .factStore [] (askFacts p query) m with ⟨huse, hask⟩ | ⟨huse, hask⟩ <;>
    rw [hask] at h <;> simp only [huse, if_true, Bool.false_eq_true, if_false]
  · unfold askFacts at h
    split at h
    · next found' facts world hsearch =>
      cases h
      refine ⟨facts, world, rfl, ?_⟩
      rcases FactStore.search_inv hsearch with ⟨rfl, rfl, rfl⟩ | ⟨embedding, n, rfl, hfind⟩
      · exact ⟨rfl, .none m.now m.facts⟩
      · have hnow : (m.world.embed p.user "facts.search" query).2.now = m.now := World.now_embed ..
        have hsearched := FactStore.searched_find hn m.now p.user query embedding n
        rw [hnow] at hfind
        rw [← hfind] at hsearched
        exact ⟨hnow, hsearched⟩
    · cases h
  · cases h
    exact ⟨m.facts, m.world, rfl, rfl, rfl, rfl⟩

theorem askArchive_effect {found : List Turn}
    (h : (.ok found, m') = m.askIf plan .archive [] (askArchive p query)) :
    ∃ world, m' = { m with world } ∧ world.now = m.now ∧
      (plan.uses .archive = false → found = []) := by
  rcases askIf_cases plan .archive [] (askArchive p query) m with ⟨huse, hask⟩ | ⟨huse, hask⟩ <;>
    rw [hask] at h
  · unfold askArchive at h
    split at h
    · next found' world hsearch =>
      cases h
      exact ⟨world, rfl, Archive.now_search hsearch, by simp [huse]⟩
    · cases h
  · cases h
    exact ⟨m.world, rfl, rfl, fun _ => rfl⟩

theorem askPatterns_effect {found : Option Pattern}
    (h : (.ok found, m') = m.askIf plan .patternStore none (askPatterns p query))
    (hn : (m.patterns.patterns.map PatternStore.address).Nodup) :
    ∃ patterns world, m' = { m with patterns, world } ∧ world.now = m.now ∧
      if plan.uses .patternStore then
        PatternStore.Matched m.now p.user found m.patterns patterns
      else patterns = m.patterns ∧ found = none := by
  rcases askIf_cases plan .patternStore none (askPatterns p query) m with
    ⟨huse, hask⟩ | ⟨huse, hask⟩ <;>
    rw [hask] at h <;> simp only [huse, if_true, Bool.false_eq_true, if_false]
  · unfold askPatterns at h
    rcases PatternStore.matchQuery_inv p.user query m.patterns m.world with
      ⟨why, hmatch⟩ | ⟨embedding, w, hnow, hmatch⟩ <;> rw [hmatch] at h
    · cases h
    · have hnow : w.now = m.now := hnow
      simp only [hnow, Prod.mk.injEq] at h
      obtain ⟨hfound, rfl⟩ := h
      exact ⟨_, w, rfl, hnow, PatternStore.matched_apply hn hfound.symm⟩
  · cases h
    exact ⟨m.patterns, m.world, rfl, rfl, rfl, rfl⟩

/-- What is given back is what the tiers gave, one after another. -/
theorem ask_eq_ok (h : (m.ask p query plan).1 = .ok c) :
    ∃ m₁ m₂ m₃, (.ok c.recent, m₁) = m.askIf plan .hotCache [] (askCache p) ∧
      (.ok c.facts, m₂) = m₁.askIf plan .factStore [] (askFacts p query) ∧
      (.ok c.archived, m₃) = m₂.askIf plan .archive [] (askArchive p query) ∧
      (.ok c.pattern, (m.ask p query plan).2) =
        m₃.askIf plan .patternStore none (askPatterns p query) := by
  obtain ⟨cached, known, archived, applied, hcached, hknown, harchived, happlied, hask⟩ :=
    ask_inv p query plan m
  rw [hask] at h ⊢
  obtain ⟨pattern, hpattern, h⟩ := bind_eq_ok h
  obtain ⟨recent, hrecent, h⟩ := bind_eq_ok h
  obtain ⟨facts, hfacts, h⟩ := bind_eq_ok h
  obtain ⟨found, hfound, h⟩ := bind_eq_ok h
  cases h
  exact ⟨cached.2, known.2, archived.2, hcached ▸ Prod.ext hrecent.symm rfl,
    hknown ▸ Prod.ext hfacts.symm rfl, harchived ▸ Prod.ext hfound.symm rfl,
    happlied ▸ Prod.ext hpattern.symm rfl⟩

/-- Each tier is as it was until its turn comes. -/
theorem ask_effect (hm : m.Addressed) (h : (m.ask p query plan).1 = .ok c) :
    ReadEffect p plan c m (m.ask p query plan).2 ∧ (m.ask p query plan).2.now = m.now := by
  obtain ⟨m₁, m₂, m₃, hcached, hknown, harchived, happlied⟩ := ask_eq_ok h
  generalize (m.ask p query plan).2 = m' at happlied ⊢
  obtain ⟨cache, rfl, hrecalled⟩ := askCache_effect hcached
  obtain ⟨facts, world, rfl, hnow, hsearched⟩ := askFacts_effect hknown hm.facts
  obtain ⟨world', rfl, hnow', hunasked⟩ := askArchive_effect harchived
  obtain ⟨patterns, world'', rfl, hnow'', hmatched⟩ := askPatterns_effect happlied hm.patterns
  have hlater : world'.now = m.now := hnow'.trans hnow
  have hend : world''.now = m.now := hnow''.trans hlater
  refine ⟨⟨hrecalled, ?_, ⟨rfl, hunasked⟩, ?_, fun _ _ => rfl, rfl⟩, hend⟩
  · have hsearched : if plan.uses .factStore then
        FactStore.Searched m.now c.facts m.facts facts
      else facts = m.facts ∧ c.facts = [] := hsearched
    rw [← hend] at hsearched
    exact hsearched
  · have hmatched : if plan.uses .patternStore then
        PatternStore.Matched world'.now p.user c.pattern m.patterns patterns
      else patterns = m.patterns ∧ c.pattern = none := hmatched
    rw [hlater, ← hend] at hmatched
    exact hmatched

/-! ### A read in the quiet -/

/-- When the plan of a query is there. -/
def planReady (query : String) (m : Memory) : Time :=
  m.now + max (Planner.consult query m.world).1.delay 0

theorem now_consult (query : String) (w : World) : (Planner.consult query w).2.now = w.now := by
  unfold Planner.consult
  split
  · rfl
  · split
    · rfl
    · next h => exact World.now_classify? h

/-- In the quiet nothing but the world changes while the plan is made. -/
theorem planFor_of_quiet (h : m.QuietUntil (m.planReady query)) :
    ∃ world, (m.planFor query).2 = { m with world } ∧ world.now = m.planReady query := by
  have hnow := now_consult query m.world
  unfold planReady at h ⊢
  unfold planFor
  generalize Planner.consult query m.world = asked at h hnow ⊢
  have hasked : Memory.now { m with world := asked.2 } = m.now := hnow
  have hquiet : Memory.QuietUntil
      (Memory.now { m with world := asked.2 } + max asked.1.delay 0)
      { m with world := asked.2 } := by
    rw [hasked]
    exact h.congr rfl rfl rfl hasked
  simp only [awaitReply_of_quiet hquiet]
  refine ⟨_, rfl, ?_⟩
  rw [World.now_reportAny, ← hasked]
  rfl

/-- When the plan is there, the quiet goes on. -/
theorem quiet_planFor (h : m.QuietUntil (m.planReady query)) :
    ∃ world, (m.planFor query).2 = { m with world } ∧
      Memory.QuietUntil (Memory.now { m with world }) { m with world } := by
  obtain ⟨world, hworld, hnow⟩ := planFor_of_quiet h
  have hlater : m.now ≤ m.planReady query := Int.le_add_of_nonneg_right (Int.le_max_right _ _)
  refine ⟨world, hworld, ?_⟩
  rw [show Memory.now { m with world } = m.planReady query from hnow]
  exact (h.atTime hlater (m.planReady query)).congr rfl rfl rfl hnow

/-- Whatever a read has set going, it leaves nothing that is due. -/
theorem ReadEffect.idle {m' : Memory} (h : ReadEffect p plan c m m') (hidle : m.Idle)
    (hnow : m'.now = m.now) : m'.Idle := by
  have hlater : ∀ t ∈ m'.patterns.wakeTimes, t ∈ m.patterns.wakeTimes ∨ m'.now < t := by
    intro t ht
    have hpatterns := h.patterns
    split at hpatterns
    · obtain ⟨guards, guardCount, scheduled, hscheduled, hs⟩ := hpatterns.rest
      rw [hs] at ht
      obtain ⟨a, ha, hwake⟩ := List.mem_filterMap.1 ht
      rcases List.mem_append.1 ha with ha | ha
      · exact .inl (List.mem_filterMap.2 ⟨a, ha, hwake⟩)
      · exact .inr ((hscheduled a (Option.mem_toList.1 ha)).2 t hwake)
    · exact .inl (hpatterns.1 ▸ ht)
  have hbackground : m'.background = m.background := by rw [h.rest]
  have hscheduler : m'.scheduler = m.scheduler := by rw [h.rest]
  intro t ht
  unfold wakeTimes at ht
  rw [hbackground, hscheduler, hnow] at ht
  rcases List.mem_append.1 ht with ht | ht
  · rcases List.mem_append.1 ht with ht | ht
    · exact hnow ▸ hidle t (List.mem_append_left _ (List.mem_append_left _ ht))
    · rcases hlater t ht with ht | ht
      · exact hnow ▸ hidle t (List.mem_append_left _ (List.mem_append_right _ ht))
      · exact ht
  · exact hnow ▸ hidle t (List.mem_append_right _ ht)

/-- A consolidation that has been set going may start, where it has a debounce to wait for. -/
theorem ReadEffect.begun (h : ReadEffect p plan c m m')
    (hstarted : ∀ a ∈ m.patterns.background, a.wakeAt.isSome) (hdebounced : m'.Debounced) :
    ReadEffect p plan c m m'.begun := by
  refine ⟨h.cache, h.facts, h.archive, ?_, h.states, ?_⟩
  · have hpatterns := h.patterns
    split at hpatterns
    · next huse =>
      rw [if_pos huse]
      exact hpatterns.startAll hstarted hdebounced
    · next huse =>
      have hsame : m'.begun.patterns = m'.patterns :=
        PatternStore.startAll_of_started (hpatterns.1.symm ▸ hstarted)
      rw [if_neg huse, hsame]
      exact hpatterns
  · exact congrArg (fun m => { m with patterns := m'.patterns.startAll m'.now }) h.rest

theorem find?_changeState {q : Place} (hq : q ≠ p) (f : ConversationState → ConversationState)
    (hf : ∀ s, (f s).place = s.place) (m : Memory) :
    Keyed.find? ConversationState.place q (m.changeState p f).states =
      Keyed.find? ConversationState.place q m.states := by
  have hplace : (f (m.stateAt p)).place = p := (hf _).trans (place_stateAt p m)
  unfold changeState
  simp only
  rw [Keyed.find?_put, hplace, if_neg (Ne.symm hq)]

/-- In the quiet, asking is followed by the consolidations and nothing else. -/
theorem amid_ask_effect (hm : m.Addressed) (hquiet : m.QuietUntil m.now)
    (h : (m.amid (ask p query plan)).1 = .ok c) :
    ReadEffect p plan c m (m.ask p query plan).2 ∧ (m.ask p query plan).2.Idle ∧
      (m.amid (ask p query plan)).2 = (m.ask p query plan).2.consolidateDue := by
  rw [hquiet.amid (Int.le_refl _)] at h ⊢
  obtain ⟨heffect, hsame⟩ := ask_effect hm h
  have hidle := heffect.idle (hquiet.idle (Int.le_refl _)) hsame
  exact ⟨heffect, hidle, afterParts_of_idle hidle⟩

/-- The memory when a read has asked the tiers of its plan. -/
def asked (p : Place) (query : String) (m : Memory) : Memory :=
  let noted := m.changeState p fun s => { s with lastQueryAt := m.now }
  ((noted.planFor query).2.ask p query (noted.planFor query).1).2

/-- No other task runs in the course of a read: the background has nothing to do until the plan is
there, and a consolidation that the read sets going has a debounce to wait for. -/
structure Alone (p : Place) (query : String) (m : Memory) : Prop where
  quiet : m.QuietUntil (m.planReady query)
  debounced : (m.asked p query).Debounced

/-- The state of its conversation apart, a read is a plan and what follows it. -/
theorem read_of_checked {user conversation : String}
    (hp : checkRead user conversation query = .ok p) (m : Memory) :
    ∃ noted : Memory,
      noted = m.changeState p (fun s => { s with lastQueryAt := m.now }) ∧
      m.read user conversation query =
        (((noted.planFor query).2.amid (ask p query (noted.planFor query).1)).1.map fun c =>
          ((noted.planFor query).1, c),
        ((noted.planFor query).2.amid (ask p query (noted.planFor query).1)).2) := by
  refine ⟨_, rfl, ?_⟩
  unfold read
  rw [hp]

/-- Noting when a query came does not touch the tiers. -/
theorem ReadEffect.of_changeState {noted : Memory} {f : ConversationState → ConversationState}
    {world : World} (h : ReadEffect p plan c { noted with world } m')
    (hnoted : noted = m.changeState p f) (hf : ∀ s, (f s).place = s.place) :
    ReadEffect p plan c m m' := by
  subst hnoted
  exact ⟨h.cache, h.facts, h.archive, h.patterns,
    fun q hq => (h.states q hq).trans (find?_changeState hq f hf m), h.rest⟩

theorem read_effect_of_quiet (hm : m.Addressed) {user conversation : String}
    (hquiet : m.QuietUntil (m.planReady query))
    (h : (m.read user conversation query).1 = .ok (plan, c)) :
    ReadEffect ⟨user, conversation⟩ plan c m (m.asked ⟨user, conversation⟩ query) ∧
      (m.asked ⟨user, conversation⟩ query).Idle ∧
      (m.read user conversation query).2 =
        (m.asked ⟨user, conversation⟩ query).consolidateDue := by
  cases hp : checkRead user conversation query with
  | error why =>
    unfold read at h
    rw [hp] at h
    cases h
  | ok p =>
    obtain ⟨rfl, -⟩ := checkRead_inv hp
    obtain ⟨noted, hnoted, hread⟩ := read_of_checked hp m
    have hwaits : noted.QuietUntil (noted.planReady query) := by
      rw [hnoted]
      exact hquiet.congr rfl rfl rfl rfl
    obtain ⟨world, hworld, hplanned⟩ := quiet_planFor hwaits
    have haddressed : Memory.Addressed { noted with world } := by
      rw [hnoted]
      exact ⟨hm.facts, hm.patterns⟩
    have hasked : m.asked ⟨user, conversation⟩ query =
        ((noted.planFor query).2.ask ⟨user, conversation⟩ query (noted.planFor query).1).2 := by
      rw [hnoted, asked]
    rw [hread] at h ⊢
    dsimp only at h ⊢
    obtain ⟨c', hanswer, hplan⟩ := map_eq_ok h
    obtain ⟨rfl, rfl⟩ := Prod.mk.inj hplan
    rw [hasked]
    rw [hworld] at hanswer ⊢
    obtain ⟨heffect, hidle, hrest⟩ := amid_ask_effect haddressed hplanned hanswer
    exact ⟨heffect.of_changeState hnoted fun _ => rfl, hidle, hrest⟩

theorem read_effect_of_alone (hm : m.Addressed) {user conversation : String}
    (halone : m.Alone ⟨user, conversation⟩ query)
    (h : (m.read user conversation query).1 = .ok (plan, c)) :
    ReadEffect ⟨user, conversation⟩ plan c m (m.read user conversation query).2 := by
  obtain ⟨heffect, hidle, hrest⟩ := read_effect_of_quiet hm halone.quiet h
  rw [hrest, consolidateDue_of_idle (hidle.begun halone.debounced)]
  exact heffect.begun halone.quiet.started halone.debounced

end Memory

namespace System

/-- **A read changes what it uses and nothing else**, in every system that a run leads to, if no other
task runs until it gives back a context. If nothing else is under way, but a consolidation that it
sets going has no debounce to wait for, then the read is followed by that consolidation. And whatever
goes on before the tiers are asked and after it, asking them changes just as much. -/
theorem read_effect {s : System} (hs : s.Reachable) (p : Place) (query : String) :
    (s.memory.Alone p query →
      ∀ plan c, (s.memory.read p.user p.conversation query).1 = .ok (plan, c) →
        Memory.ReadEffect p plan c s.memory (s.memory.read p.user p.conversation query).2) ∧
    (s.memory.QuietUntil (s.memory.planReady query) →
      ∀ plan c, (s.memory.read p.user p.conversation query).1 = .ok (plan, c) →
        Memory.ReadEffect p plan c s.memory (s.memory.asked p query) ∧
          (s.memory.read p.user p.conversation query).2 =
            (s.memory.asked p query).consolidateDue) ∧
    ∀ m, s.memory.Reach .free m → ∀ plan c, (m.ask p query plan).1 = .ok c →
      Memory.ReadEffect p plan c m (m.ask p query plan).2 := by
  have haddressed := hs.memory.addressed
  refine ⟨fun halone plan c h => ?_, fun hquiet plan c h => ?_, fun m hm plan c h => ?_⟩
  · exact Memory.read_effect_of_alone haddressed halone h
  · obtain ⟨heffect, -, hrest⟩ := Memory.read_effect_of_quiet haddressed hquiet h
    exact ⟨heffect, hrest⟩
  · exact (Memory.ask_effect (hm.addressed haddressed) h).1

/-- What a user likes. -/
def liking : Fact where
  id := "f1"
  user := "u1"
  conversation := "c1"
  key := "tea"
  value := "green"
  kind := .preference
  importance := 0.5
  embedding := none
  lastAccessed := 0
  accessCount := 1
  createdAt := 0

/-- What to do when a user asks for it. -/
def brewing : Pattern where
  id := "p1"
  user := "u1"
  name := "tea"
  description := ""
  triggers := [⟨.keyword, "tea", none⟩]
  template := "Brew it."
  threshold := 0.7
  usage := 0
  createdAt := 0
  lastUsed := 0

/-- A memory in which every match sets a consolidation going. -/
def eager : Memory := { patterns := { consolidationEvery := 1 } }

/-- A turn has been written. -/
def served : Memory := Call.after eager (.write "u1" "c1" (remark "u1" "t1" "Tea?"))

/-- A fact and a pattern have come in besides. -/
def acquainted : System where
  memory := { served with
    facts := (served.facts.insertAll "u1" [liking]).2
    patterns := (served.patterns.insert true brewing).2 }

theorem reachable_acquainted : acquainted.Reachable := by
  have hnew : eager.IsNew := ⟨rfl, rfl, rfl, rfl, ⟨_, rfl, rfl⟩, rfl, rfl, rfl, rfl⟩
  have heager : eager.Reachable := ⟨eager, hnew, .refl _ _⟩
  have hserved : served.Reachable := heager.after _
  have hfacts := hserved.trans (.step (.storeFacts "u1" [liking] trivial))
  exact (hfacts.trans (.step (.storePattern true brewing trivial))).system

theorem alone_acquainted : acquainted.memory.Alone ⟨"u1", "c1"⟩ "tea" := by
  have hnone : acquainted.memory.patterns.background.length = 0 := by decide +kernel
  have htimes : acquainted.memory.wakeTimes = [] := by decide +kernel
  refine ⟨⟨?_, ?_⟩, fun _ => by decide +kernel⟩
  · rw [List.length_eq_zero_iff.1 hnone]
    simp
  · rw [htimes]
    simp

/-- All tiers are asked and have something for the query: the turn, and a fact and a pattern that
have been used once more. The match has set a consolidation going, which is still to do its work. -/
theorem read_acquainted :
    acquainted.Reachable ∧ acquainted.memory.Alone ⟨"u1", "c1"⟩ "tea" ∧
      (acquainted.memory.read "u1" "c1" "tea").2.patterns.background.length = 1 ∧
      ∃ plan c, (acquainted.memory.read "u1" "c1" "tea").1 = .ok (plan, c) ∧
        plan.intent = .complex ∧ c.recent.map Turn.id = ["t1"] ∧
        c.facts.map Fact.accessCount = [2] ∧ c.archived.map Turn.id = ["t1"] ∧
        c.pattern.map Pattern.usage = some 1 ∧
        Memory.ReadEffect ⟨"u1", "c1"⟩ plan c acquainted.memory
          (acquainted.memory.read "u1" "c1" "tea").2 := by
  have hgoing : (acquainted.memory.read "u1" "c1" "tea").2.patterns.background.length = 1 := by
    decide +kernel
  have hshown : ((acquainted.memory.read "u1" "c1" "tea").1.toOption.map fun r =>
      (r.1.intent, r.2.recent.map Turn.id, r.2.facts.map Fact.accessCount,
        r.2.archived.map Turn.id, r.2.pattern.map Pattern.usage)) =
      some (.complex, ["t1"], [2], ["t1"], some 1) := by decide +kernel
  obtain ⟨⟨plan, c⟩, hread, hparts⟩ := Option.map_eq_some_iff.1 hshown
  have hread := eq_ok_of_toOption hread
  obtain ⟨heffect, -⟩ := read_effect reachable_acquainted ⟨"u1", "c1"⟩ "tea"
  simp only [Prod.mk.injEq] at hparts
  obtain ⟨hintent, hrecent, hfacts, harchived, hpattern⟩ := hparts
  exact ⟨reachable_acquainted, alone_acquainted, hgoing, plan, c, hread, hintent, hrecent, hfacts,
    harchived, hpattern, heffect alone_acquainted plan c hread⟩

end System

end TieredMemory
