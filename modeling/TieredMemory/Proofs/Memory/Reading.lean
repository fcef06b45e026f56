import TieredMemory.Proofs.Memory.System

/-!
# What a read finds

A read asks one tier after another, and others may go on meanwhile. So what it returns is found tier
by tier, each time in a memory that the one before has come to (`Finds`, `read_finds`). Every turn
is cached at its own place, every other tier looks only at what belongs to the user, and no step
changes that: whatever a read finds belongs to the one who reads, however turns, facts and patterns
have come into the memory (`read_finds_own`).
-/

namespace TieredMemory

/-! ### What the tiers find -/

theorem FactStore.user_of_mem_find {now : Time} {user query : String}
    {embedding : Option Embedding} {n : Nat} {s : FactStore} {f : Fact}
    (h : f ∈ (s.find now user query embedding n).1) : f.user = user := by
  obtain ⟨g, hg, rfl⟩ := List.mem_map.1 h
  obtain ⟨⟨likeness, g⟩, hscored, rfl⟩ := List.mem_map.1 (List.mem_of_mem_take hg)
  have hscored := (List.mem_filter.1 (List.mem_mergeSort.1 hscored)).1
  obtain ⟨f, hf, hfg⟩ := List.mem_map.1 hscored
  cases hfg
  change g.user = user
  simpa using (List.mem_filter.1 hf).2

/-- A search of a log finds no turn, or the best of those that are like the query. -/
theorem ArchiveLog.search_inv {a : ArchiveLog} {user query : String} {limit : Int} {w w' : World}
    {found : List Turn} (h : a.search user query limit w = .ok (found, w')) :
    found = [] ∨ ∃ embedding n, found = (a.matching user query embedding).take n := by
  obtain ⟨-, -, h⟩ := bind_eq_ok h
  obtain ⟨n, -, h⟩ := bind_eq_ok h
  by_cases hnone : (a.ofUser user).isEmpty || n = 0
  · simp only [hnone, if_true] at h
    cases h
    exact .inl rfl
  · simp only [hnone] at h
    cases h
    exact .inr ⟨_, n, rfl⟩

theorem ArchiveLog.mem_of_mem_matching {a : ArchiveLog} {user query : String}
    {embedding : Option Embedding} {t : Turn} (h : t ∈ a.matching user query embedding) :
    t ∈ a.turns ∧ t.user = user := by
  have h := (List.mem_filter.1 (List.mem_mergeSort.1 h)).1
  exact ⟨(List.mem_filter.1 h).1, by simpa using (List.mem_filter.1 h).2⟩

theorem PatternStore.user_of_apply {now : Time} {user query : String}
    {embedding : Option Embedding} {s : PatternStore} {p : Pattern}
    (h : (s.apply now user query embedding).1 = .ok (some p)) : p.user = user := by
  rcases apply_inv now user query embedding s with ⟨hnone | hlarge, -⟩ | ⟨q, hq, -, hanswer⟩
  · rw [hnone] at h
    cases h
  · rw [hlarge] at h
    cases h
  · rw [hanswer] at h
    rcases recordMatch_inv now q s with ⟨-, hused⟩ | ⟨-, _, _, _, -, hused⟩
    · rw [hused] at h
      cases h
    · rw [hused] at h
      have huser := user_of_mem_ofUser user s hq
      cases h
      exact huser

/-- What a context holds belongs to a user, and its recent turns are of one conversation. -/
structure Context.BelongsTo (p : Place) (c : Context) : Prop where
  recent : ∀ t ∈ c.recent, t.user = p.user ∧ t.conversation = p.conversation
  facts : ∀ f ∈ c.facts, f.user = p.user
  archived : ∀ t ∈ c.archived, t.user = p.user
  pattern : ∀ q ∈ c.pattern, q.user = p.user

namespace Memory

variable {L : Licence} {m m' : Memory} {p : Place} {query : String}

/-! ### What a read finds -/

/-- What may be found for a query at a place from now on: in each tier nothing, or what the tier
answers in a memory that this one has come to. -/
structure Finds (L : Licence) (p : Place) (query : String) (m : Memory) (c : Context) : Prop where
  recent : c.recent = [] ∨ ∃ m' now n, Reach L m m' ∧ c.recent = (m'.cache.recent now p n).1
  facts : c.facts = [] ∨ ∃ m' now embedding n, Reach L m m' ∧
    c.facts = (m'.facts.find now p.user query embedding n).1
  archived : c.archived = [] ∨ ∃ m' a embedding n, Reach L m m' ∧ m'.archive = .log a ∧
    c.archived = (a.matching p.user query embedding).take n
  pattern : c.pattern = none ∨ ∃ m' now embedding, Reach L m m' ∧
    (m'.patterns.apply now p.user query embedding).1 = .ok c.pattern

/-- What is found later may be found. -/
theorem Finds.of_reach {c : Context} (hr : Reach L m m') (h : Finds L p query m' c) :
    Finds L p query m c where
  recent := h.recent.imp_right fun ⟨m'', now, n, hr', hc⟩ => ⟨m'', now, n, hr.trans hr', hc⟩
  facts := h.facts.imp_right fun ⟨m'', now, e, n, hr', hc⟩ => ⟨m'', now, e, n, hr.trans hr', hc⟩
  archived := h.archived.imp_right fun ⟨m'', a, e, n, hr', hc⟩ => ⟨m'', a, e, n, hr.trans hr', hc⟩
  pattern := h.pattern.imp_right fun ⟨m'', now, e, hr', hc⟩ => ⟨m'', now, e, hr.trans hr', hc⟩

theorem askIf_eq_ok {α : Type} {plan : Plan} {tier : Tier} {none a : α}
    {ask : Memory → Except Fault α × Memory} (h : (m.askIf plan tier none ask).1 = .ok a) :
    a = none ∨ (ask m).1 = .ok a := by
  unfold askIf at h
  split at h
  · exact .inr h
  · cases h
    exact .inl rfl

theorem askFacts_inv {found : List Fact} (h : (m.askFacts p query).1 = .ok found) :
    found = [] ∨ ∃ now embedding n, found = (m.facts.find now p.user query embedding n).1 := by
  unfold askFacts at h
  split at h
  · next hsearch =>
    cases h
    refine (FactStore.search_inv hsearch).imp And.left ?_
    rintro ⟨embedding, n, -, hfind⟩
    exact ⟨_, embedding, n, congrArg Prod.fst hfind⟩
  · cases h

theorem askArchive_inv {a : ArchiveLog} (ha : m.archive = .log a) {found : List Turn}
    (h : (m.askArchive p query).1 = .ok found) :
    found = [] ∨ ∃ embedding n, found = (a.matching p.user query embedding).take n := by
  unfold askArchive at h
  rw [ha] at h
  cases hsearch : a.search p.user query m.archiveLimit m.world with
  | error why => simp [Archive.search, hsearch, Except.mapError] at h
  | ok r =>
    simp only [Archive.search, hsearch, Except.mapError, Except.ok.injEq] at h
    subst h
    exact ArchiveLog.search_inv hsearch

/-- A match finds nothing, or what applies in the store as it is. -/
theorem askPatterns_inv {found : Option Pattern} (h : (m.askPatterns p query).1 = .ok found) :
    ∃ now embedding, (m.patterns.apply now p.user query embedding).1 = .ok found := by
  unfold askPatterns at h
  rcases PatternStore.matchQuery_inv p.user query m.patterns m.world with
    ⟨why, hmatch⟩ | ⟨embedding, w, -, hmatch⟩ <;> rw [hmatch] at h
  · cases h
  · exact ⟨w.now, embedding, h⟩

theorem ask_finds (hm : m.Sound) {plan : Plan} {c : Context}
    (h : (m.ask p query plan).1 = .ok c) : Finds L p query m c := by
  obtain ⟨cached, known, archived, applied, hcached, hknown, harchived, happlied, hask⟩ :=
    ask_inv p query plan m
  rw [hask] at h
  obtain ⟨pattern, hpattern, h⟩ := bind_eq_ok h
  obtain ⟨recent, hrecent, h⟩ := bind_eq_ok h
  obtain ⟨facts, hfacts, h⟩ := bind_eq_ok h
  obtain ⟨found, hfound, h⟩ := bind_eq_ok h
  cases h
  -- the memories in which the four tiers are asked
  have hcache : Reach L m cached.2 := by
    rw [hcached]
    exact reach_askIf plan .hotCache (reach_askCache p)
  have hstore : Reach L m known.2 := by
    rw [hknown]
    exact hcache.trans (reach_askIf plan .factStore (reach_askFacts p query))
  have hlog : Reach L m archived.2 := by
    rw [harchived]
    exact hstore.trans (reach_askIf plan .archive (reach_askArchive p query))
  rw [hcached] at hrecent
  rw [hknown] at hfacts
  rw [harchived] at hfound
  rw [happlied] at hpattern
  obtain ⟨a, ha⟩ := (hstore.sound hm).log
  constructor
  · refine (askIf_eq_ok hrecent).imp_right fun hrecent => ?_
    cases hrecent
    exact ⟨m, m.now, m.recentLimit, .refl L m, rfl⟩
  · rcases askIf_eq_ok hfacts with hnone | hfacts
    · exact .inl hnone
    · refine (askFacts_inv hfacts).imp_right fun ⟨now, embedding, n, hfacts⟩ => ?_
      exact ⟨cached.2, now, embedding, n, hcache, hfacts⟩
  · rcases askIf_eq_ok hfound with hnone | hfound
    · exact .inl hnone
    · refine (askArchive_inv ha hfound).imp_right fun ⟨embedding, n, hfound⟩ => ?_
      exact ⟨known.2, a, embedding, n, hstore, ha, hfound⟩
  · refine (askIf_eq_ok hpattern).imp_right fun hpattern => ?_
    obtain ⟨now, embedding, hpattern⟩ := askPatterns_inv hpattern
    exact ⟨archived.2, now, embedding, hlog, hpattern⟩

/-- A call that reads finds what it returns while it goes on. -/
theorem read_finds (hm : m.Sound) (hq : Queued L m) {user conversation : String}
    (hu : L.user user) {plan : Plan} {c : Context}
    (h : (m.read user conversation query).1 = .ok (plan, c)) :
    Finds L ⟨user, conversation⟩ query m c := by
  unfold read at h
  split at h
  · cases h
  next p hp =>
  obtain ⟨rfl, -⟩ := checkRead_inv hp
  have hnoted : Reach L m (m.changeState ⟨user, conversation⟩ fun s =>
      { s with lastQueryAt := m.now }) := .step (.note _ _ (fun _ => rfl) hu)
  have hplanned := hnoted.trans (reach_planFor (hnoted.queued hq) query)
  dsimp only at h
  generalize planFor query _ = planned at h hplanned
  obtain ⟨plan', m₁⟩ := planned
  have hbegun := hplanned.trans (reach_beforeParts (m := m₁))
  cases hasked : (m₁.beforeParts.2.ask ⟨user, conversation⟩ query plan').1 with
  | error why =>
    have : (m₁.amid (ask ⟨user, conversation⟩ query plan')).1 = .error why := hasked
    simp [this, Except.map] at h
  | ok c' =>
    have : (m₁.amid (ask ⟨user, conversation⟩ query plan')).1 = .ok c' := hasked
    simp only [this, Except.map, Except.ok.injEq, Prod.mk.injEq] at h
    obtain ⟨-, rfl⟩ := h
    exact (ask_finds (hbegun.sound hm) hasked).of_reach hbegun

/-! ### Whose it is -/

/-- Every cached turn is at its own place. -/
def Homed (m : Memory) : Prop := ∀ p, ∀ t ∈ m.cache.turnsAt p, t.place = p

theorem Step.homed (hs : Step L m m') (hm : m.Sound) (h : m.Homed) : m'.Homed := by
  obtain ⟨a, ha⟩ := hm.log
  obtain ⟨-, a', -, hturns⟩ := hs.turns_inv hm.cache ha
  intro q x hx
  rcases hturns with ⟨hcached, -⟩ | ⟨p, t, -, hplace, -, hcells⟩
  · exact h q x (hcached q hx)
  · rcases hcells q x hx with ⟨rfl, rfl⟩ | ⟨hx, -⟩
    · exact hplace
    · exact h q x hx

theorem Reach.homed (hr : Reach L m m') (hm : m.Sound) (h : m.Homed) : m'.Homed := by
  induction hr with
  | refl => exact h
  | tail hr hs ih => exact hs.homed (Reach.sound hr hm) ih

theorem IsNew.turnsAt_eq_nil (h : m.IsNew) (p : Place) : m.cache.turnsAt p = [] := by
  simp [HotCache.turnsAt, HotCache.bucket?, Keyed.find?, h.buckets]

theorem Reachable.homed (h : m.Reachable) : m.Homed := by
  obtain ⟨m₀, hnew, hr⟩ := h
  refine hr.homed hnew.sound fun p t ht => ?_
  rw [hnew.turnsAt_eq_nil] at ht
  cases ht

theorem Reachable.trans (h : m.Reachable) (hr : Reach .free m m') : m'.Reachable := by
  obtain ⟨m₀, hnew, hr₀⟩ := h
  exact ⟨m₀, hnew, hr₀.trans hr⟩

/-- Every call leads from a reachable memory to a reachable one. -/
theorem Reachable.after (h : m.Reachable) (c : Call) : (c.after m).Reachable :=
  h.trans c.reach_free

theorem Reachable.afterAll (h : m.Reachable) (cs : List Call) :
    (cs.foldl Call.after m).Reachable :=
  h.trans (Call.reach_all cs)

theorem isNew_empty : Memory.IsNew {} :=
  ⟨rfl, rfl, rfl, rfl, ⟨_, rfl, rfl⟩, rfl, rfl, rfl, rfl⟩

theorem reachable_empty : Memory.Reachable {} := ⟨{}, isNew_empty, .refl _ _⟩

/-- What is found in a memory that is reachable, or meanwhile in one that it comes to, belongs to
the place. -/
theorem Finds.belongsTo (hm : m.Reachable) {c : Context} (h : Finds .free p query m c) :
    c.BelongsTo p where
  recent := by
    rcases h.recent with hnone | ⟨m', now, n, hr, hc⟩
    · simp [hnone]
    · rw [hc]
      intro t ht
      have hplace := (hm.trans hr).homed p t (HotCache.mem_turnsAt_of_recent ht)
      exact ⟨congrArg Place.user hplace, congrArg Place.conversation hplace⟩
  facts := by
    rcases h.facts with hnone | ⟨m', now, embedding, n, -, hc⟩
    · simp [hnone]
    · rw [hc]
      exact fun f hf => FactStore.user_of_mem_find hf
  archived := by
    rcases h.archived with hnone | ⟨m', a, embedding, n, -, -, hc⟩
    · simp [hnone]
    · rw [hc]
      exact fun t ht => (ArchiveLog.mem_of_mem_matching (List.mem_of_mem_take ht)).2
  pattern := by
    rcases h.pattern with hnone | ⟨m', now, embedding, -, hc⟩
    · simp [hnone]
    · intro q hq
      rw [hq] at hc
      exact PatternStore.user_of_apply hc

end Memory

/-- A reachable memory without tasks is a reachable system. -/
theorem Memory.Reachable.system {m : Memory} (h : m.Reachable) : System.Reachable ⟨m, []⟩ := by
  obtain ⟨m₀, hnew, hr⟩ := h
  exact ⟨m₀, hnew, .of_reach hr []⟩

theorem eq_ok_of_toOption {ε α : Type} {x : Except ε α} {a : α} (h : x.toOption = some a) :
    x = .ok a := by
  cases x with
  | error why => cases h
  | ok b => exact congrArg Except.ok (Option.some.inj h)

/-- A turn of a user in the conversation `c1`. -/
def remark (user id text : String) : Turn where
  id := id
  user := user
  conversation := "c1"
  role := .assistant
  text := text
  createdAt := 0
  importance := 0
  flags := ⟨false, false, false⟩
  entities := []
  embedding := none

namespace System

variable {s : System}

theorem Reachable.memory (h : s.Reachable) : s.memory.Reachable := by
  obtain ⟨m₀, hnew, hr⟩ := h
  exact ⟨m₀, hnew, hr.reach⟩

/-- **A read returns what belongs to the one who reads**: in every system that any run of calls,
chores and enrichments in any order leads to, the recent turns of a read are of its user and its
conversation, and the facts, the archived turns and the pattern are of its user. So are they if
other steps are taken between one tier and the next. -/
theorem read_finds_own (hs : s.Reachable) (p : Place) (query : String) :
    (∀ plan c, (s.memory.read p.user p.conversation query).1 = .ok (plan, c) → c.BelongsTo p) ∧
      ∀ c, Memory.Finds .free p query s.memory c → c.BelongsTo p := by
  refine ⟨fun plan c h => ?_, fun c h => h.belongsTo hs.memory⟩
  exact (Memory.read_finds hs.sound (Memory.queued_free _) trivial h).belongsTo hs.memory

/-- Two users have written, one of them a second time under an identifier of the other. -/
def retold : System where
  memory := [
      .write "u1" "c1" (remark "u1" "t1" "red"),
      .write "u1" "c1" (remark "u1" "t2" "green"),
      .write "u2" "c1" (remark "u2" "t1" "blue")].foldl Call.after {}

theorem reachable_retold : retold.Reachable :=
  (Memory.reachable_empty.afterAll _).system

/-- The first user reads what is left in the conversation, and nothing of the other. -/
theorem read_retold :
    retold.Reachable ∧
      ∃ plan c, (retold.memory.read "u1" "c1" "continue").1 = .ok (plan, c) ∧
        c.recent.map Turn.text = ["green"] ∧ c.BelongsTo ⟨"u1", "c1"⟩ := by
  refine ⟨reachable_retold, ?_⟩
  have hrecent : ((retold.memory.read "u1" "c1" "continue").1.toOption.map
      fun r => r.2.recent.map Turn.text) = some ["green"] := by decide +kernel
  obtain ⟨⟨plan, c⟩, hread, htexts⟩ := Option.map_eq_some_iff.1 hrecent
  have hread := eq_ok_of_toOption hread
  exact ⟨plan, c, hread, htexts,
    (read_finds_own reachable_retold ⟨"u1", "c1"⟩ "continue").1 plan c hread⟩

end System

end TieredMemory
