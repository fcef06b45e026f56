import TieredMemory.Proofs.Memory.Reading

/-!
# The archive is the system of record

A write puts one turn into the hot cache and into the archive, each of which drops the earlier turn
with the identifier wherever it is: in another conversation or with another user. The cache lets
more turns go than the archive does, and the archive lets a turn go only if it is written again or if
its user is deleted, and then the cache does too. So the turns of the cache are always some of the
turns of the archive (`run_records`). Forgetting a turn under the name of another conversation is
the one call that breaks this, and it is left out here.
-/

namespace TieredMemory

/-! ### A cache and a log -/

/-- The turns of the cache are turns of the log, at the places where they belong, and no identifier
occurs twice in either. -/
structure ArchiveLog.Records (l : ArchiveLog) (c : HotCache) : Prop where
  cache : c.Consistent
  once : (l.turns.map Turn.id).Nodup
  recorded : ∀ p, ∀ t ∈ c.turnsAt p, t.place = p ∧ t ∈ l.turns

namespace ArchiveLog.Records

variable {l : ArchiveLog} {c : HotCache}

theorem sweep (h : l.Records c) (now : Time) : l.Records (c.sweep now).2 where
  cache := h.cache.sweep now
  once := h.once
  recorded p t ht := h.recorded p t (h.cache.mem_turnsAt_sweep ht)

theorem recent (h : l.Records c) (now : Time) (p : Place) (n : Nat) :
    l.Records (c.recent now p n).2 where
  cache := h.cache.recent now p n
  once := h.once
  recorded q t ht := by
    rw [HotCache.turnsAt_recent] at ht
    exact h.recorded q t ht

/-- Both drop what they had under the identifier, and both have the turn at its place, unless the
cache has let it go at once. -/
theorem insert (h : l.Records c) (clock : HotCache.Readings) (t : Turn) :
    (l.insert t).Records (c.add clock t.place t) where
  cache := h.cache.add clock t.place t
  once := by
    have hkept : ((l.turns.filter fun x => x.id ≠ t.id).map Turn.id).Nodup :=
      h.once.sublist (List.filter_sublist.map Turn.id)
    simp only [ArchiveLog.insert, List.map_append, List.map_singleton]
    refine hkept.append (List.nodup_singleton _) (List.disjoint_singleton.2 fun hid => ?_)
    obtain ⟨x, hx, hid⟩ := List.mem_map.1 hid
    simpa [hid] using (List.mem_filter.1 hx).2
  recorded p x hx := by
    rcases h.cache.mem_turnsAt_add hx with ⟨rfl, rfl⟩ | ⟨hx, hne⟩
    · exact ⟨rfl, mem_insert.2 (.inl rfl)⟩
    · obtain ⟨hplace, hrecorded⟩ := h.recorded p x hx
      exact ⟨hplace, mem_insert.2 (.inr ⟨hrecorded, hne⟩)⟩

/-- The turns of the user are in the buckets of the user. -/
theorem deleteUser (h : l.Records c) (user : String) :
    (l.deleteUser user).2.Records (c.deleteUser user).2 where
  cache := h.cache.dropWhere _
  once := h.once.sublist (List.filter_sublist.map Turn.id)
  recorded p t ht := by
    rw [HotCache.turnsAt_deleteUser] at ht
    split at ht
    · cases ht
    · next hp =>
      obtain ⟨rfl, hrecorded⟩ := h.recorded p t ht
      exact ⟨rfl, List.mem_filter.2 ⟨hrecorded, decide_eq_true hp⟩⟩

end ArchiveLog.Records

namespace Memory

variable {m : Memory}

/-! ### A memory -/

/-- The archive is a log that has all that is cached. -/
def Recorded (m : Memory) : Prop := ∃ l, m.archive = .log l ∧ l.Records m.cache

/-- Only the cache and the archive matter. -/
theorem Recorded.of_eq {m' : Memory} (h : m.Recorded) (hc : m'.cache = m.cache)
    (ha : m'.archive = m.archive) : m'.Recorded := by
  obtain ⟨l, hl, hrecords⟩ := h
  exact ⟨l, ha.trans hl, hc ▸ hrecords⟩

theorem IsNew.recorded (h : m.IsNew) : m.Recorded := by
  obtain ⟨l, hl, hempty⟩ := h.archive
  refine ⟨l, hl, h.sound.cache, by simp [hempty], fun p t ht => ?_⟩
  simp [HotCache.turnsAt, HotCache.bucket?, Keyed.find?, h.buckets] at ht

theorem Recorded.sweepCache (h : m.Recorded) : m.sweepCache.2.Recorded := by
  obtain ⟨l, hl, hrecords⟩ := h
  exact ⟨l, hl, hrecords.sweep m.now⟩

theorem Recorded.tidy (h : m.Recorded) (user : String) : (m.tidy user).2.2.Recorded :=
  h.of_eq rfl rfl

theorem Recorded.tidyAll (h : m.Recorded) : m.tidyAll.Recorded :=
  List.foldlRecOn (motive := Recorded) _ _ h fun _ h user _ => h.tidy user

theorem Recorded.doChore (h : m.Recorded) (c : Chore) : (m.doChore c).Recorded := by
  cases c with
  | sweep => exact h.sweepCache
  | maintain => exact h.tidyAll

/-! ### In the background -/

theorem Recorded.storeFacts (h : m.Recorded) (t : Turn) (fs : List Fact) :
    (m.storeFacts t fs).Recorded := by
  unfold Memory.storeFacts
  split
  · exact h
  · split <;> exact h.of_eq rfl rfl

theorem Recorded.enrichByRules (h : m.Recorded) (work : Work) (t : Turn) :
    (m.enrichByRules work t).Recorded := by
  cases work with
  | extract =>
    unfold Memory.enrichByRules
    obtain ⟨facts, w⟩ := Extraction.factsByRules t m.world
    exact storeFacts (m := { m with world := w }) (h.of_eq rfl rfl) t facts
  | detect =>
    unfold Memory.enrichByRules
    obtain ⟨_, patterns, w⟩ := m.patterns.learnByMarkers t.user (some t.text) m.world
    exact h.of_eq rfl rfl

theorem Recorded.enrichFromOutcome (h : m.Recorded) (work : Work) (t : Turn)
    (outcome : Except Fault Json.Value) : (m.enrichFromOutcome work t outcome).Recorded := by
  cases work with
  | extract =>
    unfold Memory.enrichFromOutcome
    obtain ⟨facts, w⟩ := Extraction.factsOfOutcome t outcome m.world
    exact storeFacts (m := { m with world := w }) (h.of_eq rfl rfl) t facts
  | detect =>
    unfold Memory.enrichFromOutcome
    obtain ⟨_, patterns, w⟩ := m.patterns.learnFromOutcome t.user (some t.text) outcome m.world
    exact h.of_eq rfl rfl

theorem Recorded.startEnrichment (h : m.Recorded) (e : Enrichment) :
    (m.startEnrichment e).Recorded := by
  unfold Memory.startEnrichment
  split
  · exact h.of_eq rfl rfl
  · split
    · exact h.enrichByRules e.work e.turn
    · next reply w _ =>
      have hasked : Recorded { m with world := w } := h.of_eq rfl rfl
      simp only
      split
      · exact hasked.enrichFromOutcome e.work e.turn reply.outcome
      · exact hasked.of_eq rfl rfl

theorem Recorded.endEnrichment (h : m.Recorded) (e : Enrichment)
    (outcome : Option (Except Fault Json.Value)) : (m.endEnrichment e outcome).Recorded := by
  cases outcome with
  | some outcome => exact h.enrichFromOutcome e.work e.turn outcome
  | none => exact h.of_eq rfl rfl

theorem Recorded.advance (h : m.Recorded) (e : Enrichment) : (m.advance e).Recorded := by
  unfold Memory.advance
  split
  · exact h.startEnrichment e
  · split
    · exact h.endEnrichment e _
    · exact h.of_eq rfl rfl

theorem lasting_recorded : Lasting Recorded where
  clock _ _ h := h.of_eq rfl rfl
  start _ _ h := h.of_eq rfl rfl
  finish _ _ h := h.of_eq rfl rfl
  enrich _ h :=
    List.foldlRecOn (motive := Recorded) _ _ (h.of_eq rfl rfl) fun _ h e _ => h.advance e
  wake _ h := ⟨h.of_eq rfl rfl, fun c _ _ h => h.doChore c⟩

/-! ### The calls -/

theorem Recorded.assess (h : m.Recorded) (t : Turn) : (m.assess t).2.Recorded := by
  have hrated : (m.sentimentOf (Extraction.annotate t)).2.Recorded := by
    unfold sentimentOf
    split
    · exact h
    · next delay outcome w _ =>
      have hrated : ({ m with world := w }.awaitReply delay).Recorded :=
        lasting_recorded.awaitReply delay (h.of_eq rfl rfl)
      simp only
      split
      · exact hrated
      · exact hrated.of_eq rfl rfl
  exact hrated.of_eq rfl rfl

theorem Recorded.place (h : m.Recorded) {p : Place} {t : Turn} (hp : t.place = p)
    (hu : (checkUser p.user).isOk = true) : (m.place p t).2.Recorded := by
  obtain ⟨l, hl, hrecords⟩ := h
  subst hp
  obtain ⟨embedding, world, hplace⟩ := place_log hl t.place hu
  rw [hplace]
  exact ⟨_, rfl, hrecords.insert m.now { t with embedding }⟩

theorem Recorded.acknowledge (h : m.Recorded) (p : Place) (t : Turn) :
    (m.acknowledge p t).Recorded := by
  unfold Memory.acknowledge
  simp only
  split <;> exact h.of_eq rfl rfl

theorem Recorded.write (h : m.Recorded) (user conversation : String) (t : Turn) :
    (m.write user conversation t).2.Recorded := by
  unfold Memory.write
  split
  · exact h
  next p hp =>
  obtain ⟨hplace, -, hv⟩ := checkWrite_inv hp
  have hassessed := h.assess t
  have hp : (m.assess t).1.place = p := by
    obtain ⟨flags, entities, importance, ht⟩ := assess_inv t m
    rw [ht]
    exact hplace
  simp only
  generalize m.assess t = assessed at hassessed hp
  obtain ⟨t', m₁⟩ := assessed
  have hplaced : (m₁.amid (Memory.place p t')).2.Recorded :=
    lasting_recorded.amid (fun m' h' => h'.place hp (by rw [hv]; rfl)) hassessed
  split
  · next hresult => exact (congrArg Prod.snd hresult) ▸ hplaced
  · next t'' m₂ hresult =>
    obtain rfl : _ = m₂ := congrArg Prod.snd hresult
    exact hplaced.acknowledge p t''

theorem Recorded.askIf (h : m.Recorded) {α : Type} {none : α}
    {ask : Memory → Except Fault α × Memory} (plan : Plan) (tier : Tier)
    (hask : (ask m).2.Recorded) : (m.askIf plan tier none ask).2.Recorded := by
  unfold Memory.askIf
  split
  · exact hask
  · exact h

theorem Recorded.ask (h : m.Recorded) (p : Place) (query : String) (plan : Plan) :
    (m.ask p query plan).2.Recorded := by
  obtain ⟨cached, known, archived, applied, hcached, hknown, harchived, happlied, hask⟩ :=
    ask_inv p query plan m
  have hcache : cached.2.Recorded := by
    obtain ⟨l, hl, hrecords⟩ := h
    rw [hcached]
    exact askIf ⟨l, hl, hrecords⟩ plan .hotCache ⟨l, hl, hrecords.recent m.now p m.recentLimit⟩
  have hfacts : known.2.Recorded := by
    rw [hknown]
    refine hcache.askIf plan .factStore ?_
    unfold askFacts
    split
    · exact hcache.of_eq rfl rfl
    · exact hcache
  have harchive : archived.2.Recorded := by
    rw [harchived]
    refine hfacts.askIf plan .archive ?_
    unfold askArchive
    split
    · exact hfacts.of_eq rfl rfl
    · exact hfacts
  rw [hask, happlied]
  exact harchive.askIf plan .patternStore (harchive.of_eq rfl rfl)

theorem Recorded.planFor (h : m.Recorded) (query : String) : (m.planFor query).2.Recorded := by
  unfold Memory.planFor
  obtain ⟨opening, w⟩ := Planner.consult query m.world
  have hasked : ({ m with world := w }.awaitReply opening.delay).Recorded :=
    lasting_recorded.awaitReply opening.delay (h.of_eq rfl rfl)
  exact hasked.of_eq rfl rfl

theorem Recorded.read (h : m.Recorded) (user conversation query : String) :
    (m.read user conversation query).2.Recorded := by
  unfold Memory.read
  split
  · exact h
  next p hp =>
  have hnoted : (m.changeState p fun s => { s with lastQueryAt := m.now }).Recorded :=
    h.of_eq rfl rfl
  have hplanned := hnoted.planFor query
  dsimp only
  generalize Memory.planFor query _ = planned at hplanned ⊢
  obtain ⟨plan, m₁⟩ := planned
  have hasked : (m₁.amid (Memory.ask p query plan)).2.Recorded :=
    lasting_recorded.amid (fun m' h' => h'.ask p query plan) hplanned
  dsimp only
  generalize m₁.amid (Memory.ask p query plan) = asked at hasked ⊢
  exact hasked

theorem Recorded.recent (h : m.Recorded) (user conversation : String) (limit : Int) :
    ((Call.recent user conversation limit).after m).Recorded := by
  simp only [Call.after]
  split
  · next turns m' hm =>
    obtain ⟨⟨found, cache⟩, hfound, hm⟩ := bind_eq_ok hm
    obtain ⟨p, -, hfound⟩ := bind_eq_ok hfound
    obtain ⟨n, -, hfound⟩ := bind_eq_ok hfound
    cases hm
    obtain rfl : (m.cache.recent m.now p n).2 = cache := by
      simp only [pure, Except.pure, Except.ok.injEq] at hfound
      exact congrArg Prod.snd hfound
    obtain ⟨l, hl, hrecords⟩ := h
    exact ⟨l, hl, hrecords.recent m.now p n⟩
  · exact h

theorem Recorded.deleteUser (h : m.Recorded) (user : String) :
    (m.deleteUser user).2.Recorded := by
  unfold Memory.deleteUser
  split
  · exact h
  have hcancelled : (m.cancelEnrichments user).Recorded := by
    unfold cancelEnrichments
    simp only
    split
    · exact h
    · exact lasting_recorded.settle (h.of_eq rfl rfl)
  have herased : ((m.cancelEnrichments user).amid (deleteFromTiers user)).2.Recorded := by
    refine lasting_recorded.amid (fun m' h' => ?_) hcancelled
    obtain ⟨l, hl, hrecords⟩ := h'
    rw [deleteFromTiers_log hl]
    exact ⟨_, rfl, hrecords.deleteUser user⟩
  split
  · next hresult => exact (congrArg Prod.snd hresult) ▸ herased
  · next counts m' hresult =>
    obtain rfl : _ = m' := congrArg Prod.snd hresult
    exact herased.of_eq rfl rfl

theorem Recorded.maintain (h : m.Recorded) (user : String) : (m.maintain user).2.Recorded := by
  unfold Memory.maintain
  split
  · exact h
  · exact lasting_recorded.amid (fun m' h' => h'.tidy user) h

theorem Recorded.start (h : m.Recorded) : m.start.2.Recorded := by
  unfold Memory.start
  simp only
  split <;> exact h.of_eq rfl rfl

theorem Recorded.stop (h : m.Recorded) : m.stop.Recorded := by
  have hdrained : ({ m with scheduler := m.scheduler.stop m.now }.drain).Recorded :=
    lasting_recorded.drain (h.of_eq rfl rfl)
  obtain ⟨l, hl, hrecords⟩ := hdrained
  refine ⟨l, ?_, hrecords⟩
  unfold Memory.stop
  simp only [hl]
  rfl

/-! ### Runs -/

/-- What the memory may be asked for, or what may change around it. -/
inductive Request where
  | call (c : Call)
  | sweep
  | world (w : World)

namespace Request

/-- The memory after a request. -/
def after (m : Memory) : Request → Memory
  | call c => c.after m
  | sweep => m.sweepCache.2
  | world w => { m with world := w }

/-- The request is to forget a turn. -/
def Forgets : Request → Prop
  | call (.forget ..) => True
  | _ => False

end Request

theorem Recorded.after (h : m.Recorded) {r : Request} (hr : ¬ r.Forgets) :
    (r.after m).Recorded := by
  cases r with
  | call c =>
    cases c with
    | write user conversation t => exact h.write user conversation t
    | read user conversation query => exact h.read user conversation query
    | recent user conversation limit => exact h.recent user conversation limit
    | forget user conversation id => exact absurd trivial hr
    | deleteUser user => exact h.deleteUser user
    | maintain user => exact h.maintain user
    | start => exact h.start
    | stop => exact h.stop
    | drain => exact lasting_recorded.drain h
    | wait d => exact lasting_recorded.wait d h
  | sweep => exact h.sweepCache
  | world w => exact h.of_eq rfl rfl

theorem Recorded.run (h : m.Recorded) {rs : List Request} (hrs : ∀ r ∈ rs, ¬ r.Forgets) :
    (rs.foldl Request.after m).Recorded :=
  List.foldlRecOn (motive := Recorded) rs Request.after h fun _ h r hr => h.after (hrs r hr)

/-- **The cache is a part of the archive**: after any requests but to forget, in any order, by any
users and for any turns, no identifier occurs twice in the hot cache or in the archive, and every
cached turn is a turn of the user and of the conversation of its bucket that the archive has just as
it is. -/
theorem run_records (hnew : m.IsNew) {rs : List Request} (hrs : ∀ r ∈ rs, ¬ r.Forgets) :
    ((rs.foldl Request.after m).cache.buckets.flatMap Bucket.ids).Nodup ∧
      ∃ l, (rs.foldl Request.after m).archive = .log l ∧ (l.turns.map Turn.id).Nodup ∧
        ∀ b ∈ (rs.foldl Request.after m).cache.buckets, ∀ t ∈ b.turns,
          t.user = b.place.user ∧ t.conversation = b.place.conversation ∧ t ∈ l.turns := by
  obtain ⟨l, hl, hrecords⟩ := hnew.recorded.run hrs
  refine ⟨hrecords.cache.nodup_ids, l, hl, hrecords.once, fun b hb t ht => ?_⟩
  have hbucket := hrecords.cache.bucket?_eq_some.2 ⟨hb, rfl⟩
  obtain ⟨hplace, hrecorded⟩ := hrecords.recorded b.place t
    (HotCache.turnsAt_of_bucket? hbucket ▸ ht)
  exact ⟨congrArg Place.user hplace, congrArg Place.conversation hplace, hrecorded⟩

/-- Two users write, one of them under an identifier of the other, who is then deleted. -/
def retellings : List Request := [
  .call (.write "u1" "c1" (remark "u1" "t1" "red")),
  .call (.write "u1" "c1" (remark "u1" "t2" "green")),
  .call (.write "u2" "c1" (remark "u2" "t1" "blue")),
  .sweep,
  .call (.maintain "u2"),
  .call (.deleteUser "u1")]

/-- What is left is the turn that was written again, with the user who wrote it last. -/
theorem run_retellings :
    (∀ r ∈ retellings, ¬ r.Forgets) ∧
      (retellings.foldl Request.after {}).cache.buckets.flatMap Bucket.ids = ["t1"] ∧
      ∃ l, (retellings.foldl Request.after {}).archive = .log l ∧
        (l.turns.map Turn.id).Nodup ∧
        ∀ b ∈ (retellings.foldl Request.after {}).cache.buckets, ∀ t ∈ b.turns,
          t.user = b.place.user ∧ t.conversation = b.place.conversation ∧ t ∈ l.turns := by
  have hrs : ∀ r ∈ retellings, ¬ r.Forgets := by simp [retellings, Request.Forgets]
  exact ⟨hrs, by decide +kernel, (run_records isNew_empty hrs).2⟩

end Memory

end TieredMemory
