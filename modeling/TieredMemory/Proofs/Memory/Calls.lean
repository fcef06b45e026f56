import TieredMemory.Proofs.Memory.Background
import TieredMemory.Proofs.Outcome

/-!
# Calls are steps

Every call of the memory is a number of steps, and its licence is what is in its arguments: a write
brings in something of its user and the turn that is written, a read the state of a conversation of
its user, and no other call brings in anything (`Call.reach`).
-/

namespace TieredMemory

/-! ### Arguments that passed their check -/

theorem checkWrite_inv {user conversation : String} {t : Turn} {p : Place}
    (h : Memory.checkWrite user conversation t = .ok p) :
    t.place = p ∧ p.user = user ∧ checkUser p.user = .ok () := by
  obtain ⟨q, hq, h⟩ := bind_eq_ok h
  obtain ⟨text, -, h⟩ := bind_eq_ok h
  obtain ⟨rfl, hu⟩ := checkPlace_inv hq
  by_cases hplace : t.place = ⟨user, conversation⟩
  · simp only [hplace, ne_eq, not_true, if_false] at h
    cases h
    exact ⟨hplace, rfl, hu⟩
  · simp only [hplace, ne_eq, not_false_eq_true, if_true] at h
    cases h

/-- What passed the check is at a place that passes its own. -/
theorem checkPlace_of_checkWrite {user conversation : String} {t : Turn} {p : Place}
    (h : Memory.checkWrite user conversation t = .ok p) :
    checkPlace t.user t.conversation = .ok p := by
  obtain ⟨hplace, -⟩ := checkWrite_inv h
  obtain ⟨q, hq, h⟩ := bind_eq_ok h
  obtain ⟨text, -, h⟩ := bind_eq_ok h
  obtain ⟨rfl, -⟩ := checkPlace_inv hq
  have hp : p = ⟨user, conversation⟩ := by
    split at h
    · cases h
    · exact (Except.ok.inj h).symm
  subst hp
  obtain ⟨rfl, rfl⟩ : t.user = user ∧ t.conversation = conversation := Place.mk.inj hplace
  exact hq

/-- Of a turn the check looks at the text and the place. -/
theorem checkWrite_congr {user conversation : String} {t t' : Turn} {p : Place}
    (htext : t'.text = t.text) (hplace : t'.place = t.place)
    (h : Memory.checkWrite user conversation t = .ok p) :
    Memory.checkWrite p.user p.conversation t' = .ok p := by
  have hp := checkPlace_of_checkWrite h
  obtain ⟨rfl, -⟩ := checkPlace_inv hp
  obtain ⟨hplaced, rfl, -⟩ := checkWrite_inv h
  obtain ⟨q, -, h⟩ := bind_eq_ok h
  obtain ⟨text, hchecked, -⟩ := bind_eq_ok h
  unfold Memory.checkWrite
  rw [hp, htext, hchecked]
  simp [bind, Except.bind, pure, Except.pure, hplace, hplaced]

theorem checkRead_inv {user conversation query : String} {p : Place}
    (h : Memory.checkRead user conversation query = .ok p) :
    p = ⟨user, conversation⟩ ∧ checkUser user = .ok () := by
  obtain ⟨q, hq, h⟩ := bind_eq_ok h
  obtain ⟨text, -, h⟩ := bind_eq_ok h
  cases h
  exact checkPlace_inv hq

/-- A search of the facts finds none and changes nothing, or it is one search at a time after
embedding the query. -/
theorem FactStore.search_inv {user query : String} {limit : Int} {s s' : FactStore} {w w' : World}
    {found : List Fact} (h : s.search user query limit w = .ok (found, s', w')) :
    found = [] ∧ s' = s ∧ w' = w ∨
      ∃ embedding n, w' = (w.embed user "facts.search" query).2 ∧
        (found, s') = s.find w'.now user query embedding n := by
  obtain ⟨-, -, h⟩ := bind_eq_ok h
  obtain ⟨n, -, h⟩ := bind_eq_ok h
  by_cases hnone : (s.ofUser user).isEmpty || n = 0
  · simp only [hnone, if_true] at h
    cases h
    exact .inl ⟨rfl, rfl, rfl⟩
  · simp only [hnone] at h
    cases h
    exact .inr ⟨_, n, rfl, rfl⟩

/-! ### What the archive gives back -/

/-- An archive returns the turn that it was given, but for its embedding, and a log has it at its
end. -/
theorem ArchiveLog.append_inv {a a' : ArchiveLog} {t t' : Turn} {w w' : World}
    (h : a.append t w = .ok (t', a', w')) :
    (∃ embedding, t' = { t with embedding }) ∧ a' = a.insert t' := by
  obtain ⟨-, -, h⟩ := bind_eq_ok h
  cases h
  refine ⟨?_, rfl⟩
  cases t.embedding with
  | some e => exact ⟨t.embedding, rfl⟩
  | none => exact ⟨_, rfl⟩

theorem Archive.append_inv {a a' : Archive} {t t' : Turn} {w w' : World}
    (h : a.append t w = .ok (t', a', w')) : ∃ embedding, t' = { t with embedding } := by
  cases a with
  | log a =>
    cases hlog : a.append t w with
    | error why => simp [Archive.append, hlog, Except.map, Except.mapError] at h
    | ok r =>
      simp only [Archive.append, hlog, Except.map, Except.mapError, Except.ok.injEq,
        Prod.mk.injEq] at h
      exact h.1 ▸ (ArchiveLog.append_inv hlog).1
  | table a =>
    cases hrow : a.append t with
    | error why => simp [Archive.append, hrow, Except.map] at h
    | ok r =>
      simp only [Archive.append, hrow, Except.map, Except.ok.injEq, Prod.mk.injEq] at h
      exact ⟨t.embedding, h.1.symm⟩

namespace Memory

variable {L : Licence} {m : Memory}

/-! ### Writing -/

theorem reach_sentimentOf (hq : Queued L m) (t : Turn) : Reach L m (m.sentimentOf t).2 := by
  unfold sentimentOf
  split
  · exact .refl L m
  · next delay outcome w _ =>
    have hrated : Reach L m ({ m with world := w }.awaitReply delay) :=
      .trans (.step (.world w)) (reach_awaitReply (m := { m with world := w }) delay hq)
    simp only
    split
    · exact hrated
    · exact hrated.trans (.step (.world _))

theorem reach_assess (hq : Queued L m) {t : Turn} (hu : L.user t.user) :
    Reach L m (m.assess t).2 := by
  have hrated := reach_sentimentOf hq (Extraction.annotate t)
  obtain ⟨sentiment, m', h⟩ : ∃ sentiment m', m.sentimentOf (Extraction.annotate t) =
      (sentiment, m') := ⟨_, _, rfl⟩
  rw [h] at hrated
  simp only [assess, h]
  exact hrated.trans (.step (.rate m'.now sentiment (Extraction.annotate t) hu))

/-- A turn gets its flags, its entities and its importance, and is otherwise as it was. -/
theorem assess_inv (t : Turn) (m : Memory) :
    ∃ flags entities importance, (m.assess t).1 = { t with flags, entities, importance } := by
  unfold assess
  simp only
  obtain ⟨sentiment, m'⟩ := m.sentimentOf (Extraction.annotate t)
  obtain ⟨importance, scorer⟩ := m'.scorer.score m'.now sentiment (Extraction.annotate t)
  exact ⟨_, _, importance, rfl⟩

/-- The turn that is returned is the one that was given, but for its embedding. -/
theorem place_eq_ok {p : Place} {t t' : Turn} (h : (m.place p t).1 = .ok t') :
    ∃ embedding, t' = { t with embedding } := by
  unfold place at h
  split at h
  · next h' =>
    cases h
    exact Archive.append_inv h'
  · cases h

theorem reach_acknowledge (hq : Queued L m) {p : Place} {t : Turn} (hp : L.user p.user)
    (hu : L.user t.user) : Reach L m (m.acknowledge p t) := by
  have hnoted : Reach L m (m.changeState p fun s => { s with turnCount := s.turnCount + 1 }) :=
    .step (.note p _ (fun _ => rfl) hp)
  unfold acknowledge
  simp only
  split
  · refine hnoted.trans (.step (.background _ fun e he => ?_))
    rcases List.mem_append.1 he with he | he
    · exact hq e he
    · simp only [List.mem_cons, List.not_mem_nil, or_false] at he
      rcases he with rfl | rfl <;> exact hu
  · exact hnoted

theorem reach_write {user conversation : String} {t : Turn} (hq : Queued L m)
    (hu : L.user user) (ht : L.turn t.id) : Reach L m (m.write user conversation t).2 := by
  unfold write
  split
  · exact .refl L m
  · next p hp =>
    obtain ⟨hplace, rfl, hv⟩ := checkWrite_inv hp
    have huser : t.user = p.user := congrArg Place.user hplace
    have hrated := reach_assess hq (t := t) (huser ▸ hu)
    have hparts : Reach L m ((m.assess t).2.amid (place p (m.assess t).1)).2 :=
      hrated.trans (reach_amid (hrated.queued hq) fun m' =>
        .step (.place p (m.assess t).1 hplace (by rw [hv]; rfl) hu ht))
    simp only
    split
    · next h => exact (congrArg Prod.snd h) ▸ hparts
    · next t' m' h =>
      obtain rfl : _ = m' := congrArg Prod.snd h
      obtain ⟨embedding, rfl⟩ := place_eq_ok (congrArg Prod.fst h)
      exact hparts.trans (reach_acknowledge (hparts.queued hq) hu (huser ▸ hu))

/-! ### Reading -/

theorem reach_planFor (hq : Queued L m) (query : String) : Reach L m (m.planFor query).2 := by
  unfold planFor
  obtain ⟨opening, w⟩ := Planner.consult query m.world
  have hasked : Reach L m { m with world := w } := .step (.world w)
  exact (hasked.trans (reach_awaitReply opening.delay (hasked.queued hq))).trans (.step (.world _))

theorem reach_askCache (p : Place) : Reach L m (m.askCache p).2 := .step (.recent _ p _)

theorem reach_askFacts (p : Place) (query : String) : Reach L m (m.askFacts p query).2 := by
  unfold askFacts
  split
  · next found facts w h =>
    rcases FactStore.search_inv h with ⟨-, rfl, rfl⟩ | ⟨embedding, n, rfl, hfind⟩
    · exact .refl L m
    · obtain rfl : facts = _ := congrArg Prod.snd hfind
      exact .trans (.step (.world (m.world.embed p.user "facts.search" query).2))
        (.step (m := { m with world := (m.world.embed p.user "facts.search" query).2 })
          (.findFacts _ p.user query embedding n))
  · exact .refl L m

theorem reach_askArchive (p : Place) (query : String) : Reach L m (m.askArchive p query).2 := by
  unfold askArchive
  split
  · exact .step (.world _)
  · exact .refl L m

theorem reach_lookUp (user query : String) :
    Reach L m { m with
      patterns := (m.patterns.lookUp user query m.world).2.1
      world := (m.patterns.lookUp user query m.world).2.2 } := by
  unfold PatternStore.lookUp
  split
  · exact .refl L m
  · obtain ⟨embedding, w⟩ :=
      if m.patterns.hasSemanticTriggers user then m.world.embed user "patterns.match" query
      else (none, m.world)
    exact .trans (.step (.world w))
      (.step (m := { m with world := w }) (.applyPattern w.now user query embedding))

theorem reach_askPatterns (p : Place) (query : String) : Reach L m (m.askPatterns p query).2 := by
  unfold askPatterns PatternStore.matchQuery
  cases (do checkUser p.user; checkQuery query : Except Rejection String) with
  | error why => exact .refl L m
  | ok _ => exact reach_lookUp p.user query

theorem reach_askIf {α : Type} {none : α} {ask : Memory → Except Fault α × Memory} (plan : Plan)
    (tier : Tier) (h : Reach L m (ask m).2) : Reach L m (m.askIf plan tier none ask).2 := by
  unfold askIf
  split
  · exact h
  · exact .refl L m

/-- The tiers are asked one after another, each in the memory that the one before leaves. -/
theorem ask_inv (p : Place) (query : String) (plan : Plan) (m : Memory) :
    ∃ cached known archived applied,
      cached = m.askIf plan .hotCache [] (askCache p) ∧
      known = cached.2.askIf plan .factStore [] (askFacts p query) ∧
      archived = known.2.askIf plan .archive [] (askArchive p query) ∧
      applied = archived.2.askIf plan .patternStore none (askPatterns p query) ∧
      m.ask p query plan =
        (do
          let pattern ← applied.1
          return {
            recent := ← cached.1
            facts := ← known.1
            archived := ← archived.1
            pattern },
        applied.2) := by
  rcases hcached : m.askIf plan .hotCache [] (askCache p) with ⟨recent, m₁⟩
  rcases hknown : m₁.askIf plan .factStore [] (askFacts p query) with ⟨facts, m₂⟩
  rcases harchived : m₂.askIf plan .archive [] (askArchive p query) with ⟨archived, m₃⟩
  rcases happlied : m₃.askIf plan .patternStore none (askPatterns p query) with ⟨pattern, m₄⟩
  refine ⟨_, _, _, _, rfl, hknown.symm, harchived.symm, happlied.symm, ?_⟩
  unfold ask
  simp only [hcached, hknown, harchived, happlied]

theorem reach_ask (p : Place) (query : String) (plan : Plan) :
    Reach L m (m.ask p query plan).2 := by
  obtain ⟨cached, known, archived, applied, hcached, hknown, harchived, happlied, h⟩ :=
    ask_inv p query plan m
  have hcache : Reach L m cached.2 := by
    rw [hcached]
    exact reach_askIf plan .hotCache (reach_askCache p)
  have hfacts : Reach L cached.2 known.2 := by
    rw [hknown]
    exact reach_askIf plan .factStore (reach_askFacts p query)
  have harchive : Reach L known.2 archived.2 := by
    rw [harchived]
    exact reach_askIf plan .archive (reach_askArchive p query)
  have hpatterns : Reach L archived.2 applied.2 := by
    rw [happlied]
    exact reach_askIf plan .patternStore (reach_askPatterns p query)
  rw [h]
  exact hcache.trans (hfacts.trans (harchive.trans hpatterns))

theorem reach_read {user conversation query : String} (hq : Queued L m) (hu : L.user user) :
    Reach L m (m.read user conversation query).2 := by
  unfold read
  split
  · exact .refl L m
  · next p hp =>
    obtain ⟨rfl, -⟩ := checkRead_inv hp
    have hnoted : Reach L m (m.changeState ⟨user, conversation⟩ fun s =>
        { s with lastQueryAt := m.now }) := .step (.note _ _ (fun _ => rfl) hu)
    have hplanned := hnoted.trans (reach_planFor (hnoted.queued hq) query)
    dsimp only
    generalize planFor query _ = planned at hplanned ⊢
    obtain ⟨plan, m'⟩ := planned
    have hasked : Reach L m (m'.amid (ask ⟨user, conversation⟩ query plan)).2 :=
      hplanned.trans (reach_amid (hplanned.queued hq) fun m => reach_ask _ query plan)
    dsimp only
    generalize m'.amid (ask ⟨user, conversation⟩ query plan) = asked at hasked ⊢
    exact hasked

/-! ### Forgetting -/

theorem reach_forget (hq : Queued L m) (user conversation id : String) :
    Reach L m (m.forget user conversation id).2 := by
  unfold forget
  split
  · exact .refl L m
  · next p _ =>
    have hrecent : Reach L m { m with cache := (m.cache.recent m.now p m.recentLimit).2 } :=
      .step (.recent m.now p m.recentLimit)
    exact hrecent.trans (reach_amid (hrecent.queued hq) fun m => .step (.remove p id _))

theorem reach_cancelEnrichments (hq : Queued L m) (user : String) :
    Reach L m (m.cancelEnrichments user) := by
  unfold cancelEnrichments
  simp only
  split
  · exact .refl L m
  · have hkept : Reach L m
        { m with background := m.background.filter fun e => e.turn.user ≠ user } :=
      .step (.background _ fun e he => hq e (List.mem_filter.1 he).1)
    exact hkept.trans (reach_settle (hkept.queued hq))

theorem reach_deleteUser (hq : Queued L m) (user : String) :
    Reach L m (m.deleteUser user).2 := by
  unfold deleteUser
  split
  · exact .refl L m
  · have hcancelled := reach_cancelEnrichments hq user
    have herased : Reach L m ((m.cancelEnrichments user).amid (deleteFromTiers user)).2 :=
      hcancelled.trans (reach_amid (hcancelled.queued hq) fun m => .step (.erase user))
    split
    · next h => exact (congrArg Prod.snd h) ▸ herased
    · next counts m' h =>
      obtain rfl : _ = m' := congrArg Prod.snd h
      exact herased.trans (.step (.forgetUser user))

/-! ### Maintaining, starting and stopping -/

theorem reach_maintain (hq : Queued L m) (user : String) : Reach L m (m.maintain user).2 := by
  unfold maintain
  split
  · exact .refl L m
  · exact reach_amid hq fun m => reach_tidy user

theorem reach_start : Reach L m m.start.2 := by
  unfold start
  simp only
  split <;> exact .step (.scheduler _)

theorem reach_stop (hq : Queued L m) : Reach L m m.stop := by
  have hstopped : Reach L m { m with scheduler := m.scheduler.stop m.now } := .step (.scheduler _)
  exact (hstopped.trans (reach_drain (hstopped.queued hq))).trans (.step .close)

end Memory

/-! ### Any call -/

/-- A call of the memory that may change it. -/
inductive Call where
  | write (user conversation : String) (t : Turn)
  | read (user conversation query : String)
  | recent (user conversation : String) (limit : Int)
  | forget (user conversation id : String)
  | deleteUser (user : String)
  | maintain (user : String)
  | start
  | stop
  | drain
  | wait (d : Duration)

namespace Call

/-- The memory after a call. -/
def after (m : Memory) : Call → Memory
  | write user conversation t => (m.write user conversation t).2
  | read user conversation query => (m.read user conversation query).2
  | recent user conversation limit =>
    match m.recent user conversation limit with
    | .ok (_, m) => m
    | .error _ => m
  | forget user conversation id => (m.forget user conversation id).2
  | deleteUser user => (m.deleteUser user).2
  | maintain user => (m.maintain user).2
  | start => m.start.2
  | stop => m.stop
  | drain => m.drain
  | wait d => m.wait d

/-- The licence permits what is in the arguments of the call. -/
def Within (L : Licence) : Call → Prop
  | write user _ t => L.user user ∧ L.turn t.id
  | read user _ _ => L.user user
  | _ => True

/-- Every call is a number of steps within every licence that permits its arguments. -/
theorem reach {L : Licence} {m : Memory} {c : Call} (hq : m.Queued L) (h : c.Within L) :
    m.Reach L (c.after m) := by
  cases c with
  | write user conversation t => exact Memory.reach_write hq h.1 h.2
  | read user conversation query => exact Memory.reach_read hq h
  | recent user conversation limit =>
    simp only [after]
    split
    · next turns m' hm =>
      obtain ⟨⟨found, cache⟩, hfound, hm⟩ := bind_eq_ok hm
      obtain ⟨p, -, hfound⟩ := bind_eq_ok hfound
      obtain ⟨n, -, hfound⟩ := bind_eq_ok hfound
      obtain rfl : (m.cache.recent m.now p n).2 = cache := by
        simp only [pure, Except.pure, Except.ok.injEq] at hfound
        exact congrArg Prod.snd hfound
      cases hm
      exact .step (.recent m.now p n)
    · exact .refl L m
  | forget user conversation id => exact Memory.reach_forget hq user conversation id
  | deleteUser user => exact Memory.reach_deleteUser hq user
  | maintain user => exact Memory.reach_maintain hq user
  | start => exact Memory.reach_start
  | stop => exact Memory.reach_stop hq
  | drain => exact Memory.reach_drain hq
  | wait d => exact Memory.reach_wait d hq

theorem reach_free {m : Memory} (c : Call) : m.Reach .free (c.after m) := by
  refine c.reach (Memory.queued_free m) ?_
  cases c <;> simp [Within, Licence.free]

theorem reach_all {m : Memory} (cs : List Call) : m.Reach .free (cs.foldl after m) := by
  induction cs generalizing m with
  | nil => exact .refl _ m
  | cons c cs ih => exact c.reach_free.trans ih

end Call

end TieredMemory
