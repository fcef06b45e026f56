import TieredMemory.Proofs.Memory.Reading

/-!
# What forgetting takes away

A turn is forgotten from the archive by its user and its identifier, and from the hot cache only if
it is among the recent turns of the conversation that is named. So when `forget` says that there was
a turn, the archive is rid of it, and so is the hot cache unless the turn is cached in another
conversation of the user; there it stays and is read again. What is gone stays gone until the turn
is written again (`forget_removes`).
-/

namespace TieredMemory.Memory

variable {m m' : Memory} {L : Licence} {id : String}

/-! ### Without a turn -/

/-- The archive has no turn with the identifier. -/
def NotArchived (id : String) (m : Memory) : Prop := ∀ x ∈ m.archive.turns, x.id ≠ id

/-- No bucket has a turn with the identifier. -/
def NotCached (id : String) (m : Memory) : Prop := ∀ p, ∀ x ∈ m.cache.turnsAt p, x.id ≠ id

/-- A step that does not write a turn takes turns away or puts another one in. -/
theorem Step.turns_cases (hs : Step L m m') (hm : m.Sound) (hid : ¬ L.turn id) :
    (∀ p, ∀ x ∈ m'.cache.turnsAt p, x.id = id → x ∈ m.cache.turnsAt p) ∧
      ∀ x ∈ m'.archive.turns, x.id = id → x ∈ m.archive.turns := by
  obtain ⟨a, ha⟩ := hm.log
  obtain ⟨-, a', ha', hturns⟩ := hs.turns_inv hm.cache ha
  rw [ha, ha']
  rcases hturns with ⟨hcached, harchived⟩ | ⟨p, t, ht, -, rfl, hcells⟩
  · exact ⟨fun p x hx _ => hcached p hx, fun x hx _ => harchived hx⟩
  · have hne : ∀ x : Turn, x.id = id → x ≠ t := fun x hx e => hid (hx ▸ e ▸ ht)
    refine ⟨fun q x hx hxid => ?_, fun x hx hxid => ?_⟩
    · rcases hcells q x hx with ⟨-, he⟩ | ⟨hx, -⟩
      · exact absurd he (hne x hxid)
      · exact hx
    · rcases ArchiveLog.mem_insert.1 hx with he | ⟨hx, -⟩
      · exact absurd he (hne x hxid)
      · exact hx

/-- As long as a turn is not written, it is only where it was before. -/
theorem Reach.turns_subset (hr : Reach L m m') (hm : m.Sound) (hid : ¬ L.turn id) :
    (∀ p, ∀ x ∈ m'.cache.turnsAt p, x.id = id → x ∈ m.cache.turnsAt p) ∧
      ∀ x ∈ m'.archive.turns, x.id = id → x ∈ m.archive.turns := by
  induction hr with
  | refl => exact ⟨fun p x hx _ => hx, fun x hx _ => hx⟩
  | tail hr hs ih =>
    have hstep := hs.turns_cases (Reach.sound hr hm) hid
    exact ⟨fun p x hx hxid => ih.1 p x (hstep.1 p x hx hxid) hxid,
      fun x hx hxid => ih.2 x (hstep.2 x hx hxid) hxid⟩

theorem Reach.notArchived (hr : Reach L m m') (hm : m.Sound) (hid : ¬ L.turn id)
    (h : m.NotArchived id) : m'.NotArchived id :=
  fun x hx hxid => h x ((hr.turns_subset hm hid).2 x hx hxid) hxid

theorem Reach.notCached (hr : Reach L m m') (hm : m.Sound) (hid : ¬ L.turn id)
    (h : m.NotCached id) : m'.NotCached id :=
  fun p x hx hxid => h p x ((hr.turns_subset hm hid).1 p x hx hxid) hxid

/-! ### What a read returns -/

/-- A read finds no turn that is not there. -/
theorem Finds.lacks (hm : m.Sound) (hid : ¬ L.turn id) (hc : m.NotCached id)
    (ha : m.NotArchived id) {p : Place} {query : String} {c : Context}
    (h : Finds L p query m c) :
    (∀ x ∈ c.recent, x.id ≠ id) ∧ ∀ x ∈ c.archived, x.id ≠ id := by
  constructor
  · rcases h.recent with hnone | ⟨m', now, n, hr, hrecent⟩
    · simp [hnone]
    · rw [hrecent]
      exact fun x hx => hr.notCached hm hid hc p x (HotCache.mem_turnsAt_of_recent hx)
  · rcases h.archived with hnone | ⟨m', a, embedding, n, hr, hlog, harchived⟩
    · simp [hnone]
    · have hgone := hr.notArchived hm hid ha
      rw [NotArchived, hlog] at hgone
      rw [harchived]
      exact fun x hx => hgone x (ArchiveLog.mem_of_mem_matching (List.mem_of_mem_take hx)).1

/-! ### Forgetting -/

/-- Removing a turn that was found among the recent turns of its place, or in the archive, removes
it from the archive; and from the cache, if it is nowhere else. -/
theorem removeTurn_takes_away (hm : m.Sound) {p : Place} {isCached : Bool}
    (hfound : isCached = true → ∀ y ∈ m.archive.turns, y.id = id → y.user = p.user)
    (h : m.removeTurn p id isCached = (.ok true, m')) :
    m'.NotArchived id ∧
      (isCached = true ∨ (∀ q, q.user = p.user → ∀ x ∈ m.cache.turnsAt q, x.id ≠ id) →
        m'.NotCached id) := by
  obtain ⟨a, ha⟩ := hm.log
  have hagree := hm.agree
  rw [ha] at hfound hagree
  rw [removeTurn_log ha] at h
  obtain ⟨hreturned, rfl⟩ := Prod.mk.inj h
  cases isCached with
  | true =>
    refine ⟨ArchiveLog.id_ne_of_mem_delete (hfound rfl), fun _ q x hx => ?_⟩
    rw [if_pos rfl, hm.cache.turnsAt_remove] at hx
    simpa using (List.mem_filter.1 hx).2
  | false =>
    have hdeleted : (a.delete p.user id).1 = true := by simpa using hreturned
    obtain ⟨⟨y, hy, hyid, hyuser⟩, hgone⟩ := ArchiveLog.delete_eq_true hdeleted
    refine ⟨hgone, fun helsewhere q x hx hxid => ?_⟩
    have huser : q.user = p.user := (hagree q x hx y hy (hyid.trans hxid.symm)).symm.trans hyuser
    exact (helsewhere.resolve_left (by simp)) q huser x hx hxid

/-- A forgotten turn is not archived. Nor is it cached, unless it was cached in another conversation
of the user than the one that was named. -/
theorem forget_takes_away {user conversation : String} (hm : m.Sound)
    (h : m.forget user conversation id = (.ok true, m')) :
    m'.NotArchived id ∧
      ((∀ c, c ≠ conversation → ∀ x ∈ m.cache.turnsAt ⟨user, c⟩, x.id ≠ id) →
        m'.NotCached id) := by
  have hid : ¬ (Licence.without id).turn id := fun h => h rfl
  unfold forget at h
  split at h
  · cases h
  next p hp =>
  obtain ⟨rfl, -⟩ := checkPlace_inv hp
  dsimp only at h
  have hnamed : (m.cache.recent m.now ⟨user, conversation⟩ m.recentLimit).1.any (·.id == id) = true
      ↔ ∃ x ∈ m.cache.turnsAt ⟨user, conversation⟩, x.id = id := by
    simp only [List.any_eq_true, beq_iff_eq, hm.cache.mem_recent (Nat.le_of_eq hm.capacity)]
  generalize (m.cache.recent m.now ⟨user, conversation⟩ m.recentLimit).1.any (·.id == id) =
    isCached at h hnamed
  -- what the parts of the call find is no more than what was there
  have hbegun : Reach (.without id) m ({ m with
      cache := (m.cache.recent m.now ⟨user, conversation⟩ m.recentLimit).2 }.beforeParts).2 :=
    .trans (.step (.recent m.now ⟨user, conversation⟩ m.recentLimit)) reach_beforeParts
  unfold amid at h
  generalize { m with
    cache := (m.cache.recent m.now ⟨user, conversation⟩ m.recentLimit).2 }.beforeParts = begun
    at h hbegun
  obtain ⟨chores, m₁⟩ := begun
  dsimp only at h hbegun
  have hm₁ := hbegun.sound hm
  obtain ⟨hcached, harchived⟩ := hbegun.turns_subset hm hid
  have hremoved : Reach (.without id) m₁ (m₁.removeTurn ⟨user, conversation⟩ id isCached).2 :=
    .step (.remove _ id isCached)
  rcases hresult : m₁.removeTurn ⟨user, conversation⟩ id isCached with ⟨returned, m₂⟩
  rw [hresult] at h hremoved
  obtain ⟨rfl, rfl⟩ := Prod.mk.inj h
  have hafter : Reach (.without id) m₂ (m₂.afterParts chores) :=
    reach_afterParts (fun _ _ => trivial) chores
  have hm₂ := hremoved.sound hm₁
  obtain ⟨hgone, huncached⟩ := removeTurn_takes_away hm₁ (fun hc y hy hyid => by
    obtain ⟨x, hx, hxid⟩ := hnamed.1 hc
    exact hm.agree _ x hx y (harchived y hy hyid) (hyid.trans hxid.symm)) hresult
  refine ⟨hafter.notArchived hm₂ hid hgone, fun helsewhere => ?_⟩
  refine hafter.notCached hm₂ hid (huncached ?_)
  refine or_iff_not_imp_left.2 fun hc q hq x hx hxid => ?_
  obtain ⟨u, c⟩ := q
  obtain rfl : u = user := hq
  have hx := hcached ⟨u, c⟩ x hx hxid
  by_cases hcc : c = conversation
  · subst hcc
    exact hc (hnamed.2 ⟨x, hx, hxid⟩)
  · exact helsewhere c hcc x hx hxid

/-- **What forgetting takes away does not come back**: when a turn has been forgotten, it is not in
the archive, and as long as it is not written again it never is. If it was cached in no other
conversation of the user than the one that was named, then it is not in the hot cache either, and
no read in any conversation returns it. -/
theorem forget_removes {user conversation : String} (hm : m.Reachable)
    (h : m.forget user conversation id = (.ok true, m')) {later : Memory}
    (hlater : Reach (.without id) m' later) :
    later.NotArchived id ∧
      ((∀ c, c ≠ conversation → ∀ x ∈ m.cache.turnsAt ⟨user, c⟩, x.id ≠ id) →
        later.NotCached id ∧
          ∀ reader c query plan context,
            (later.read reader c query).1 = .ok (plan, context) →
              (∀ x ∈ context.recent, x.id ≠ id) ∧ ∀ x ∈ context.archived, x.id ≠ id) := by
  have hid : ¬ (Licence.without id).turn id := fun h => h rfl
  obtain ⟨hgone, huncached⟩ := forget_takes_away hm.sound h
  have hforgotten : Reach .free m m' := by
    have hreach := reach_forget (L := .free) (m := m) (fun _ _ => trivial) user conversation id
    rwa [h] at hreach
  have hm' := hforgotten.sound hm.sound
  have hgone := hlater.notArchived hm' hid hgone
  refine ⟨hgone, fun helsewhere => ?_⟩
  have huncached := hlater.notCached hm' hid (huncached helsewhere)
  refine ⟨huncached, fun reader c query plan context hread => ?_⟩
  have hfound := read_finds (L := .without id) (hlater.sound hm') (fun _ _ => trivial) trivial hread
  exact hfound.lacks (hlater.sound hm') hid huncached hgone

/-! ### A turn in another conversation -/

/-- A turn of an assistant. -/
def greeting : Turn where
  id := "t1"
  user := "u1"
  conversation := "c1"
  role := .assistant
  text := "hello there"
  createdAt := 0
  importance := 0
  flags := ⟨false, false, false⟩
  entities := []
  embedding := none

/-- A new memory in which the turn has been written. -/
def greeted : Memory := (({} : Memory).write "u1" "c1" greeting).2

theorem reachable_greeted : greeted.Reachable :=
  ⟨{}, ⟨rfl, rfl, rfl, rfl, ⟨_, rfl, rfl⟩, rfl, rfl, rfl, rfl⟩,
    reach_write (fun _ _ => trivial) trivial trivial⟩

/-- Forgotten in its own conversation, the turn is gone. -/
theorem forget_greeted :
    (greeted.forget "u1" "c1" "t1").1.toOption = some true ∧
      (greeted.forget "u1" "c1" "t1").2.NotArchived "t1" ∧
      (greeted.forget "u1" "c1" "t1").2.NotCached "t1" := by
  have hreturned : (greeted.forget "u1" "c1" "t1").1.toOption = some true := by decide +kernel
  have hplace : greeted.cache.buckets.map Bucket.place = [⟨"u1", "c1"⟩] := by decide +kernel
  have helsewhere : ∀ c, c ≠ "c1" → ∀ x ∈ greeted.cache.turnsAt ⟨"u1", c⟩, x.id ≠ "t1" := by
    intro c hc
    have hnone : greeted.cache.bucket? ⟨"u1", c⟩ = none := by
      refine (Keyed.find?_eq_none_iff Bucket.place).2 ?_
      rw [hplace]
      simpa using hc
    rw [HotCache.turnsAt_of_bucket?_eq_none hnone]
    simp
  have hforget : greeted.forget "u1" "c1" "t1" = (.ok true, (greeted.forget "u1" "c1" "t1").2) :=
    Prod.ext (eq_ok_of_toOption hreturned) rfl
  obtain ⟨hgone, huncached⟩ := forget_removes reachable_greeted hforget (.refl _ _)
  exact ⟨hreturned, hgone, (huncached helsewhere).1⟩

/-- Forgotten under the name of another conversation, which is said to have removed it, the turn is
still cached and is read again. -/
theorem forget_elsewhere_leaves_cached :
    greeted.Reachable ∧ (greeted.forget "u1" "c2" "t1").1.toOption = some true ∧
      ((greeted.forget "u1" "c2" "t1").2.cache.turnsAt ⟨"u1", "c1"⟩).map Turn.id = ["t1"] ∧
      (((greeted.forget "u1" "c2" "t1").2.read "u1" "c1" "continue").1.toOption.map
        fun r => r.2.recent.map Turn.id) = some ["t1"] :=
  ⟨reachable_greeted, by decide +kernel, by decide +kernel, by decide +kernel⟩

end TieredMemory.Memory
