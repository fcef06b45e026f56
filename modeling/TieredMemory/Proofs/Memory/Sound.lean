import TieredMemory.Proofs.Memory.Owners

/-!
# Reachable memories are sound

A new memory holds nothing, archives in memory, and has a hot cache whose capacity is the number of
turns that a read looks at. In every memory that is reached from a new one by steps, buckets and
index of the hot cache agree, and a turn that is both cached and archived belongs to one user
(`Reachable.sound`). What a step does to the turns is said once, in `Step.turns_inv`.
-/

namespace TieredMemory

namespace ArchiveLog

variable {a : ArchiveLog} {user id : String}

theorem mem_insert {t x : Turn} : x ∈ (a.insert t).turns ↔ x = t ∨ x ∈ a.turns ∧ x.id ≠ t.id := by
  simp [insert, or_comm]

/-- If all turns with the identifier are the user's, none is left after the deletion. -/
theorem id_ne_of_mem_delete (h : ∀ y ∈ a.turns, y.id = id → y.user = user) :
    ∀ y ∈ (a.delete user id).2.turns, y.id ≠ id := by
  unfold delete
  cases hfind : a.get? id with
  | none => simpa [get?] using hfind
  | some t =>
    have hid : t.id = id := by simpa using List.find?_some hfind
    simp only [h t (List.mem_of_find?_eq_some hfind) hid, if_true]
    simp

/-- A deletion that says that there was a turn has removed the user's turn with the identifier, and
there is no other. -/
theorem delete_eq_true (h : (a.delete user id).1 = true) :
    (∃ y ∈ a.turns, y.id = id ∧ y.user = user) ∧
      ∀ y ∈ (a.delete user id).2.turns, y.id ≠ id := by
  unfold delete at h ⊢
  cases hfind : a.get? id with
  | none => simp [hfind] at h
  | some t =>
    by_cases hu : t.user = user
    · have hid : t.id = id := by simpa using List.find?_some hfind
      simp only [hu, if_true]
      exact ⟨⟨t, List.mem_of_find?_eq_some hfind, hid, hu⟩, by simp⟩
    · simp [hfind, hu] at h

theorem append_ok (t : Turn) (w : World) (h : (checkUser t.user).isOk = true) :
    ∃ embedding w', a.append t w =
      .ok ({ t with embedding }, a.insert { t with embedding }, w') := by
  cases hu : checkUser t.user with
  | error why => rw [hu] at h; cases h
  | ok _ =>
    have happend : a.append t w =
        .ok ((embedded t w).1, a.insert (embedded t w).1, (embedded t w).2) := by
      unfold append
      rw [hu]
      rfl
    obtain ⟨⟨embedding, he⟩, -⟩ := append_inv happend
    rw [he] at happend
    exact ⟨embedding, _, happend⟩

end ArchiveLog

namespace Memory

variable {m m' : Memory} {a : ArchiveLog} {L : Licence}

/-! ### With the archive in memory -/

theorem removeTurn_log (h : m.archive = .log a) (p : Place) (id : String) (isCached : Bool) :
    m.removeTurn p id isCached =
      (.ok ((isCached && (m.cache.remove id).1) || (a.delete p.user id).1),
        { m with
          cache := if isCached then (m.cache.remove id).2 else m.cache
          archive := .log (a.delete p.user id).2 }) := by
  unfold removeTurn
  rw [h]
  cases isCached <;> rfl

theorem deleteFromTiers_log (h : m.archive = .log a) (user : String) :
    m.deleteFromTiers user =
      (.ok ⟨(m.cache.deleteUser user).1, (m.facts.deleteUser user).1, (a.deleteUser user).1,
          (m.patterns.deleteUser user).1⟩,
        { m with
          cache := (m.cache.deleteUser user).2
          facts := (m.facts.deleteUser user).2
          patterns := (m.patterns.deleteUser user).2
          archive := .log (a.deleteUser user).2 }) := by
  unfold deleteFromTiers
  rw [h]
  rfl

theorem place_log (h : m.archive = .log a) (p : Place) {t : Turn}
    (hu : (checkUser t.user).isOk = true) :
    ∃ embedding world, m.place p t =
      (.ok { t with embedding },
        { m with
          cache := m.cache.add m.now p { t with embedding }
          archive := .log (a.insert { t with embedding })
          world }) := by
  obtain ⟨embedding, w, happend⟩ := a.append_ok t m.world hu
  refine ⟨embedding, w, ?_⟩
  unfold place
  rw [h]
  simp only [Archive.append, happend]
  rfl

/-! ### What a step does to the turns -/

/-- A step takes turns away, or it puts one into the cache at its place and into the archive, where
it replaces all with its identifier. -/
theorem Step.turns_inv (hs : Step L m m') (hc : m.cache.Consistent) (ha : m.archive = .log a) :
    (m'.cache.Consistent ∧ m'.cache.capacity = m.cache.capacity ∧
      m'.recentLimit = m.recentLimit) ∧
    ∃ a', m'.archive = .log a' ∧
      ((∀ p, m'.cache.turnsAt p ⊆ m.cache.turnsAt p) ∧ a'.turns ⊆ a.turns ∨
      ∃ p t, L.turn t.id ∧ t.place = p ∧ a' = a.insert t ∧
        ∀ q x, x ∈ m'.cache.turnsAt q → q = p ∧ x = t ∨ x ∈ m.cache.turnsAt q ∧ x.id ≠ t.id) := by
  cases hs with
  | sweep now =>
    refine ⟨⟨hc.sweep now, rfl, rfl⟩, a, ha, .inl ⟨fun p x hx => ?_, List.Subset.refl _⟩⟩
    exact hc.mem_turnsAt_sweep hx
  | recent now p n =>
    refine ⟨⟨hc.recent now p n, congrArg Prod.fst (HotCache.settings_recent now p n _), rfl⟩,
      a, ha, .inl ⟨fun q x hx => ?_, List.Subset.refl _⟩⟩
    rwa [HotCache.turnsAt_recent] at hx
  | remove p id isCached =>
    rw [removeTurn_log ha]
    refine ⟨?_, _, rfl, .inl ⟨fun q => ?_, ArchiveLog.turns_delete p.user id a⟩⟩
    · cases isCached with
      | true => exact ⟨hc.remove id, congrArg Prod.fst (HotCache.settings_remove id _), rfl⟩
      | false => exact ⟨hc, rfl, rfl⟩
    · cases isCached with
      | true =>
        intro x hx
        rw [if_pos rfl, hc.turnsAt_remove] at hx
        exact (List.mem_filter.1 hx).1
      | false => exact List.Subset.refl _
  | erase user =>
    rw [deleteFromTiers_log ha]
    refine ⟨⟨hc.dropWhere _, rfl, rfl⟩, _, rfl,
      .inl ⟨fun p x hx => ?_, List.filter_subset_self _⟩⟩
    rw [HotCache.turnsAt_deleteUser] at hx
    split at hx
    · cases hx
    · exact hx
  | close =>
    refine ⟨⟨hc, rfl, rfl⟩, a, ?_, .inl ⟨fun p => List.Subset.refl _, List.Subset.refl _⟩⟩
    rw [ha]
    rfl
  | place p t hp hv hu ht =>
    have huser : t.user = p.user := congrArg Place.user hp
    obtain ⟨embedding, world, hplace⟩ := place_log ha p (t := t) (huser ▸ hv)
    rw [hplace]
    refine ⟨⟨hc.add _ p _, congrArg Prod.fst (HotCache.settings_add _ p _ _), rfl⟩, _, rfl,
      .inr ⟨p, { t with embedding }, ht, hp, rfl, fun q x hx => hc.mem_turnsAt_add hx⟩⟩
  | _ => exact ⟨⟨hc, rfl, rfl⟩, a, ha, .inl ⟨fun p => List.Subset.refl _, List.Subset.refl _⟩⟩

/-! ### Soundness -/

/-- A memory with an archive in memory whose tiers agree. -/
structure Sound (m : Memory) : Prop where
  cache : m.cache.Consistent
  capacity : m.cache.capacity = m.recentLimit
  log : ∃ a, m.archive = .log a
  /-- A turn that is both cached and archived belongs to one user. -/
  agree : ∀ p, ∀ x ∈ m.cache.turnsAt p, ∀ y ∈ m.archive.turns, y.id = x.id → y.user = p.user

theorem Step.sound (hs : Step L m m') (h : m.Sound) : m'.Sound := by
  obtain ⟨a, ha⟩ := h.log
  obtain ⟨⟨hc, hcap, hlimit⟩, a', ha', hturns⟩ := hs.turns_inv h.cache ha
  refine ⟨hc, by rw [hcap, hlimit, h.capacity], ⟨a', ha'⟩, fun q x hx y hy hid => ?_⟩
  have hagree := h.agree
  rw [ha] at hagree
  rw [ha'] at hy
  rcases hturns with ⟨hcached, harchived⟩ | ⟨p, t, -, hplace, rfl, hcells⟩
  · exact hagree q x (hcached q hx) y (harchived hy) hid
  · rcases ArchiveLog.mem_insert.1 hy with rfl | ⟨hy, hne⟩
    · rcases hcells q x hx with ⟨rfl, -⟩ | ⟨-, hne⟩
      · exact congrArg Place.user hplace
      · exact absurd hid.symm hne
    · rcases hcells q x hx with ⟨-, rfl⟩ | ⟨hx, -⟩
      · exact absurd hid hne
      · exact hagree q x hx y hy hid

theorem Reach.sound (hr : Reach L m m') (h : m.Sound) : m'.Sound :=
  hr.induction (fun _ _ => Step.sound) h

/-! ### Reachable memories -/

/-- A memory that has just been made, with the archive in memory. -/
structure IsNew (m : Memory) : Prop where
  buckets : m.cache.buckets = []
  index : m.cache.index = []
  capacity : m.cache.capacity = m.recentLimit
  facts : m.facts.facts = []
  archive : ∃ a, m.archive = .log a ∧ a.turns = []
  patterns : m.patterns.patterns = []
  seen : m.scorer.seen = []
  states : m.states = []
  background : m.background = []

/-- A memory that steps lead to from a new one. -/
def Reachable (m : Memory) : Prop := ∃ m₀, IsNew m₀ ∧ Reach .free m₀ m

/-- Settings that ask for the archive in memory make a new memory. -/
theorem isNew_create {s : Settings} {environment : Environment}
    {completions embeddings : Script BackendAnswer} {w : World}
    (hs : s.archiveBackend = "memory")
    (h : Memory.create s environment completions embeddings w = .ok m) : m.IsNew := by
  obtain ⟨w, -, h⟩ := bind_eq_ok h
  obtain ⟨archive, harchive, h⟩ := bind_eq_ok h
  obtain ⟨cacheTtl, -, h⟩ := bind_eq_ok h
  obtain ⟨sweepInterval, -, h⟩ := bind_eq_ok h
  obtain ⟨factTtl, -, h⟩ := bind_eq_ok h
  obtain ⟨choreInterval, -, h⟩ := bind_eq_ok h
  simp only [archiveOf, hs] at harchive
  cases harchive
  cases h
  exact ⟨rfl, rfl, rfl, rfl, ⟨_, rfl, rfl⟩, rfl, rfl, rfl, rfl⟩

theorem IsNew.sound (h : m.IsNew) : m.Sound := by
  have hnone : ∀ p, m.cache.turnsAt p = [] := by
    simp [HotCache.turnsAt, HotCache.bucket?, Keyed.find?, h.buckets]
  obtain ⟨a, ha, -⟩ := h.archive
  refine ⟨⟨?_, ?_, ?_, ?_⟩, h.capacity, ⟨a, ha⟩, ?_⟩
  · simp [h.buckets]
  · simp [h.buckets]
  · simp [h.buckets]
  · simp [h.buckets, h.index, HotCache.placeOf?, Keyed.find?]
  · simp [hnone]

theorem Reachable.sound (h : m.Reachable) : m.Sound := by
  obtain ⟨m₀, hnew, hr⟩ := h
  exact hr.sound hnew.sound

end Memory

end TieredMemory
