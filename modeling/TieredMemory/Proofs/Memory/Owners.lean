import TieredMemory.Proofs.HotCache.Contents
import TieredMemory.Proofs.Memory.Calls
import TieredMemory.Proofs.Pattern.Addresses

/-!
# Whose things the memory holds

Every bucket, fact, turn, pattern, ledger and state belongs to a user, and no operation hands one
over to another user. So if the users of all that is there have a property, part by part, and those
who are permitted to bring in something have it, then it stays so (`Owned`, `Reach.owned`). With the
property of not being a certain user this says that a user who is not in the memory and brings in
nothing is never in it again.
-/

namespace TieredMemory

/-! ### Facts -/

namespace FactStore

variable {s : FactStore} {f : Fact}

theorem user_mem_recordUses {now : Time} {user : String} {ids : List String}
    (h : f ∈ (s.recordUses now user ids).facts) : ∃ g ∈ s.facts, f.user = g.user := by
  obtain ⟨g, hg, rfl⟩ := List.mem_map.1 h
  refine ⟨g, hg, ?_⟩
  split <;> rfl

theorem user_mem_insert {user : String} {g : Fact} (h : f ∈ (s.insert user g).2.facts) :
    f.user = user ∨ ∃ g ∈ s.facts, f.user = g.user := by
  unfold insert at h
  split at h
  · obtain ⟨k, hk, rfl | rfl⟩ := Keyed.eq_or_eq_of_mem_update address h
    · exact .inr ⟨k, hk, rfl⟩
    · exact .inr ⟨_, hk, rfl⟩
  · rcases Keyed.mem_put address h with rfl | h
    · exact .inl rfl
    · exact .inr ⟨f, h, rfl⟩

theorem user_mem_insertAll {user : String} {fs : List Fact}
    (h : f ∈ (s.insertAll user fs).2.facts) : f.user = user ∨ ∃ g ∈ s.facts, f.user = g.user := by
  induction fs generalizing s with
  | nil => exact .inr ⟨f, h, rfl⟩
  | cons g r ih =>
    rcases ih (s := (s.insert user g).2) h with hu | ⟨k, hk, hfk⟩
    · exact .inl hu
    · rw [hfk]
      exact user_mem_insert hk

end FactStore

/-! ### Patterns -/

namespace PatternStore

variable {s : PatternStore} {p : Pattern}

theorem user_mem_consolidate {user : String} (h : p ∈ (s.consolidate user).2.patterns) :
    ∃ q ∈ s.patterns, p.user = q.user := by
  obtain ⟨q, hq, hp⟩ := List.mem_filterMap.1 h
  split at hp
  · next hu =>
    obtain ⟨r, hr, hpr⟩ := Pattern.user_mem_consolidate s.policy (s.ofUser user) p
      (List.mem_of_find?_eq_some hp)
    exact ⟨r, (List.mem_filter.1 hr).1, hpr⟩
  · obtain rfl : q = p := by simpa using hp
    exact ⟨q, hq, rfl⟩

theorem user_mem_apply {now : Time} {user query : String} {embedding : Option Embedding}
    (h : p ∈ (s.apply now user query embedding).2.patterns) :
    ∃ q ∈ s.patterns, p.user = q.user := by
  rcases apply_inv now user query embedding s with ⟨-, hs⟩ | ⟨q, hq, hs, -⟩
  · rw [hs] at h
    exact ⟨p, h, rfl⟩
  · rw [hs, patterns_recordMatch] at h
    obtain ⟨r, hr, rfl | rfl⟩ := Keyed.eq_or_eq_of_mem_update address h
    · exact ⟨q, (List.mem_filter.1 hq).1, rfl⟩
    · exact ⟨p, hr, rfl⟩

theorem user_mem_insert {mergeAlike : Bool} {q : Pattern}
    (h : p ∈ (s.insert mergeAlike q).2.patterns) :
    p.user = q.user ∨ ∃ r ∈ s.patterns, p.user = r.user := by
  rcases insert_cases mergeAlike q s with ⟨-, hinsert⟩ | ⟨r, survivor, loser, -, hmerges, hinsert⟩ <;>
    rw [hinsert] at h
  · rcases Keyed.mem_put address ((evict_sublist q.user _).subset h) with rfl | h
    · exact .inl rfl
    · exact .inr ⟨p, h, rfl⟩
  · rcases Keyed.mem_put address h with rfl | h
    · rw [Pattern.merge_user]
      exact .inl hmerges.survivor_user
    · exact .inr ⟨p, (List.mem_filter.1 h).1, rfl⟩

end PatternStore

/-! ### Archived turns -/

/-- The turns of an archive in memory. -/
def Archive.turns : Archive → List Turn
  | log a => a.turns
  | table _ => []

theorem ArchiveLog.turns_delete (user id : String) (a : ArchiveLog) :
    (a.delete user id).2.turns ⊆ a.turns := by
  unfold ArchiveLog.delete
  split
  · split
    · exact List.filter_subset_self _
    · exact List.Subset.refl _
  · exact List.Subset.refl _

namespace Archive

variable {a a' : Archive}

theorem turns_append {t t' : Turn} {w w' : World} (h : a.append t w = .ok (t', a', w')) {x : Turn}
    (hx : x ∈ a'.turns) : x = t' ∨ x ∈ a.turns ∧ x.id ≠ t'.id := by
  cases a with
  | log a =>
    cases hlog : a.append t w with
    | error why => simp [append, hlog, Except.map, Except.mapError] at h
    | ok r =>
      simp only [append, hlog, Except.map, Except.mapError, Except.ok.injEq, Prod.mk.injEq] at h
      obtain ⟨rfl, rfl, rfl⟩ := h
      rw [turns, (ArchiveLog.append_inv hlog).2] at hx
      simp only [ArchiveLog.insert, List.mem_append, List.mem_filter, decide_eq_true_eq,
        List.mem_singleton] at hx
      exact hx.symm
  | table a =>
    cases hrow : a.append t with
    | error why => simp [append, hrow, Except.map] at h
    | ok r =>
      simp only [append, hrow, Except.map, Except.ok.injEq, Prod.mk.injEq] at h
      obtain ⟨-, rfl, -⟩ := h
      cases hx

theorem turns_delete {user id : String} {removed : Bool}
    (h : a.delete user id = .ok (removed, a')) : a'.turns ⊆ a.turns := by
  cases a with
  | log a =>
    cases h
    exact ArchiveLog.turns_delete user id a
  | table a =>
    cases hrow : a.delete user id with
    | error why => simp [delete, hrow, Except.map] at h
    | ok r =>
      simp only [delete, hrow, Except.map, Except.ok.injEq, Prod.mk.injEq] at h
      obtain ⟨-, rfl⟩ := h
      exact List.Subset.refl _

theorem turns_deleteUser {user : String} {n : Nat} (h : a.deleteUser user = .ok (n, a')) :
    a'.turns ⊆ a.turns := by
  cases a with
  | log a =>
    cases h
    exact List.filter_subset_self _
  | table a =>
    cases hrow : a.deleteUser user with
    | error why => simp [deleteUser, hrow, Except.map] at h
    | ok r =>
      simp only [deleteUser, hrow, Except.map, Except.ok.injEq, Prod.mk.injEq] at h
      obtain ⟨-, rfl⟩ := h
      exact List.Subset.refl _

@[simp] theorem turns_close (a : Archive) : a.close.turns = a.turns := by
  cases a <;> rfl

end Archive

/-! ### Steps of two tiers -/

namespace Memory

variable {m m' : Memory}

theorem removeTurn_inv (p : Place) (id : String) (isCached : Bool) (m : Memory) :
    ∃ archive, archive.turns ⊆ m.archive.turns ∧
      (m.removeTurn p id isCached).2 = { m with
        cache := if isCached then (m.cache.remove id).2 else m.cache
        archive } := by
  unfold removeTurn
  cases isCached with
  | false =>
    simp only
    split
    · next h => exact ⟨_, Archive.turns_delete h, rfl⟩
    · exact ⟨m.archive, List.Subset.refl _, rfl⟩
  | true =>
    simp only [if_true]
    split
    · next h => exact ⟨_, Archive.turns_delete h, rfl⟩
    · exact ⟨m.archive, List.Subset.refl _, rfl⟩

theorem deleteFromTiers_inv (user : String) (m : Memory) :
    ∃ archive, archive.turns ⊆ m.archive.turns ∧
      (m.deleteFromTiers user).2 = { m with
        cache := (m.cache.deleteUser user).2
        facts := (m.facts.deleteUser user).2
        patterns := (m.patterns.deleteUser user).2
        archive } := by
  unfold deleteFromTiers
  simp only
  split
  · next h => exact ⟨_, Archive.turns_deleteUser h, rfl⟩
  · exact ⟨m.archive, List.Subset.refl _, rfl⟩

/-- The turn that is put into the cache is the given one, but for its embedding. -/
theorem place_inv (p : Place) (t : Turn) (m : Memory) :
    ∃ embedding archive world,
      (∀ x ∈ archive.turns, x.user = t.user ∧ x.id = t.id ∨ x ∈ m.archive.turns) ∧
      (m.place p t).2 =
        { m with cache := m.cache.add m.now p { t with embedding }, archive, world } := by
  unfold place
  split
  · next t' archive world h =>
    obtain ⟨embedding, rfl⟩ := Archive.append_inv h
    refine ⟨embedding, archive, world, fun x hx => ?_, rfl⟩
    rcases Archive.turns_append h hx with rfl | ⟨hx, -⟩
    · exact .inl ⟨rfl, rfl⟩
    · exact .inr hx
  · exact ⟨t.embedding, m.archive, m.world, fun x hx => .inr hx, rfl⟩

end Memory

theorem Memory.place_stateAt (p : Place) (m : Memory) : (m.stateAt p).place = p := by
  unfold Memory.stateAt
  cases h : Keyed.find? ConversationState.place p m.states with
  | none => rfl
  | some s => simpa using List.find?_some h

/-! ### All that is owned -/

/-- The parts of a memory that are emptied of a user one after another. -/
inductive Part where
  /-- The work that is not done. -/
  | background
  | tiers
  /-- The entities seen and the states of the conversations. -/
  | ledgers

/-- The users of all that the memory holds have the property of its part. -/
structure Memory.Owned (P : Part → String → Prop) (m : Memory) : Prop where
  enrichments : ∀ e ∈ m.background, P .background e.turn.user
  buckets : ∀ p ∈ m.cache.buckets.map Bucket.place, P .tiers p.user
  facts : ∀ f ∈ m.facts.facts, P .tiers f.user
  turns : ∀ t ∈ m.archive.turns, P .tiers t.user
  patterns : ∀ p ∈ m.patterns.patterns, P .tiers p.user
  seen : ∀ e ∈ m.scorer.seen, P .ledgers e.1
  states : ∀ s ∈ m.states, P .ledgers s.place.user

namespace Memory

variable {P : Part → String → Prop} {L : Licence} {m m' : Memory}

/-- No step brings in something of a user who is not permitted to, so the property stays. -/
theorem Step.owned (hL : ∀ u, L.user u → ∀ part, P part u) (hs : Step L m m') (h : Owned P m) :
    Owned P m' := by
  cases hs with
  | world w => exact ⟨h.1, h.2, h.3, h.4, h.5, h.6, h.7⟩
  | scheduler s => exact ⟨h.1, h.2, h.3, h.4, h.5, h.6, h.7⟩
  | background es hes => exact { h with enrichments := fun e he => hL _ (hes e he) _ }
  | consolidations => exact { h with }
  | sweep now =>
    exact { h with buckets := fun p hp => h.buckets p (HotCache.places_sweep now m.cache hp) }
  | recent now p n =>
    exact { h with buckets := fun q hq => h.buckets q (HotCache.places_recent now p n m.cache hq) }
  | prune now user => exact { h with facts := fun f hf => h.facts f (List.mem_filter.1 hf).1 }
  | findFacts now user query embedding n =>
    refine { h with facts := fun f hf => ?_ }
    obtain ⟨g, hg, hfg⟩ := FactStore.user_mem_recordUses hf
    exact hfg ▸ h.facts g hg
  | consolidate user =>
    refine { h with patterns := fun p hp => ?_ }
    obtain ⟨q, hq, hpq⟩ := PatternStore.user_mem_consolidate hp
    exact hpq ▸ h.patterns q hq
  | applyPattern now user query embedding =>
    refine { h with patterns := fun p hp => ?_ }
    obtain ⟨q, hq, hpq⟩ := PatternStore.user_mem_apply hp
    exact hpq ▸ h.patterns q hq
  | remove p id isCached =>
    obtain ⟨archive, hturns, hm'⟩ := removeTurn_inv p id isCached m
    rw [hm']
    refine { h with buckets := fun q hq => ?_, turns := fun t ht => h.turns t (hturns ht) }
    cases isCached with
    | true => exact h.buckets q (HotCache.places_remove id m.cache ▸ hq)
    | false => exact h.buckets q hq
  | erase user =>
    obtain ⟨archive, hturns, hm'⟩ := deleteFromTiers_inv user m
    rw [hm']
    refine { h with
      buckets := fun p hp => ?_
      facts := fun f hf => h.facts f (List.mem_filter.1 hf).1
      turns := fun t ht => h.turns t (hturns ht)
      patterns := fun p hp => h.patterns p (List.mem_filter.1 hp).1 }
    obtain ⟨b, hb, rfl⟩ := List.mem_map.1 hp
    exact h.buckets b.place (List.mem_map_of_mem (List.mem_filter.1 hb).1)
  | forgetUser user =>
    exact { h with
      seen := fun e he => h.seen e (List.mem_filter.1 he).1
      states := fun s hs => h.states s (List.mem_filter.1 hs).1 }
  | close => exact { h with turns := fun t ht => h.turns t (Archive.turns_close m.archive ▸ ht) }
  | rate now sentiment t hu =>
    refine { h with seen := fun e he => ?_ }
    rcases Keyed.mem_put Prod.fst he with rfl | he
    · exact hL _ hu _
    · exact h.seen e he
  | place p t hp hv hu ht =>
    obtain ⟨embedding, archive, world, hturns, hm'⟩ := place_inv p t m
    rw [hm']
    refine { h with buckets := fun q hq => ?_, turns := fun x hx => ?_ }
    · rcases List.mem_cons.1 (HotCache.places_add m.now p _ m.cache hq) with rfl | hq
      · exact hL _ hu _
      · exact h.buckets q hq
    · rcases hturns x hx with ⟨hx, -⟩ | hx
      · rw [hx, show t.user = p.user from congrArg Place.user hp]
        exact hL _ hu _
      · exact h.turns x hx
  | note p f hf hu =>
    refine { h with states := fun s hs => ?_ }
    rcases Keyed.mem_put ConversationState.place hs with rfl | hs
    · rw [hf, place_stateAt]
      exact hL _ hu _
    · exact h.states s hs
  | storeFacts user fs hu =>
    refine { h with facts := fun f hf => ?_ }
    rcases FactStore.user_mem_insertAll hf with hf | ⟨g, hg, hfg⟩
    · exact hf ▸ hL _ hu _
    · exact hfg ▸ h.facts g hg
  | storePattern mergeAlike q hu =>
    refine { h with patterns := fun p hp => ?_ }
    rcases PatternStore.user_mem_insert hp with hp | ⟨r, hr, hpr⟩
    · exact hp ▸ hL _ hu _
    · exact hpr ▸ h.patterns r hr

theorem Reach.owned (hL : ∀ u, L.user u → ∀ part, P part u) (hr : Reach L m m')
    (h : Owned P m) : Owned P m' :=
  hr.induction (fun _ _ hs => hs.owned hL) h

end Memory

end TieredMemory
