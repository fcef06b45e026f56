import Mathlib
import TieredMemory.Proofs.Keyed
import TieredMemory.Proofs.Pattern.Consolidation

/-!
# What merging keeps

A merge adds up the uses of two patterns and unites their triggers, whichever of them survives
(`Becomes.merge`). So the patterns that a consolidation leaves have the uses and the triggers of
those that it found (`becomes_consolidate`).
-/

namespace TieredMemory

namespace Pattern

/-! ### Uses and triggers of a list -/

/-- The uses of all patterns together. -/
def uses (ps : List Pattern) : Int := (ps.map Pattern.usage).sum

/-- The keys of all triggers. -/
def keys (ps : List Pattern) : List String := ps.flatMap triggerKeys

@[simp] theorem uses_cons (p : Pattern) (ps : List Pattern) : uses (p :: ps) = p.usage + uses ps := by
  simp [uses]

@[simp] theorem uses_append (ps qs : List Pattern) : uses (ps ++ qs) = uses ps + uses qs := by
  simp [uses]

@[simp] theorem mem_keys_cons {p : Pattern} {ps : List Pattern} {k : String} :
    k ∈ keys (p :: ps) ↔ k ∈ p.triggerKeys ∨ k ∈ keys ps := by
  simp [keys]

@[simp] theorem mem_keys_append {ps qs : List Pattern} {k : String} :
    k ∈ keys (ps ++ qs) ↔ k ∈ keys ps ∨ k ∈ keys qs := by
  simp [keys]

theorem Perm.uses_eq {ps qs : List Pattern} (h : ps.Perm qs) : uses ps = uses qs :=
  (h.map Pattern.usage).sum_eq

theorem Perm.mem_keys {ps qs : List Pattern} (h : ps.Perm qs) {k : String} :
    k ∈ keys ps ↔ k ∈ keys qs := (h.flatMap_right triggerKeys).mem_iff

/-- The identifiers are distinct and no count of uses is negative. -/
structure Sound (ps : List Pattern) : Prop where
  ids : (ps.map Pattern.id).Nodup
  usage : ∀ p ∈ ps, 0 ≤ p.usage

theorem Sound.perm {ps qs : List Pattern} (h : ps.Perm qs) (hs : Sound ps) : Sound qs where
  ids := (h.map Pattern.id).nodup_iff.1 hs.ids
  usage p hp := hs.usage p (h.mem_iff.2 hp)

theorem Sound.of_append {ps qs : List Pattern} (hs : Sound (ps ++ qs)) : Sound qs where
  ids := hs.ids.sublist ((List.sublist_append_right ps qs).map Pattern.id)
  usage p hp := hs.usage p (List.mem_append_right ps hp)

/-- The patterns have become others that have `n` more uses and the same triggers. -/
structure Becomes (n : Int) (ps qs : List Pattern) : Prop where
  sound : Sound qs
  ids : qs.map Pattern.id ⊆ ps.map Pattern.id
  uses : uses qs = uses ps + n
  keys : ∀ k, k ∈ keys qs ↔ k ∈ keys ps

namespace Becomes

variable {m n : Int} {ps qs rs : List Pattern}

theorem of_perm (h : ps.Perm qs) (hs : Sound ps) : Becomes 0 ps qs where
  sound := hs.perm h
  ids := (h.map Pattern.id).symm.subset
  uses := by rw [Perm.uses_eq h, Int.add_zero]
  keys _ := (Perm.mem_keys h).symm

theorem refl (hs : Sound ps) : Becomes 0 ps ps := of_perm (.refl ps) hs

theorem trans (h : Becomes m ps qs) (h' : Becomes n qs rs) : Becomes (m + n) ps rs where
  sound := h'.sound
  ids := fun _ hi => h.ids (h'.ids hi)
  uses := by rw [h'.uses, h.uses, Int.add_assoc]
  keys k := (h'.keys k).trans (h.keys k)

theorem of_perms {ts : List Pattern} (h : Becomes n qs rs) (hs : Sound ps) (hps : ps.Perm qs)
    (hrs : rs.Perm ts) : Becomes n ps ts := by
  simpa using ((of_perm hps hs).trans h).trans (of_perm hrs h.sound)

/-- Others before them stay as they are. -/
theorem append (h : Becomes n ps qs) (hs : Sound (rs ++ ps)) : Becomes n (rs ++ ps) (rs ++ qs) where
  sound := by
    obtain ⟨hids, husage⟩ := hs
    rw [List.map_append, List.nodup_append] at hids
    obtain ⟨hr, -, hdisjoint⟩ := hids
    refine ⟨?_, fun p hp => ?_⟩
    · rw [List.map_append, List.nodup_append]
      exact ⟨hr, h.sound.ids, fun i hi j hj => hdisjoint i hi j (h.ids hj)⟩
    · rcases List.mem_append.1 hp with hp | hp
      · exact husage p (List.mem_append_left ps hp)
      · exact h.sound.usage p hp
  ids := by
    rw [List.map_append, List.map_append]
    exact List.append_subset.2 ⟨List.subset_append_left _ _, fun _ hi =>
      List.mem_append_right _ (h.ids hi)⟩
  uses := by rw [uses_append, uses_append, h.uses, Int.add_assoc]
  keys k := by rw [mem_keys_append, mem_keys_append, h.keys]

end Becomes

/-! ### One merge -/

section

variable (policy : ReinforcementPolicy)

@[simp] theorem recordUsages_usage (time : Time) (n : Nat) (p : Pattern) :
    (recordUsages policy time n p).usage = p.usage + n := by
  induction n generalizing p with
  | zero => simp [recordUsages]
  | succ n ih =>
    rw [recordUsages, ih]
    simp only [recordUsage]
    omega

@[simp] theorem recordUsages_triggers (time : Time) (n : Nat) (p : Pattern) :
    (recordUsages policy time n p).triggers = p.triggers := by
  induction n generalizing p with
  | zero => rfl
  | succ n ih => exact ih _

theorem merge_usage {target source : Pattern} (h : 0 ≤ source.usage) :
    (target.merge policy source).usage = target.usage + source.usage := by
  simp [merge, h]

theorem mem_map_key_withTriggers {own ts : List Trigger} {k : String} :
    k ∈ (withTriggers own ts).map Trigger.key ↔ k ∈ own.map Trigger.key ∨ k ∈ ts.map Trigger.key := by
  induction ts generalizing own with
  | nil => simp [withTriggers]
  | cons t r ih =>
    rw [withTriggers]
    split
    · next hown =>
      obtain ⟨o, ho, hkey⟩ := List.any_eq_true.1 hown
      have hthere : t.key ∈ own.map Trigger.key := (beq_iff_eq.1 hkey) ▸ List.mem_map_of_mem ho
      rw [ih, List.map_cons, List.mem_cons]
      constructor
      · exact fun h => h.imp_right .inr
      · rintro (h | rfl | h)
        · exact .inl h
        · exact .inl hthere
        · exact .inr h
    · rw [ih, List.map_append, List.mem_append, List.map_cons, List.map_nil, List.mem_singleton,
        List.map_cons, List.mem_cons, or_assoc]

theorem mem_triggerKeys_merge {target source : Pattern} {k : String} :
    k ∈ (target.merge policy source).triggerKeys ↔
      k ∈ target.triggerKeys ∨ k ∈ source.triggerKeys := by
  rw [triggerKeys, merge, recordUsages_triggers]
  exact mem_map_key_withTriggers

/-- Merging the second pattern into the first one keeps the uses and the triggers of both. -/
theorem Becomes.merge {survivor loser : Pattern} {ps : List Pattern}
    (hs : Sound (survivor :: loser :: ps)) :
    Becomes 0 (survivor :: loser :: ps) (survivor.merge policy loser :: ps) := by
  obtain ⟨hids, husage⟩ := hs
  have hloser : 0 ≤ loser.usage := husage loser (by simp)
  have hsurvivor : 0 ≤ survivor.usage := husage survivor (by simp)
  refine ⟨⟨?_, ?_⟩, ?_, ?_, fun k => ?_⟩
  · rw [List.map_cons, merge_id]
    exact hids.sublist (((List.sublist_cons_self loser ps).map Pattern.id).cons_cons survivor.id)
  · intro p hp
    rcases List.mem_cons.1 hp with rfl | hp
    · rw [merge_usage policy hloser]
      omega
    · exact husage p (by simp [hp])
  · rw [List.map_cons, merge_id]
    exact ((List.sublist_cons_self loser ps).map Pattern.id |>.cons_cons survivor.id).subset
  · rw [uses_cons, merge_usage policy hloser, uses_cons, uses_cons]
    omega
  · rw [mem_keys_cons, mem_triggerKeys_merge, mem_keys_cons, mem_keys_cons, or_assoc]

variable {policy}

/-- One more use. -/
theorem Becomes.use {p : Pattern} {ps : List Pattern} (time : Time) (hs : Sound (p :: ps)) :
    Becomes 1 (p :: ps) (p.recordUsage policy time :: ps) := by
  refine ⟨⟨hs.ids, fun q hq => ?_⟩, List.Subset.refl _, ?_, fun k => Iff.rfl⟩
  · rcases List.mem_cons.1 hq with rfl | hq
    · have := hs.usage p List.mem_cons_self
      simp only [recordUsage]
      omega
    · exact hs.usage q (List.mem_cons_of_mem p hq)
  · simp only [uses_cons, recordUsage]
    omega

/-- The pair in the order in which one is merged into the other. -/
theorem ranked_perm (a b : Pattern) (ps : List Pattern) :
    ((ranked a b).1 :: (ranked a b).2 :: ps).Perm (a :: b :: ps) := by
  rcases ranked_eq_or a b with h | h <;> rw [h]
  exact .swap a b ps

/-- The same, whatever the rest of the patterns is and in whatever order they stand. -/
theorem Becomes.merge_of_perm {survivor loser : Pattern} {ps rest qs : List Pattern} (hs : Sound ps)
    (hps : ps.Perm (survivor :: loser :: rest))
    (hqs : (survivor.merge policy loser :: rest).Perm qs) : Becomes 0 ps qs :=
  (Becomes.merge policy (hs.perm hps)).of_perms hs hps hqs

/-! ### All merges -/

variable {ps qs : List Pattern}

theorem becomes_mergePair {a b : Pattern} (hs : Sound ps) (ha : a ∈ ps) (hb : b ∈ ps)
    (hab : a.id ≠ b.id) : Becomes 0 ps (mergePair policy a b ps) := by
  rcases hr : ranked a b with ⟨survivor, loser⟩
  obtain ⟨hsurvivor, hloser, hne⟩ : survivor ∈ ps ∧ loser ∈ ps ∧ survivor.id ≠ loser.id := by
    rcases ranked_eq_or a b with h | h <;> obtain ⟨rfl, rfl⟩ := Prod.mk.inj (hr.symm.trans h)
    · exact ⟨ha, hb, hab⟩
    · exact ⟨hb, ha, hab.symm⟩
  have hrest : loser ∈ Keyed.remove Pattern.id survivor.id ps :=
    List.mem_filter.2 ⟨hloser, by simpa using hne.symm⟩
  have hids := Keyed.map_update Pattern.id (fun p => merge_id policy p loser) survivor.id ps
  have hbefore := (Keyed.perm_cons_remove Pattern.id hs.ids hsurvivor).trans
    ((Keyed.perm_cons_remove Pattern.id (Keyed.nodup_remove Pattern.id _ hs.ids) hrest).cons survivor)
  have hafter : (Keyed.remove Pattern.id loser.id
      (Keyed.update Pattern.id survivor.id (fun p => p.merge policy loser) ps)).Perm
      (Keyed.remove Pattern.id loser.id
        (survivor.merge policy loser :: Keyed.remove Pattern.id survivor.id ps)) :=
    (Keyed.update_perm Pattern.id hs.ids _ hsurvivor).filter _
  rw [Keyed.remove_cons_of_ne Pattern.id (by rwa [merge_id])] at hafter
  have hmerged : mergePair policy a b ps = Keyed.remove Pattern.id loser.id
      (Keyed.update Pattern.id survivor.id (fun p => p.merge policy loser) ps) := by
    rw [mergePair, hr]
    exact Keyed.eraseP_eq_remove Pattern.id (hids ▸ hs.ids) loser.id
  rw [hmerged]
  exact .merge_of_perm hs hbefore hafter.symm

theorem becomes_consolidate (hs : Sound ps) : Becomes 0 ps (consolidate policy ps).2 := by
  refine consolidate_induction (motive := fun ps _ kept => Sound ps → Becomes 0 ps kept) ?_ ?_ ps hs
  · exact fun ps _ hs => .refl hs
  · intro ps qs n kept hm ih hs
    obtain ⟨a, b, hsub, rfl⟩ := mergeOnce?_inv hm
    have hperm : (ascending isOlder ps).Perm ps := List.mergeSort_perm ps _
    have hpair : ([a, b].map Pattern.id).Nodup :=
      ((hperm.map Pattern.id).nodup_iff.2 hs.ids).sublist (hsub.map Pattern.id)
    have ha : a ∈ ps := hperm.mem_iff.1 (hsub.subset (by simp))
    have hb : b ∈ ps := hperm.mem_iff.1 (hsub.subset (by simp))
    have hmerged : Becomes 0 ps (mergePair policy a b ps) :=
      becomes_mergePair hs ha hb (by simpa using hpair)
    exact hmerged.trans (ih hmerged.sound)

end

end Pattern

end TieredMemory
