import TieredMemory.Proofs.Pattern.Conservation

/-!
# Where patterns are kept

A pattern is kept under its user and its identifier. What a store does leaves the patterns where they
are or takes them away, and one that comes in takes the place of what was kept there. So no two
patterns are ever kept under one user and identifier (`nodup_insert`).
-/

namespace TieredMemory.PatternStore

variable {s : PatternStore} {p : Pattern}

theorem map_address_consolidate (user : String) (s : PatternStore) :
    ((s.consolidate user).2.patterns.map address).Sublist (s.patterns.map address) := by
  refine Keyed.map_filterMap_sublist address fun p _ q hq => ?_
  split at hq
  · next hp =>
    have hid : q.id = p.id := by simpa using List.find?_some hq
    obtain ⟨r, hr, hqr⟩ := Pattern.user_mem_consolidate s.policy (s.ofUser user) q
      (List.mem_of_find?_eq_some hq)
    have huser : q.user = p.user := (hqr.trans (user_of_mem_ofUser user s hr)).trans hp.symm
    exact Prod.ext huser hid
  · exact congrArg address (Option.some.inj hq).symm

theorem patterns_recordMatch (now : Time) (p : Pattern) (s : PatternStore) :
    (s.recordMatch now p).2.patterns = (s.withUse now p).patterns := by
  rcases recordMatch_inv now p s with ⟨-, h⟩ | ⟨-, guards, guardCount, scheduled, -, h⟩ <;> rw [h]

theorem map_address_withUse (now : Time) (p : Pattern) (s : PatternStore) :
    (s.withUse now p).patterns.map address = s.patterns.map address :=
  Keyed.map_update_const address rfl

theorem map_address_apply (now : Time) (user query : String) (embedding : Option Embedding)
    (s : PatternStore) :
    (s.apply now user query embedding).2.patterns.map address = s.patterns.map address := by
  rcases apply_inv now user query embedding s with ⟨-, hs⟩ | ⟨q, -, hs, -⟩
  · rw [hs]
  · rw [hs, patterns_recordMatch, map_address_withUse]

theorem evict_sublist (user : String) (s : PatternStore) :
    (s.evict user).patterns.Sublist s.patterns := by
  unfold evict
  generalize (s.ofUser user).length - s.capacity = n
  induction n with
  | zero => exact .refl _
  | succ n ih =>
    refine List.Sublist.trans ?_ ih
    rw [Nat.repeat]
    unfold withoutLeast
    split
    · exact .refl _
    · exact List.filter_sublist

theorem nodup_insert (h : (s.patterns.map address).Nodup) (mergeAlike : Bool) (p : Pattern) :
    ((s.insert mergeAlike p).2.patterns.map address).Nodup := by
  rcases insert_cases mergeAlike p s with ⟨-, hinsert⟩ | ⟨q, survivor, loser, -, -, hinsert⟩ <;>
    rw [hinsert]
  · exact (Keyed.nodup_put address h p).sublist ((evict_sublist p.user _).map address)
  · exact Keyed.nodup_put address (Keyed.nodup_remove address _ h) _

end TieredMemory.PatternStore
