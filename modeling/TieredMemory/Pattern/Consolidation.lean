import TieredMemory.Keyed
import TieredMemory.Order
import TieredMemory.Pattern.Likeness

/-!
# Consolidating patterns

Consolidation looks through a list of patterns in the order of their age for the first alike pair,
merges it, and starts again until no two patterns are alike. Every merge takes one pattern away, so
there are fewer merges than patterns.
-/

namespace TieredMemory.Pattern

/-- Older, or as old with a lesser identifier. -/
def isOlder (a b : Pattern) : Bool :=
  if a.createdAt = b.createdAt then decide (a.id < b.id) else decide (a.createdAt < b.createdAt)

/-- The patterns with the loser of a pair merged into the survivor. -/
def mergePair (policy : ReinforcementPolicy) (a b : Pattern) (ps : List Pattern) : List Pattern :=
  let (survivor, loser) := ranked a b
  (Keyed.update Pattern.id survivor.id (fun p => p.merge policy loser) ps).eraseP fun p =>
    p.id == loser.id

/-- The patterns after one merge, if two are alike. -/
def mergeOnce? (policy : ReinforcementPolicy) (ps : List Pattern) : Option (List Pattern) :=
  (alikePair? (ascending isOlder ps)).map fun (a, b) => mergePair policy a b ps

theorem recordUsages_id (policy : ReinforcementPolicy) (time : Time) (n : Nat) (p : Pattern) :
    (recordUsages policy time n p).id = p.id := by
  induction n generalizing p with
  | zero => rfl
  | succ n ih => exact ih _

@[simp] theorem merge_id (policy : ReinforcementPolicy) (target source : Pattern) :
    (target.merge policy source).id = target.id := recordUsages_id ..

theorem length_mergePair (policy : ReinforcementPolicy) {a b : Pattern} {ps : List Pattern}
    (ha : a ∈ ps) (hb : b ∈ ps) : (mergePair policy a b ps).length + 1 = ps.length := by
  have hloser : (ranked a b).2 ∈ ps := by
    rcases ranked_eq_or a b with h | h <;> rw [h] <;> assumption
  have hkey : (ranked a b).2.id ∈ ps.map Pattern.id := List.mem_map_of_mem hloser
  rw [← Keyed.map_update Pattern.id fun p => merge_id policy p (ranked a b).2] at hkey
  obtain ⟨q, hq, hid⟩ := List.mem_map.1 hkey
  unfold mergePair
  rw [List.length_eraseP_of_mem hq (by simpa using hid), Keyed.length_update]
  have := List.length_pos_of_mem hloser
  omega

theorem length_of_mergeOnce? {policy : ReinforcementPolicy} {ps qs : List Pattern}
    (h : mergeOnce? policy ps = some qs) : qs.length + 1 = ps.length := by
  obtain ⟨⟨a, b⟩, hpair, rfl⟩ := Option.map_eq_some_iff.1 h
  have hsub := (sublist_of_alikePair? hpair).subset
  have hperm := List.mergeSort_perm ps fun a b => !isOlder b a
  exact length_mergePair policy (hperm.mem_iff.1 (hsub (by simp)))
    (hperm.mem_iff.1 (hsub (by simp)))

/-- Merge until no two patterns are alike, and count the merges. -/
def consolidate (policy : ReinforcementPolicy) (ps : List Pattern) : Nat × List Pattern :=
  match _h : mergeOnce? policy ps with
  | none => (0, ps)
  | some qs =>
    let (merges, kept) := consolidate policy qs
    (merges + 1, kept)
  termination_by ps.length
  decreasing_by
    have := length_of_mergeOnce? _h
    omega

end TieredMemory.Pattern
