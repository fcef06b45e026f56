import Mathlib.Data.List.Nodup
import TieredMemory.Pattern.Likeness
import TieredMemory.Proofs.Ranking
import TieredMemory.Proofs.Text.EditDistance

/-!
# Likeness is symmetric

Whether two patterns are alike does not depend on which one comes first, since neither the edit
distance of the names nor the share of common triggers does. So a search through the pairs of a list
in one order finds an alike pair if there is any.
-/

namespace TieredMemory

/-- The common members of two lists without repetitions, counted in either one. -/
theorem length_common_comm {a b : List String} (ha : a.Nodup) (hb : b.Nodup) :
    (a.filter b.contains).length = (b.filter a.contains).length := by
  refine ((List.perm_ext_iff_of_nodup (ha.filter _) (hb.filter _)).2 fun x => ?_).length_eq
  simp only [List.mem_filter, List.contains_iff_mem]
  exact and_comm

theorem jaccard_comm (a b : List String) : jaccard a b = jaccard b a := by
  unfold jaccard
  simp only [length_common_comm (nodup_eraseDups a) (nodup_eraseDups b),
    Nat.add_comm a.eraseDups.length]

namespace Pattern

theorem isAlike_comm (a b : Pattern) : a.isAlike b = b.isAlike a := by
  unfold isAlike
  rw [Text.similarity_comm, jaccard_comm]

instance : Std.Symm fun a b : Pattern => a.isAlike b = false :=
  ⟨fun a b h => (isAlike_comm b a).trans h⟩

theorem alikePair?_eq_none_iff {ps : List Pattern} :
    alikePair? ps = none ↔ ps.Pairwise fun a b => a.isAlike b = false := by
  induction ps with
  | nil => simp [alikePair?]
  | cons p r ih =>
    rw [alikePair?, List.pairwise_cons]
    cases h : r.find? (isAlike p) with
    | some q =>
      have hq := List.find?_some h
      have hr := List.mem_of_find?_eq_some h
      simp only [reduceCtorEq, false_iff, not_and]
      intro hno
      rw [hno q hr] at hq
      cases hq
    | none =>
      have hno : ∀ q ∈ r, p.isAlike q = false := by simpa using h
      exact ih.trans ⟨fun hr => ⟨hno, hr⟩, And.right⟩

end Pattern

end TieredMemory
