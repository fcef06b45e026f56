import Mathlib.Data.List.Perm.Basic
import Mathlib.Data.String.Basic
import Mathlib.Order.Lattice
import TieredMemory.Order

/-!
# Ranked lists

A list in descending order of a key has the same members as before, greater keys first
(`pairwise_descending`), and those with one key in the order in which they stood
(`filter_descending`). So of two members the first one has the greater key, or the same key and the
earlier place (`pairwise_descending_or`, `pairwise_descending_above`). Ascending order is descending order by the dual of the key.
What is taken from the front of a ranking is ahead of all the rest (`Leading`); what is taken from
its end is a suffix of what a greater number takes (`lastOf_suffix`). Distinct texts come in strictly
ascending order (`pairwise_sortedDistinct`).
-/

namespace TieredMemory

theorem descending_perm {α : Type} (before : α → α → Bool) (xs : List α) :
    (descending before xs).Perm xs :=
  List.mergeSort_perm xs _

theorem ascending_perm {α : Type} (before : α → α → Bool) (xs : List α) :
    (ascending before xs).Perm xs :=
  List.mergeSort_perm xs _

/-- Ranking commutes with a map that keeps the comparisons of the members. -/
theorem map_descending {α β : Type} {before : α → α → Bool} (before' : β → β → Bool) {f : α → β}
    {xs : List α} (h : ∀ a ∈ xs, ∀ b ∈ xs, before a b = before' (f a) (f b)) :
    (descending before xs).map f = descending before' (xs.map f) := by
  refine List.map_mergeSort fun a ha b hb => ?_
  rw [h a ha b hb]

theorem descending_congr {α : Type} {before before' : α → α → Bool} {xs : List α}
    (h : ∀ a ∈ xs, ∀ b ∈ xs, before a b = before' a b) :
    descending before xs = descending before' xs := by
  simpa using map_descending before' (f := id) h

theorem map_ascending {α β : Type} {before : α → α → Bool} (before' : β → β → Bool) {f : α → β}
    {xs : List α} (h : ∀ a ∈ xs, ∀ b ∈ xs, before a b = before' (f a) (f b)) :
    (ascending before xs).map f = ascending before' (xs.map f) := by
  refine List.map_mergeSort fun a ha b hb => ?_
  rw [h b hb a ha]

variable {α κ : Type} [LinearOrder κ] (key : α → κ)

/-- No member that is ranked higher is put after another one. -/
theorem notBelow_iff (a b : α) : (!decide (key a < key b)) = true ↔ key b ≤ key a := by
  simp

theorem notBelow_trans (a b c : α) (hab : (!decide (key a < key b)) = true)
    (hbc : (!decide (key b < key c)) = true) : (!decide (key a < key c)) = true := by
  rw [notBelow_iff] at hab hbc ⊢
  exact le_trans hbc hab

theorem notBelow_total (a b : α) :
    ((!decide (key a < key b)) || !decide (key b < key a)) = true := by
  rw [Bool.or_eq_true, notBelow_iff, notBelow_iff]
  exact le_total (key b) (key a)

theorem pairwise_descending (xs : List α) :
    (descending (fun a b => decide (key a < key b)) xs).Pairwise fun a b => key b ≤ key a :=
  (List.pairwise_mergeSort (notBelow_trans key) (notBelow_total key) xs).imp
    (notBelow_iff key _ _).1

/-- Members with the same key stay in their order. -/
theorem filter_descending (k : κ) (xs : List α) :
    (descending (fun a b => decide (key a < key b)) xs).filter (fun a => decide (key a = k)) =
      xs.filter fun a => decide (key a = k) := by
  have hequal : (xs.filter fun a => decide (key a = k)).Pairwise
      fun a b => (!decide (key a < key b)) = true := by
    refine List.pairwise_of_forall_mem_list fun a ha b hb => ?_
    simp only [List.mem_filter, decide_eq_true_eq] at ha hb
    simp [ha.2, hb.2]
  have hsub : (xs.filter fun a => decide (key a = k)).Sublist
      (descending (fun a b => decide (key a < key b)) xs) :=
    List.sublist_mergeSort (notBelow_trans key) (notBelow_total key) hequal List.filter_sublist
  have hfiltered := hsub.filter fun a => decide (key a = k)
  rw [List.filter_filter] at hfiltered
  simp only [Bool.and_self] at hfiltered
  exact (hfiltered.eq_of_length ((descending_perm _ xs).filter _).length_eq.symm).symm

/-- Of two members the first one has the greater key, or the same key and the earlier place. -/
theorem pairwise_descending_or (xs : List α) :
    (descending (fun a b => decide (key a < key b)) xs).Pairwise
      fun a b => key b < key a ∨ key b = key a ∧ [a, b].Sublist xs := by
  refine List.pairwise_iff_forall_sublist.2 fun {a b} hab => ?_
  have hle := List.pairwise_iff_forall_sublist.1 (pairwise_descending key xs) hab
  rcases lt_or_eq_of_le hle with hlt | heq
  · exact .inl hlt
  · refine .inr ⟨heq, ?_⟩
    have hsame := hab.filter fun c => decide (key c = key a)
    rw [filter_descending key (key a) xs] at hsame
    simp only [List.filter_cons, heq, decide_true, if_true, List.filter_nil] at hsame
    exact hsame.trans List.filter_sublist

/-- Where the key says which one of two members is above, the first one is above, or neither is and it
has the earlier place in the list that they were chosen from. -/
theorem pairwise_descending_above {above : α → α → Prop} {xs stored : List α}
    (h : ∀ a ∈ xs, ∀ b ∈ xs, above a b ↔ key b < key a) (hsub : xs.Sublist stored) :
    (descending (fun a b => decide (key a < key b)) xs).Pairwise
      fun a b => above a b ∨ ¬ above b a ∧ [a, b].Sublist stored := by
  have hperm := descending_perm (fun a b => decide (key a < key b)) xs
  refine (pairwise_descending_or key xs).imp_of_mem fun {a b} ha hb hranked => ?_
  have ha := hperm.mem_iff.1 ha
  have hb := hperm.mem_iff.1 hb
  rcases hranked with hlt | ⟨heq, hplace⟩
  · exact .inl ((h a ha b hb).2 hlt)
  · refine .inr ⟨fun habove => ?_, hplace.trans hsub⟩
    exact ((h b hb a ha).1 habove).ne heq.symm

/-- Of two members the first one has the lesser key, or the same key and the earlier place. -/
theorem pairwise_ascending_or (xs : List α) :
    (ascending (fun a b => decide (key a < key b)) xs).Pairwise
      fun a b => key a < key b ∨ key a = key b ∧ [a, b].Sublist xs := by
  have hdual : ascending (fun a b => decide (key a < key b)) xs =
      descending (fun a b => decide (OrderDual.toDual (key a) < OrderDual.toDual (key b))) xs := by
    simp only [ascending, descending, OrderDual.toDual_lt_toDual]
  rw [hdual]
  refine (pairwise_descending_or (OrderDual.toDual ∘ key) xs).imp fun h => ?_
  rcases h with hlt | ⟨heq, hsub⟩
  · exact .inl (OrderDual.toDual_lt_toDual.1 hlt)
  · exact .inr ⟨(OrderDual.toDual_inj.1 heq).symm, hsub⟩

/-! ### The ends of a ranking -/

section

variable {α : Type} {P : α → α → Prop} {n : Nat} {hits ranked : List α}

/-- What is returned of the hits are the first `n` when they are put in an order, or all if there are
fewer. -/
structure Leading (P : α → α → Prop) (n : Nat) (hits found : List α) : Prop where
  first : ∃ rest, (found ++ rest).Perm hits ∧ (found ++ rest).Pairwise P
  length : found.length = min n hits.length
  omitted : ∀ b ∈ hits, b ∉ found → ∀ a ∈ found, P a b

theorem leading_take (hperm : ranked.Perm hits) (hranked : ranked.Pairwise P) (n : Nat) :
    Leading P n hits (ranked.take n) where
  first := ⟨ranked.drop n, by rwa [List.take_append_drop], by rwa [List.take_append_drop]⟩
  length := by rw [List.length_take, hperm.length_eq]
  omitted b hb hout a ha := by
    -- what is left out stands behind everything that is taken
    have hmem := hperm.mem_iff.2 hb
    rw [← List.take_append_drop n ranked] at hmem hranked
    have hrest : b ∈ ranked.drop n := (List.mem_append.1 hmem).resolve_left hout
    exact (List.pairwise_append.1 hranked).2.2 a ha b hrest

/-- Where a hit is left out there was no room for it. -/
theorem Leading.length_eq {found : List α} (h : Leading P n hits found) {b : α} (hb : b ∈ hits)
    (hout : b ∉ found) : found.length = n := by
  obtain ⟨rest, hperm, -⟩ := h.first
  have hrest : b ∈ rest := (List.mem_append.1 (hperm.mem_iff.2 hb)).resolve_left hout
  have hpos := List.length_pos_of_mem hrest
  have hall := hperm.length_eq
  have hlength := h.length
  rw [List.length_append] at hall
  omega

/-- Nothing is taken where nothing is stored or nothing is wanted. -/
theorem take_eq_nil_of_idle {stored : List α} (hperm : ranked.Perm hits) (hsub : hits.Sublist stored)
    (h : (stored.isEmpty || decide (n = 0)) = true) : ranked.take n = [] := by
  rcases Bool.or_eq_true_iff.1 h with hempty | hzero
  · rw [List.isEmpty_iff.1 hempty, List.sublist_nil] at hsub
    rw [hsub] at hperm
    rw [hperm.eq_nil, List.take_nil]
  · rw [of_decide_eq_true hzero, List.take_zero]

theorem length_lastOf (n : Nat) (xs : List α) : (lastOf n xs).length = min n xs.length := by
  rw [lastOf, List.length_drop]
  omega

theorem take_append_lastOf (n : Nat) (xs : List α) : xs.take (xs.length - n) ++ lastOf n xs = xs :=
  List.take_append_drop _ xs

/-- Fewer of the last members are the last ones of more of them. -/
theorem lastOf_suffix {m n : Nat} (h : m ≤ n) (xs : List α) : lastOf m xs <:+ lastOf n xs :=
  List.drop_suffix_drop_left xs (by omega)

end

/-! ### Distinct texts in order -/

theorem nodup_eraseDups (xs : List String) : xs.eraseDups.Nodup := by
  induction h : xs.length using Nat.strongRecOn generalizing xs with
  | _ n ih =>
    cases xs with
    | nil => simp
    | cons a r =>
      rw [List.eraseDups_cons, List.nodup_cons]
      refine ⟨by simp, ih _ ?_ _ rfl⟩
      have := List.length_filter_le (fun b => !b == a) r
      simp only [List.length_cons] at h
      omega

theorem pairwise_lt_eraseDups {xs : List String} (h : xs.Pairwise (· ≤ ·)) :
    xs.eraseDups.Pairwise (· < ·) := by
  induction hn : xs.length using Nat.strongRecOn generalizing xs with
  | _ n ih =>
    cases xs with
    | nil => simp
    | cons a r =>
      obtain ⟨ha, hr⟩ := List.pairwise_cons.1 h
      rw [List.eraseDups_cons, List.pairwise_cons]
      constructor
      · intro b hb
        rw [List.mem_eraseDups, List.mem_filter] at hb
        have hne : b ≠ a := by simpa using hb.2
        exact lt_of_le_of_ne (ha b hb.1) hne.symm
      · refine ih _ ?_ (hr.filter _) rfl
        have := List.length_filter_le (fun b => !b == a) r
        simp only [List.length_cons] at hn
        omega

theorem mem_sortedDistinct {s : String} {xs : List String} : s ∈ sortedDistinct xs ↔ s ∈ xs := by
  rw [sortedDistinct, List.mem_eraseDups]
  exact (ascending_perm _ xs).mem_iff

theorem pairwise_sortedDistinct (xs : List String) : (sortedDistinct xs).Pairwise (· < ·) := by
  refine pairwise_lt_eraseDups ((pairwise_ascending_or id xs).imp fun h => ?_)
  rcases h with hlt | ⟨heq, -⟩
  · exact le_of_lt hlt
  · exact le_of_eq heq

end TieredMemory
