import Mathlib.Data.List.Nodup
import Mathlib.Order.Lattice
import TieredMemory.Order

/-!
# Keeping the greatest members of a growing list

`Greatest key k xs ys` says that `ys` are the `k` members of `xs` with the greatest keys, in the order
of `xs`, or all of them if there are fewer. When one more member comes, the least of `ys` and the new
one may be dropped (`Greatest.snoc_drop`), so that dropping the least member at every overflow keeps
the greatest ones of all. They are the members that fewer than `k` others exceed
(`Greatest.eq_filter`).
-/

namespace TieredMemory

variable {α κ : Type} [LinearOrder κ] {key : α → κ} {k : Nat} {xs ys : List α}

/-- The `k` members with the greatest keys, in their order, or all if there are fewer. -/
structure Greatest (key : α → κ) (k : Nat) (xs ys : List α) : Prop where
  sublist : ys.Sublist xs
  length : ys.length = min k xs.length
  above : ∀ x ∈ xs, x ∉ ys → ∀ y ∈ ys, key x < key y

theorem Greatest.nil (key : α → κ) (k : Nat) : Greatest key k [] [] :=
  ⟨List.Sublist.refl _, by simp, by simp⟩

/-- As long as there is room the new member is kept. -/
theorem Greatest.snoc (h : Greatest key k xs ys) (hroom : ys.length < k) (x : α) :
    Greatest key k (xs ++ [x]) (ys ++ [x]) := by
  have hall : ys = xs := h.sublist.eq_of_length (by have := h.length; omega)
  subst hall
  refine ⟨List.Sublist.refl _, ?_, fun a ha hna => absurd ha hna⟩
  rw [List.length_append, List.length_singleton]
  omega

/-- Where there is no room the least member is dropped. -/
theorem Greatest.snoc_drop (h : Greatest key k xs ys) (hfull : ys.length = k) {x m : α}
    {l r : List α} (hsplit : ys ++ [x] = l ++ m :: r) (hmin : ∀ y ∈ l ++ r, key m < key y) :
    Greatest key k (xs ++ [x]) (l ++ r) := by
  have hdropped : (l ++ r).Sublist (ys ++ [x]) := by
    rw [hsplit]
    exact (List.sublist_cons_self m r).append_left l
  have hlength : (l ++ r).length = ys.length := by
    have := congrArg List.length hsplit
    simp only [List.length_append, List.length_cons, List.length_nil] at this ⊢
    omega
  refine ⟨hdropped.trans (h.sublist.append_right [x]), ?_, fun d hd hnd y hy => ?_⟩
  · rw [hlength, hfull, List.length_append]
    have := h.length
    omega
  · by_cases hdm : d = m
    · rw [hdm]
      exact hmin y hy
    have hnd' : d ∉ ys ++ [x] := by
      rw [hsplit]
      simp only [List.mem_append, List.mem_cons] at hnd ⊢
      tauto
    simp only [List.mem_append, List.mem_singleton, not_or] at hd hnd'
    have hdx : d ∈ xs := hd.resolve_right hnd'.2
    have hbelow := h.above d hdx hnd'.1
    rcases List.mem_append.1 (hdropped.subset hy) with hy' | hy'
    · exact hbelow y hy'
    -- the new member is kept, so the dropped one was among the old ones
    · have hm : m ∈ ys ++ [x] := by simp [hsplit]
      rw [List.mem_singleton.1 hy'] at hy ⊢
      have hmx : m ≠ x := fun e => absurd (hmin x hy) (e ▸ lt_irrefl _)
      rcases List.mem_append.1 hm with hm | hm
      · exact (hbelow m hm).trans (hmin x hy)
      · exact absurd (List.mem_singleton.1 hm) hmx

/-- A member is among the greatest if fewer than `k` others exceed it, and only then. -/
theorem Greatest.mem_iff (h : Greatest key k xs ys) (hn : xs.Nodup) {x : α} (hx : x ∈ xs) :
    x ∈ ys ↔ xs.countP (fun y => key x < key y) < k := by
  classical
  rw [List.countP_eq_length_filter]
  constructor
  · intro hxy
    have hsub : xs.filter (fun y => key x < key y) ⊆ ys.erase x := by
      intro y hy
      simp only [List.mem_filter, decide_eq_true_eq] at hy
      have hne : y ≠ x := fun e => absurd hy.2 (e ▸ lt_irrefl _)
      refine (List.mem_erase_of_ne hne).2 ?_
      by_contra hyn
      exact absurd (h.above y hy.1 hyn x hxy) (not_lt_of_gt hy.2)
    have hle := (hn.filter fun y => decide (key x < key y)).length_le_of_subset hsub
    rw [List.length_erase_of_mem hxy] at hle
    have := List.length_pos_of_mem hxy
    have := h.length
    omega
  · intro hlt
    by_contra hxn
    have hsub : ys ⊆ xs.filter fun y => key x < key y := by
      intro y hy
      simp only [List.mem_filter, decide_eq_true_eq]
      exact ⟨h.sublist.subset hy, h.above x hx hxn y hy⟩
    have hle := (h.sublist.nodup hn).length_le_of_subset hsub
    have hshort : ys.length < xs.length := by
      rcases Nat.lt_or_eq_of_le h.sublist.length_le with hlt | heq
      · exact hlt
      · exact absurd (h.sublist.eq_of_length heq ▸ hx) hxn
    have := h.length
    omega

theorem Greatest.eq_filter (h : Greatest key k xs ys) (hn : xs.Nodup) :
    ys = xs.filter fun x => xs.countP (fun y => key x < key y) < k := by
  classical
  rw [← List.filter_congr fun x hx => decide_eq_decide.2 (h.mem_iff hn hx)]
  refine List.Sublist.eq_of_length_le ?_ ?_
  · have hkept := h.sublist.filter fun x => decide (x ∈ ys)
    rwa [List.filter_eq_self.2 fun x hx => decide_eq_true hx] at hkept
  · refine (hn.filter _).length_le_of_subset fun x hx => ?_
    simpa using (List.mem_filter.1 hx).2

/-! ### The least member -/

theorem leastFrom_mem (before : α → α → Bool) (best : α) (r : List α) :
    leastFrom before best r ∈ best :: r := by
  induction r generalizing best with
  | nil => simp [leastFrom]
  | cons a r ih =>
    rw [leastFrom]
    split
    · exact List.mem_cons_of_mem _ (ih a)
    · have := ih best
      grind

/-- By a linear key, the member found is least. -/
theorem key_leastFrom_le (key : α → κ) (best : α) (r : List α) :
    ∀ y ∈ best :: r, key (leastFrom (fun a b => decide (key a < key b)) best r) ≤ key y := by
  induction r generalizing best with
  | nil => simp [leastFrom]
  | cons a r ih =>
    rw [leastFrom]
    split
    · rename_i hab
      have hab : key a < key best := by simpa using hab
      intro y hy
      rcases List.mem_cons.1 hy with rfl | hy
      · exact (ih a a (by simp)).trans hab.le
      · exact ih a y hy
    · rename_i hab
      have hab : key best ≤ key a := by simpa using hab
      intro y hy
      rcases List.mem_cons.1 hy with rfl | hy
      · exact ih y y (by simp)
      · rcases List.mem_cons.1 hy with rfl | hy
        · exact (ih best best (by simp)).trans hab
        · exact ih best y (List.mem_cons_of_mem _ hy)

/-- The member found is the first of the least ones. -/
theorem leastFrom_first (key : α → κ) (best : α) (r : List α) :
    ∃ l l', best :: r = l ++ leastFrom (fun a b => decide (key a < key b)) best r :: l' ∧
      (∀ y ∈ l, key (leastFrom (fun a b => decide (key a < key b)) best r) < key y) ∧
      ∀ y ∈ l', key (leastFrom (fun a b => decide (key a < key b)) best r) ≤ key y := by
  have hleast := key_leastFrom_le key best r
  induction r generalizing best with
  | nil => exact ⟨[], [], rfl, by simp, by simp⟩
  | cons a r ih =>
    rw [leastFrom] at hleast ⊢
    split at hleast <;> rename_i hab
    · rw [if_pos hab]
      have hab : key a < key best := by simpa using hab
      obtain ⟨l, l', hsplit, hl, hl'⟩ := ih a (key_leastFrom_le key a r)
      refine ⟨best :: l, l', by rw [hsplit, List.cons_append], ?_, hl'⟩
      exact List.forall_mem_cons.2 ⟨(hleast a (by simp)).trans_lt hab, hl⟩
    · rw [if_neg hab]
      have hab : key best ≤ key a := by simpa using hab
      obtain ⟨l, l', hsplit, hl, hl'⟩ := ih best (key_leastFrom_le key best r)
      cases l with
      | nil =>
        -- the best one so far stays, so the new member stands behind it
        obtain ⟨hbest, rfl⟩ := List.cons.inj hsplit
        refine ⟨[], a :: r, by rw [← hbest, List.nil_append], by simp, ?_⟩
        exact List.forall_mem_cons.2 ⟨hleast a (by simp), hl'⟩
      | cons b l =>
        obtain ⟨rfl, hr⟩ := List.cons.inj hsplit
        refine ⟨best :: a :: l, l', congrArg (best :: a :: ·) hr, ?_, hl'⟩
        obtain ⟨hbest, hl⟩ := List.forall_mem_cons.1 hl
        exact List.forall_mem_cons.2 ⟨hbest, List.forall_mem_cons.2 ⟨hbest.trans_le hab, hl⟩⟩

/-- Where keys are distinct, the member found is less than all others. -/
theorem exists_split_leastFrom {best : α} {r : List α} (hn : ((best :: r).map key).Nodup) :
    ∃ l l', best :: r = l ++ leastFrom (fun a b => decide (key a < key b)) best r :: l' ∧
      ∀ y ∈ l ++ l', key (leastFrom (fun a b => decide (key a < key b)) best r) < key y := by
  obtain ⟨l, l', hsplit, hl, hl'⟩ := leastFrom_first key best r
  generalize leastFrom (fun a b => decide (key a < key b)) best r = m at hsplit hl hl' ⊢
  refine ⟨l, l', hsplit, fun y hy => ?_⟩
  rcases List.mem_append.1 hy with hy | hy
  · exact hl y hy
  · refine lt_of_le_of_ne (hl' y hy) fun e => ?_
    rw [hsplit, List.map_append, List.map_cons] at hn
    have hno := (List.nodup_cons.1 (List.Nodup.of_append_right hn)).1
    exact hno (e ▸ List.mem_map_of_mem hy)

omit [LinearOrder κ] in
/-- The member found depends on how the members compare. -/
theorem leastFrom_congr {before before' : α → α → Bool} {best : α} {r : List α}
    (h : ∀ a ∈ best :: r, ∀ b ∈ best :: r, before a b = before' a b) :
    leastFrom before best r = leastFrom before' best r := by
  induction r generalizing best with
  | nil => rfl
  | cons a r ih =>
    rw [leastFrom, leastFrom, h a (by simp) best (by simp)]
    refine ih fun b hb c hc => h b ?_ c ?_
    · split at hb <;> grind
    · split at hc <;> grind

end TieredMemory
