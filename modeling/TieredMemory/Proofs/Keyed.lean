import Mathlib.Data.List.Forall2
import Mathlib.Data.List.Perm.Basic
import Mathlib.Data.List.Nodup
import TieredMemory.Keyed

/-!
# Keyed lists up to their order

Where keys are distinct, a member can be brought to the front of a list, and what putting, changing
and removing do is said about the other members: they stay as they are.
-/

namespace TieredMemory.Keyed

variable {α κ : Type} [DecidableEq κ] (key : α → κ) {xs : List α}

theorem mem_put {a b : α} (h : b ∈ put key a xs) : b = a ∨ b ∈ xs := by
  induction xs with
  | nil => exact .inl (List.mem_singleton.1 h)
  | cons c r ih =>
    rw [put] at h
    split at h
    · exact (List.mem_cons.1 h).imp_right (List.mem_cons_of_mem c)
    · rcases List.mem_cons.1 h with rfl | h
      · exact .inr List.mem_cons_self
      · exact (ih h).imp_right (List.mem_cons_of_mem c)

theorem put_of_notMem {a : α} (h : key a ∉ xs.map key) : put key a xs = xs ++ [a] := by
  induction xs with
  | nil => rfl
  | cons b r ih =>
    obtain ⟨hb, hr⟩ := not_or.1 (mt List.mem_cons.2 h)
    rw [put, if_neg (Ne.symm hb), ih hr, List.cons_append]

theorem map_put_of_mem {a : α} (h : key a ∈ xs.map key) : (put key a xs).map key = xs.map key := by
  induction xs with
  | nil => cases h
  | cons b r ih =>
    rw [put]
    split
    · next hb => rw [List.map_cons, List.map_cons, hb]
    · next hb =>
      have hr : key a ∈ r.map key := (List.mem_cons.1 h).resolve_left (Ne.symm hb)
      rw [List.map_cons, List.map_cons, ih hr]

/-- The keys after a member has been put: the same, or one more at the end. -/
theorem map_put (a : α) :
    (put key a xs).map key = if key a ∈ xs.map key then xs.map key else xs.map key ++ [key a] := by
  split
  · next h => exact map_put_of_mem key h
  · next h => rw [put_of_notMem key h, List.map_append, List.map_singleton]

theorem length_put_le (a : α) : (put key a xs).length ≤ xs.length + 1 := by
  rw [← List.length_map key, map_put]
  split <;> simp

section

variable {κ' : Type} [DecidableEq κ'] (key' : α → κ') {k : κ} {k' : κ'}

/-- Another key that tells the members apart as well. -/
theorem put_congr {a : α} (h : ∀ b ∈ xs, key b = key a ↔ key' b = key' a) :
    put key a xs = put key' a xs := by
  induction xs with
  | nil => rfl
  | cons b r ih =>
    obtain ⟨hb, hr⟩ := List.forall_mem_cons.1 h
    rw [put, put, ih hr]
    simp only [hb]

theorem update_congr (f : α → α) (h : ∀ b ∈ xs, key b = k ↔ key' b = k') :
    update key k f xs = update key' k' f xs := by
  refine List.map_congr_left fun b hb => ?_
  simp only [h b hb]

theorem find?_congr (h : ∀ b ∈ xs, key b = k ↔ key' b = k') : find? key k xs = find? key' k' xs := by
  induction xs with
  | nil => rfl
  | cons b r ih =>
    obtain ⟨hb, hr⟩ := List.forall_mem_cons.1 h
    unfold find? at ih ⊢
    rw [List.find?_cons, List.find?_cons, ih hr]
    simp only [hb]

end

/-- What is put is among the members with the keys, or it makes no difference to them. -/
theorem filter_put (q : κ → Bool) (a : α) :
    (put key a xs).filter (fun b => q (key b)) =
      if q (key a) then put key a (xs.filter fun b => q (key b))
      else xs.filter fun b => q (key b) := by
  induction xs with
  | nil => by_cases ha : q (key a) <;> simp [put, ha]
  | cons b r ih =>
    rw [put]
    by_cases hb : key b = key a
    · by_cases ha : q (key a) <;> simp [hb, ha, put]
    · by_cases ha : q (key a) <;> by_cases hq : q (key b) <;> simp [hb, ha, hq, put, ih]

/-- A change at a key that keeps the keys. -/
theorem filter_update {f : α → α} (hf : ∀ a, key (f a) = key a) (q : κ → Bool) (k : κ) :
    (update key k f xs).filter (fun b => q (key b)) =
      if q k then update key k f (xs.filter fun b => q (key b))
      else xs.filter fun b => q (key b) := by
  induction xs with
  | nil => simp [update]
  | cons b r ih =>
    unfold update at ih ⊢
    by_cases hb : key b = k
    · subst hb
      by_cases hq : q (key b) <;> simp [hf, hq, ih]
    · by_cases hq : q (key b) <;> by_cases hk : q k <;> simp [hb, hq, hk, ih]

/-- A change that keeps the keys is made to what is found. -/
theorem find?_map {f : α → α} (hf : ∀ a, key (f a) = key a) (k : κ) :
    find? key k (xs.map f) = (find? key k xs).map f := by
  unfold find?
  rw [List.find?_map]
  simp only [Function.comp_def, hf]

theorem remove_of_notMem {k : κ} (h : k ∉ xs.map key) : remove key k xs = xs := by
  refine List.filter_eq_self.2 fun a ha => ?_
  have hne : key a ≠ k := fun e => h (e ▸ List.mem_map_of_mem ha)
  simpa using hne

theorem remove_comm (j k : κ) : remove key j (remove key k xs) = remove key k (remove key j xs) := by
  unfold remove
  rw [List.filter_filter, List.filter_filter]
  simp only [Bool.and_comm]

theorem notMem_remove (k : κ) : k ∉ (remove key k xs).map key := by
  simp [remove]

theorem nodup_remove (k : κ) (h : (xs.map key).Nodup) : ((remove key k xs).map key).Nodup :=
  h.sublist (List.filter_sublist.map key)

theorem remove_cons_self (a : α) : remove key (key a) (a :: xs) = remove key (key a) xs := by
  simp [remove]

theorem remove_cons_of_ne {a : α} {k : κ} (h : key a ≠ k) :
    remove key k (a :: xs) = a :: remove key k xs := by
  simp [remove, h]

/-- A member is taken out from among the others. -/
theorem remove_middle {l r : List α} {a : α} (h : ((l ++ a :: r).map key).Nodup) :
    remove key (key a) (l ++ a :: r) = l ++ r := by
  rw [List.map_append, List.map_cons, List.nodup_middle, List.nodup_cons, ← List.map_append] at h
  have hothers := remove_of_notMem key h.1
  unfold remove at hothers ⊢
  rw [List.filter_append] at hothers ⊢
  simpa using hothers

/-- A member stands before the others. -/
theorem perm_cons_remove (h : (xs.map key).Nodup) {a : α} (ha : a ∈ xs) :
    xs.Perm (a :: remove key (key a) xs) := by
  induction xs with
  | nil => cases ha
  | cons b r ih =>
    obtain ⟨hb, hr⟩ := List.nodup_cons.1 h
    rcases List.mem_cons.1 ha with rfl | ha
    · rw [remove_cons_self, remove_of_notMem key hb]
    · have hne : key b ≠ key a := fun e => hb (e ▸ List.mem_map_of_mem ha)
      rw [remove_cons_of_ne key hne]
      exact ((ih hr ha).cons b).trans (.swap a b _)

/-- What has been put stands before the others. -/
theorem put_perm (h : (xs.map key).Nodup) (a : α) :
    (put key a xs).Perm (a :: remove key (key a) xs) := by
  induction xs with
  | nil => exact .refl _
  | cons b r ih =>
    obtain ⟨hb, hr⟩ := List.nodup_cons.1 h
    rw [put]
    split
    · next he => rw [← he, remove_cons_self, remove_of_notMem key hb]
    · next hne =>
      rw [remove_cons_of_ne key hne]
      exact ((ih hr).cons b).trans (.swap a b _)

theorem nodup_put (h : (xs.map key).Nodup) (a : α) : ((put key a xs).map key).Nodup := by
  rw [((put_perm key h a).map key).nodup_iff, List.map_cons, List.nodup_cons]
  exact ⟨notMem_remove key (key a), nodup_remove key (key a) h⟩

/-- A member that takes the place of those with its key. -/
theorem map_update_const {k : κ} {b : α} (hb : key b = k) :
    (update key k (fun _ => b) xs).map key = xs.map key := by
  unfold update
  rw [List.map_map]
  refine List.map_congr_left fun a _ => ?_
  simp only [Function.comp]
  split
  · next ha => rw [hb, ha]
  · rfl

omit [DecidableEq κ] in
/-- Members that keep their keys or go. -/
theorem map_filterMap_sublist {f : α → Option α} (hf : ∀ a ∈ xs, ∀ b, f a = some b → key b = key a) :
    ((xs.filterMap f).map key).Sublist (xs.map key) := by
  induction xs with
  | nil => exact .refl _
  | cons a r ih =>
    obtain ⟨ha, hr⟩ := List.forall_mem_cons.1 hf
    rw [List.filterMap_cons]
    cases hfa : f a with
    | none => exact (ih hr).cons (key a)
    | some b =>
      rw [List.map_cons, List.map_cons, ha b hfa]
      exact (ih hr).cons_cons (key a)

theorem update_of_notMem {k : κ} (f : α → α) (h : k ∉ xs.map key) : update key k f xs = xs := by
  have hkeep : ∀ a ∈ xs, (if key a = k then f a else a) = a := by
    intro a ha
    rw [if_neg]
    rintro rfl
    exact h (List.mem_map_of_mem ha)
  rw [update, List.map_congr_left hkeep, List.map_id']

/-- What has been changed stands before the others. -/
theorem update_perm (h : (xs.map key).Nodup) (f : α → α) {a : α} (ha : a ∈ xs) :
    (update key (key a) f xs).Perm (f a :: remove key (key a) xs) := by
  have hrest : update key (key a) f (remove key (key a) xs) = remove key (key a) xs :=
    update_of_notMem key f (notMem_remove key (key a))
  have hperm := (perm_cons_remove key h ha).map fun b => if key b = key a then f b else b
  rw [List.map_cons, if_pos rfl] at hperm
  unfold update at hrest ⊢
  rwa [hrest] at hperm

/-- What has been changed is one member, and the others are where they were. -/
theorem forall₂_update (h : (xs.map key).Nodup) (f : α → α) {a : α} (ha : a ∈ xs) :
    List.Forall₂ (fun b b' => b = a ∧ b' = f a ∨ b ≠ a ∧ b' = b) xs (update key (key a) f xs) := by
  refine List.forall₂_map_right_iff.2 (List.forall₂_same.2 fun b hb => ?_)
  split
  · next hkey =>
    obtain rfl := List.inj_on_of_nodup_map h hb ha hkey
    exact .inl ⟨rfl, rfl⟩
  · next hkey => exact .inr ⟨fun e => hkey (congrArg key e), rfl⟩

theorem eraseP_eq_remove [BEq κ] [LawfulBEq κ] (h : (xs.map key).Nodup) (k : κ) :
    (xs.eraseP fun a => key a == k) = remove key k xs := by
  induction xs with
  | nil => rfl
  | cons b r ih =>
    obtain ⟨hb, hr⟩ := List.nodup_cons.1 h
    by_cases hk : key b = k
    · subst hk
      rw [remove_cons_self, remove_of_notMem key hb]
      simp
    · rw [remove_cons_of_ne key hk, ← ih hr]
      simp [hk]

end TieredMemory.Keyed
