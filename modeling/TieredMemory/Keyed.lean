/-!
# Lists keyed by a part of their members

A table that keeps the order in which keys first came: putting a member takes the place of the one
with the same key, or the end. Main statements: what is found after putting, changing and removing,
and, where keys are distinct, that a key finds the one member that has it (`find?_eq_some_iff`).
-/

namespace TieredMemory.Keyed

variable {α κ : Type} [DecidableEq κ] (key : α → κ)

/-- The first member with the key. -/
def find? (k : κ) (xs : List α) : Option α := xs.find? fun a => key a = k

/-- Put a member in the place of the one with its key, or at the end. -/
def put (a : α) : List α → List α
  | [] => [a]
  | b :: r => if key b = key a then a :: r else b :: put a r

/-- Remove the members with the key. -/
def remove (k : κ) (xs : List α) : List α := xs.filter fun a => key a ≠ k

/-- Change the members with the key. -/
def update (k : κ) (f : α → α) (xs : List α) : List α :=
  xs.map fun a => if key a = k then f a else a

theorem find?_put (a : α) (k : κ) (xs : List α) :
    find? key k (put key a xs) = if key a = k then some a else find? key k xs := by
  induction xs with
  | nil => by_cases h : key a = k <;> simp [put, find?, h]
  | cons b r ih =>
    rw [put]
    by_cases hb : key b = key a
    · rw [if_pos hb]
      by_cases h : key a = k
      · simp [find?, h]
      · have : key b ≠ k := hb ▸ h
        simp [find?, h, this]
    · rw [if_neg hb]
      unfold find? at ih ⊢
      by_cases h : key b = k
      · have : key a ≠ k := fun h' => hb (h.trans h'.symm)
        simp [h, this]
      · simp [h, ih]

theorem find?_filter (q : κ → Bool) (k : κ) (xs : List α) :
    find? key k (xs.filter fun a => q (key a)) = if q k then find? key k xs else none := by
  induction xs with
  | nil => simp [find?]
  | cons b r ih =>
    unfold find? at ih ⊢
    by_cases h : key b = k
    · subst h
      by_cases hq : q (key b) <;> simp_all
    · by_cases hq : q (key b) <;> simp [h, hq, ih]

theorem find?_remove (k k' : κ) (xs : List α) :
    find? key k' (remove key k xs) = if k = k' then none else find? key k' xs := by
  unfold remove
  rw [find?_filter key (fun k' => decide (k' ≠ k)) k' xs]
  by_cases h : k = k'
  · simp [h]
  · simp [h, Ne.symm h]

theorem find?_eq_none_iff {k : κ} {xs : List α} : find? key k xs = none ↔ k ∉ xs.map key := by
  simp [find?]

/-- Where keys are distinct, a key finds the one member that has it. -/
theorem find?_eq_some_iff {k : κ} {a : α} {xs : List α} (h : (xs.map key).Nodup) :
    find? key k xs = some a ↔ a ∈ xs ∧ key a = k := by
  constructor
  · intro hf
    exact ⟨List.mem_of_find?_eq_some hf, by simpa using List.find?_some hf⟩
  · rintro ⟨ha, rfl⟩
    induction xs with
    | nil => cases ha
    | cons b r ih =>
      obtain ⟨hb, hr⟩ := List.nodup_cons.1 h
      rcases List.mem_cons.1 ha with rfl | ha
      · simp [find?]
      · have hne : key b ≠ key a := fun e => hb (e ▸ List.mem_map_of_mem ha)
        simpa [find?, hne] using ih hr ha

@[simp] theorem length_update (k : κ) (f : α → α) (xs : List α) :
    (update key k f xs).length = xs.length := List.length_map _

theorem eq_or_eq_of_mem_update {k : κ} {f : α → α} {b : α} {xs : List α}
    (h : b ∈ update key k f xs) : ∃ a ∈ xs, b = f a ∨ b = a := by
  obtain ⟨a, ha, rfl⟩ := List.mem_map.1 h
  refine ⟨a, ha, ?_⟩
  split
  · exact .inl rfl
  · exact .inr rfl

/-- A change that keeps the keys keeps the list of keys. -/
theorem map_update {f : α → α} (hf : ∀ a, key (f a) = key a) (k : κ) (xs : List α) :
    (update key k f xs).map key = xs.map key := by
  unfold update
  rw [List.map_map]
  refine List.map_congr_left fun a _ => ?_
  simp only [Function.comp]
  split
  · exact hf a
  · rfl

theorem find?_update {f : α → α} (hf : ∀ a, key (f a) = key a) (k k' : κ) (xs : List α) :
    find? key k' (update key k f xs) =
      (find? key k' xs).map fun a => if key a = k then f a else a := by
  unfold find? update
  rw [List.find?_map]
  congr 2
  funext a
  simp only [Function.comp]
  split
  · rw [hf]
  · rfl

theorem map_eraseP [BEq κ] [LawfulBEq κ] (k : κ) (xs : List α) :
    (xs.eraseP fun a => key a == k).map key = (xs.map key).erase k := by
  induction xs with
  | nil => rfl
  | cons a r ih =>
    by_cases h : key a = k
    · simp [h]
    · simp [h, ih]

end TieredMemory.Keyed
