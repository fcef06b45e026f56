import Mathlib.Order.Bounds.Basic
import TieredMemory.Proofs.Text.EditDistance

/-!
# The fewest edits

One edit inserts, deletes or replaces a single character anywhere in a text (`Edit`). An edit changes
the distance to any other text by one at most (`distance_le_of_edit`), so as many edits as the distance
says are needed, and choosing what the recursion of the distance chooses, so many are enough
(`edits_distance`). Hence the rows of the edit distance compute the least number of edits that lead from
one text to another (`editDistance_isLeast`).
-/

namespace TieredMemory.Text

/-- One edit leads from the first text to the second. -/
inductive Edit : List Char → List Char → Prop where
  /-- A character is inserted. -/
  | insert (l r : List Char) (c : Char) : Edit (l ++ r) (l ++ c :: r)
  /-- A character is deleted. -/
  | delete (l r : List Char) (c : Char) : Edit (l ++ c :: r) (l ++ r)
  /-- A character takes the place of another one. -/
  | substitute (l r : List Char) (c d : Char) : Edit (l ++ c :: r) (l ++ d :: r)

/-- So many edits, one after another, lead from the first text to the second. -/
inductive Edits : Nat → List Char → List Char → Prop where
  | refl (a : List Char) : Edits 0 a a
  | step {n : Nat} {a b c : List Char} : Edit a b → Edits n b c → Edits (n + 1) a c

variable {n : Nat} {a b c : List Char}

/-! ### Edits inside a longer text -/

theorem Edit.cons (h : Edit a b) (c : Char) : Edit (c :: a) (c :: b) := by
  cases h with
  | insert l r d => exact .insert (c :: l) r d
  | delete l r d => exact .delete (c :: l) r d
  | substitute l r d e => exact .substitute (c :: l) r d e

theorem Edits.cons (h : Edits n a b) (c : Char) : Edits n (c :: a) (c :: b) := by
  induction h with
  | refl a => exact .refl (c :: a)
  | step hedit _ ih => exact .step (hedit.cons c) ih

theorem Edit.reverse (h : Edit a b) : Edit a.reverse b.reverse := by
  cases h with
  | insert l r c => simpa using Edit.insert r.reverse l.reverse c
  | delete l r c => simpa using Edit.delete r.reverse l.reverse c
  | substitute l r c d => simpa using Edit.substitute r.reverse l.reverse c d

theorem Edits.reverse (h : Edits n a b) : Edits n a.reverse b.reverse := by
  induction h with
  | refl a => exact .refl a.reverse
  | step hedit _ ih => exact .step hedit.reverse ih

theorem Edits.min {m : Nat} (h : Edits m a b) (h' : Edits n a b) : Edits (min m n) a b := by
  rcases Nat.le_total m n with hle | hle
  · rwa [Nat.min_eq_left hle]
  · rwa [Nat.min_eq_right hle]

/-! ### As many edits as the distance are enough -/

theorem edits_of_nil (b : List Char) : Edits b.length [] b := by
  induction b with
  | nil => exact .refl []
  | cons d b ih => exact .step (.insert [] [] d) (ih.cons d)

theorem edits_to_nil (a : List Char) : Edits a.length a [] := by
  induction a with
  | nil => exact .refl []
  | cons c a ih => exact .step (.delete [] a c) ih

/-- The edits that the recursion of the distance chooses. -/
theorem edits_distance (a b : List Char) : Edits (distance a b) a b := by
  fun_induction distance a b with
  | case1 b => exact edits_of_nil b
  | case2 a => exact edits_to_nil a
  | case3 c a d b ihdelete ihinsert ihkeep =>
    have hdelete : Edits (distance a (d :: b) + 1) (c :: a) (d :: b) :=
      .step (.delete [] a c) ihdelete
    have hinsert : Edits (distance (c :: a) b + 1) (c :: a) (d :: b) :=
      .step (.insert [] (c :: a) d) (ihinsert.cons d)
    have hkeep : Edits (distance a b + if c = d then 0 else 1) (c :: a) (d :: b) := by
      split
      · next h =>
        subst h
        exact ihkeep.cons c
      · exact .step (.substitute [] a c d) (ihkeep.cons d)
    exact (hdelete.min hinsert).min hkeep

/-! ### As many edits as the distance are needed -/

theorem distance_cons_le (a b : List Char) (c : Char) : distance a (c :: b) ≤ distance a b + 1 := by
  cases a with
  | nil => simp
  | cons d a =>
    rw [distance_cons_cons]
    omega

theorem distance_le_cons (a b : List Char) (c : Char) : distance a b ≤ distance a (c :: b) + 1 := by
  induction a with
  | nil =>
    rw [distance_nil_left, distance_nil_left, List.length_cons]
    omega
  | cons d a ih =>
    have hgrow : distance (d :: a) b ≤ distance a b + 1 := by
      rw [distance_comm (d :: a), distance_comm a]
      exact distance_cons_le b a d
    rw [distance_cons_cons]
    omega

theorem distance_cons_le_cons (a b : List Char) (c d : Char) :
    distance a (d :: b) ≤ distance a (c :: b) + 1 := by
  induction a with
  | nil => simp
  | cons e a ih =>
    rw [distance_cons_cons e d, distance_cons_cons e c]
    split <;> omega

/-- What holds of two texts holds of them behind one more character. -/
theorem distance_cons_le_of (h : ∀ a, distance a c ≤ distance a b + 1) (a : List Char) (d : Char) :
    distance a (d :: c) ≤ distance a (d :: b) + 1 := by
  induction a with
  | nil => simpa using h []
  | cons e a ih =>
    have hsame := h (e :: a)
    have hshort := h a
    rw [distance_cons_cons e d a c, distance_cons_cons e d a b]
    omega

/-- An edit changes the distance from any other text by one at most. -/
theorem distance_le_of_edit (h : Edit b c) (a : List Char) : distance a c ≤ distance a b + 1 := by
  have hinside {l x y : List Char} (h : ∀ a, distance a y ≤ distance a x + 1) (a : List Char) :
      distance a (l ++ y) ≤ distance a (l ++ x) + 1 := by
    induction l generalizing a with
    | nil => exact h a
    | cons d l ih => exact distance_cons_le_of ih a d
  cases h with
  | insert l r d => exact hinside (fun a => distance_cons_le a r d) a
  | delete l r d => exact hinside (fun a => distance_le_cons a r d) a
  | substitute l r d e => exact hinside (fun a => distance_cons_le_cons a r d e) a

theorem distance_le_of_edits (h : Edits n b c) (a : List Char) : distance a c ≤ distance a b + n := by
  induction h with
  | refl b => exact Nat.le_refl _
  | step hedit _ ih =>
    have := distance_le_of_edit hedit a
    omega

/-! ### The least number of edits -/

/-- An edit makes a text longer or shorter by one character at most. -/
theorem length_le_of_edits (h : Edits n a b) : a.length ≤ b.length + n ∧ b.length ≤ a.length + n := by
  induction h with
  | refl a => simp
  | step hedit _ ih =>
    cases hedit <;> simp only [List.length_append, List.length_cons] at ih ⊢ <;> omega

theorem edits_iff_reverse : Edits n a.reverse b.reverse ↔ Edits n a b :=
  ⟨fun h => by simpa using h.reverse, Edits.reverse⟩

theorem edits_editDistance (a b : String) : Edits (editDistance a b) a.toList b.toList := by
  rw [editDistance_eq, ← edits_iff_reverse]
  exact edits_distance _ _

/-- The edit distance is the least number of insertions, deletions and substitutions of single
characters that turn one text into another. -/
theorem editDistance_isLeast (a b : String) :
    IsLeast {n | Edits n a.toList b.toList} (editDistance a b) := by
  refine ⟨edits_editDistance a b, fun n h => ?_⟩
  have hle := distance_le_of_edits h.reverse a.toList.reverse
  rwa [distance_self, Nat.zero_add, ← editDistance_eq] at hle

end TieredMemory.Text
