import Mathlib.Data.List.Basic
import TieredMemory.Text.EditDistance

/-!
# Edit distance by recursion

The rows of the edit distance hold, for one prefix of the first text, the distances to all prefixes
of the second. `distance` gives these distances by recursion on the last characters of the prefixes,
without rows, and `editDistance_eq` says that the rows compute it. The recursion does not care which
text comes first, so the edit distance does not either.
-/

namespace TieredMemory.Text

/-- The least number of edits between two texts given from the last character to the first: the last
characters are inserted, deleted or put in each other's place. -/
def distance : List Char → List Char → Nat
  | [], b => b.length
  | a, [] => a.length
  | c :: a, d :: b =>
    min (min (distance a (d :: b) + 1) (distance (c :: a) b + 1))
      (distance a b + if c = d then 0 else 1)
  termination_by a b => a.length + b.length

@[simp] theorem distance_nil_left (b : List Char) : distance [] b = b.length := by
  rw [distance]

@[simp] theorem distance_nil_right (a : List Char) : distance a [] = a.length := by
  cases a <;> simp [distance]

theorem distance_cons_cons (c d : Char) (a b : List Char) :
    distance (c :: a) (d :: b) = min (min (distance a (d :: b) + 1) (distance (c :: a) b + 1))
      (distance a b + if c = d then 0 else 1) := by
  rw [distance]

theorem distance_self (a : List Char) : distance a a = 0 := by
  induction a with
  | nil => simp
  | cons c a ih =>
    rw [distance_cons_cons, ih, if_pos rfl]
    omega

theorem distance_comm (a b : List Char) : distance a b = distance b a := by
  fun_induction distance a b with
  | case1 b => simp
  | case2 a => simp
  | case3 c a d b ih₁ ih₂ ih₃ =>
    rw [distance_cons_cons, ih₁, ih₂, ih₃]
    by_cases h : c = d
    · subst h
      omega
    · rw [if_neg h, if_neg (Ne.symm h)]
      omega

/-! ### Rows -/

/-- The distances of a prefix `a` to the prefix `b` and those that go on with the given characters,
all prefixes given from the last character to the first. -/
def row (a b : List Char) : List Char → List Nat
  | [] => [distance a b]
  | d :: ds => distance a b :: row a (d :: b) ds

theorem row_eq_cons (a b ds : List Char) : row a b ds = distance a b :: (row a b ds).tail := by
  cases ds <;> rfl

theorem nextEntries_row (c : Char) (a b ds : List Char) :
    nextEntries c (distance (c :: a) b) ds (row a b ds) = (row (c :: a) b ds).tail := by
  induction ds generalizing b with
  | nil => rfl
  | cons d ds ih =>
    have h := ih (d :: b)
    rw [row_eq_cons a (d :: b) ds] at h
    rw [row, row_eq_cons a (d :: b) ds, nextEntries, ← distance_cons_cons, h, row, List.tail_cons,
      ← row_eq_cons]

theorem nextRow_row (c : Char) (a b : List Char) : nextRow c b (row a [] b) = row (c :: a) [] b := by
  have hfirst : (row a [] b).headD 0 + 1 = distance (c :: a) [] := by
    rw [row_eq_cons]
    simp
  unfold nextRow
  simp only [hfirst, nextEntries_row, ← row_eq_cons]

theorem foldl_nextRow (a a' b : List Char) :
    a'.foldl (fun r c => nextRow c b r) (row a [] b) = row (a'.reverse ++ a) [] b := by
  induction a' generalizing a with
  | nil => rfl
  | cons c a' ih => simp [nextRow_row, ih]

theorem row_nil (b ds : List Char) : row [] b ds = List.range' b.length (ds.length + 1) := by
  induction ds generalizing b with
  | nil => simp [row]
  | cons d ds ih => simp [row, ih, List.range'_succ]

theorem getLastD_row (a b ds : List Char) : (row a b ds).getLastD 0 = distance a (ds.reverse ++ b) := by
  induction ds generalizing b with
  | nil => rfl
  | cons d ds ih =>
    have h := ih (d :: b)
    rw [row_eq_cons, List.getLastD_cons] at h
    rw [row, row_eq_cons, List.getLastD_cons, List.getLastD_cons, h, List.reverse_cons,
      List.append_assoc, List.singleton_append]

/-- The rows compute the distance. -/
theorem editDistance_eq (a b : String) :
    editDistance a b = distance a.toList.reverse b.toList.reverse := by
  unfold editDistance
  split
  · rename_i h
    rw [h, distance_self]
  · have hrow : List.range (b.toList.length + 1) = row [] [] b.toList := by
      rw [row_nil, List.length_nil, List.range_eq_range']
    simp only [hrow, foldl_nextRow, getLastD_row, List.append_nil]

theorem editDistance_comm (a b : String) : editDistance a b = editDistance b a := by
  rw [editDistance_eq, editDistance_eq, distance_comm]

theorem similarity_comm (a b : String) : similarity a b = similarity b a := by
  unfold similarity similarityIn
  rw [Nat.max_comm, Nat.min_comm, editDistance_comm]

end TieredMemory.Text
