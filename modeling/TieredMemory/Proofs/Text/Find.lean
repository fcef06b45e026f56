import Mathlib.Data.List.Basic
import TieredMemory.Text.Find

/-!
# First occurrences

Cutting a text at the first occurrence of another one splits it there (`eq_of_cutAt?`), and there is an
occurrence if the other one is a part of it (`occursIn_iff`). Where nothing is found, nothing is found
further on either, up to a character that the other text does not have (`cutAt?_append_cons`); and what
comes after an occurrence does not matter (`cutAt?_append`). The piece before the first separator
(`firstPiece`) is the first of the pieces of a text.
-/

namespace TieredMemory.Text

variable {needle l r a b : List Char} {c : Char}

theorem eq_of_cutAt? (h : cutAt? needle l = some (a, b)) : l = a ++ needle ++ b := by
  induction l generalizing a with
  | nil =>
    unfold cutAt? at h
    split at h
    · next hneedle =>
      cases h
      simp [List.isEmpty_iff.1 hneedle]
    · cases h
  | cons c r ih =>
    unfold cutAt? at h
    split at h
    · next hlead =>
      cases h
      obtain ⟨t, ht⟩ := List.isPrefixOf_iff_prefix.1 hlead
      rw [← ht, List.drop_left, List.nil_append]
    · obtain ⟨⟨a', b'⟩, hr, h⟩ := Option.map_eq_some_iff.1 h
      cases h
      rw [ih hr]
      rfl

/-- A text is found where it is a part of the other one. -/
theorem isSome_cutAt?_iff : (cutAt? needle l).isSome = true ↔ needle <:+: l := by
  induction l with
  | nil =>
    rw [cutAt?, List.infix_nil, ← List.isEmpty_iff]
    split <;> simp_all
  | cons c r ih =>
    rw [cutAt?, List.infix_cons_iff, ← List.isPrefixOf_iff_prefix, ← ih]
    split
    · next hlead => simp [hlead]
    · next hlead => simp [hlead]

theorem occursIn_iff {needle text : String} :
    occursIn needle text = true ↔ needle.toList <:+: text.toList := isSome_cutAt?_iff

/-- What occurs in a text occurs in a longer one around it. -/
theorem occursIn_around {needle text : String} (h : occursIn needle text = true) (p s : String) :
    occursIn needle (p ++ text ++ s) = true := by
  rw [occursIn_iff] at h ⊢
  rw [String.toList_append, String.toList_append]
  exact h.trans ⟨p.toList, s.toList, rfl⟩

/-- What comes after an occurrence does not matter. -/
theorem cutAt?_append (h : cutAt? needle l = some (a, b)) (r : List Char) :
    cutAt? needle (l ++ r) = some (a, b ++ r) := by
  induction l generalizing a with
  | nil =>
    unfold cutAt? at h
    split at h
    · next hneedle =>
      cases h
      rw [List.isEmpty_iff.1 hneedle]
      cases r <;> rfl
    · cases h
  | cons c l ih =>
    have hlength := length_of_cutAt? h
    have hle : needle.length ≤ (c :: l).length := by omega
    unfold cutAt? at h
    rw [List.cons_append, cutAt?]
    split at h
    · next hlead =>
      cases h
      have hp : needle <+: c :: (l ++ r) :=
        (List.isPrefixOf_iff_prefix.1 hlead).trans (List.prefix_append (c :: l) r)
      rw [if_pos (List.isPrefixOf_iff_prefix.2 hp), ← List.cons_append,
        List.drop_append_of_le_length hle]
    · next hlead =>
      obtain ⟨⟨a', b'⟩, hl, h⟩ := Option.map_eq_some_iff.1 h
      cases h
      have hnot : needle.isPrefixOf (c :: (l ++ r)) = false := by
        by_contra hp
        have hp := List.isPrefixOf_iff_prefix.1 (eq_true_of_ne_false hp)
        exact hlead (List.isPrefixOf_iff_prefix.2
          (List.prefix_of_prefix_length_le hp (List.prefix_append (c :: l) r) hle))
      rw [if_neg (by simp [hnot]), ih hl]
      rfl

/-- Past a text without an occurrence, and a character that no occurrence has, the search starts
anew. -/
theorem cutAt?_append_cons (hl : cutAt? needle l = none) (hc : c ∉ needle) (r : List Char) :
    cutAt? needle (l ++ c :: r) = (cutAt? needle r).map fun p => (l ++ c :: p.1, p.2) := by
  have hne : needle ≠ [] := by
    rintro rfl
    cases l <;> cases hl
  have hcross : ∀ l', l' ++ [c] <+: needle → False := fun l' h =>
    hc (h.subset (List.mem_append_right l' List.mem_cons_self))
  induction l with
  | nil =>
    have hnot : ¬ needle.isPrefixOf (c :: r) = true := by
      intro h
      obtain ⟨t, ht⟩ := List.isPrefixOf_iff_prefix.1 h
      cases needle with
      | nil => exact hne rfl
      | cons d ds =>
        cases ht
        exact hc List.mem_cons_self
    rw [List.nil_append, cutAt?, if_neg hnot]
    rfl
  | cons d l ih =>
    unfold cutAt? at hl
    split at hl
    · cases hl
    · next hlead =>
      have hnot : ¬ needle.isPrefixOf (d :: (l ++ c :: r)) = true := by
        intro h
        have hp := List.isPrefixOf_iff_prefix.1 h
        rcases Nat.lt_or_ge (d :: l).length needle.length with hlt | hge
        · have hline : d :: l ++ [c] <+: d :: (l ++ c :: r) := ⟨r, by simp⟩
          refine hcross (d :: l) (List.prefix_of_prefix_length_le hline hp ?_)
          rw [List.length_append]
          exact hlt
        · exact hlead (List.isPrefixOf_iff_prefix.2
            (List.prefix_of_prefix_length_le hp (List.prefix_append (d :: l) (c :: r)) hge))
      rw [List.cons_append, cutAt?, if_neg hnot, ih (Option.map_eq_none_iff.1 hl), Option.map_map]
      rfl

/-! ### The first piece -/

/-- The text before the first separator. -/
def firstPiece (sep l : List Char) : List Char := ((cutAt? sep l).map Prod.fst).getD l

theorem head?_piecesOf (hneedle : needle ≠ []) (l : List Char) :
    (piecesOf needle l).head? = some (firstPiece needle l) := by
  have hfirst : ∀ a b, cutAt? needle l = some (a, b) → firstPiece needle l = a := by
    intro a b h
    rw [firstPiece, h]
    rfl
  rw [piecesOf]
  split
  · next a b h =>
    rw [hfirst a b h, dif_neg hneedle]
    rfl
  · next h =>
    rw [firstPiece, h]
    rfl

/-- A text that begins with the separator has an empty piece first, and then the pieces of the rest. -/
theorem piecesOf_append (hneedle : needle ≠ []) (l : List Char) :
    piecesOf needle (needle ++ l) = [] :: piecesOf needle l := by
  have hcut : cutAt? needle (needle ++ l) = some ([], l) := by
    cases needle with
    | nil => exact absurd rfl hneedle
    | cons c r =>
      rw [List.cons_append, cutAt?, if_pos]
      · rw [← List.cons_append, List.drop_left]
      · exact List.isPrefixOf_iff_prefix.2 (List.prefix_append (c :: r) l)
  rw [piecesOf]
  split
  · next a b h =>
    rw [hcut] at h
    cases h
    rw [dif_neg hneedle]
  · next h =>
    rw [hcut] at h
    cases h

theorem firstPiece_append (h : cutAt? needle l = some (a, b)) (r : List Char) :
    firstPiece needle (l ++ r) = a := by
  rw [firstPiece, cutAt?_append h]
  rfl

theorem firstPiece_append_cons (hl : cutAt? needle l = none) (hc : c ∉ needle) (r : List Char) :
    firstPiece needle (l ++ c :: r) = l ++ c :: firstPiece needle r := by
  rw [firstPiece, cutAt?_append_cons hl hc, firstPiece]
  cases cutAt? needle r <;> rfl

end TieredMemory.Text
