import Mathlib
import TieredMemory.Proofs.Pattern.Likeness
import TieredMemory.Proofs.Text.EditScript

/-!
# The test of names

Names are alike if their similarity is four fifths at least. Where their lengths differ by more than
three tenths of the longer one, the similarity is zero and the edit distance is not looked at. In exact
arithmetic this makes no difference to the test: an edit makes up for one character of the difference
at most, so such names are too far apart anyway (`length_sub_le_editDistance`). So names are alike
exactly if one edit in five characters of the longer one turns one into the other.
-/

namespace TieredMemory

namespace Text

/-- It takes as many edits at least as one text is longer than the other. -/
theorem length_sub_le_editDistance (a b : String) :
    max a.length b.length - min a.length b.length ≤ editDistance a b := by
  obtain ⟨hdelete, hinsert⟩ := length_le_of_edits (edits_editDistance a b)
  simp only [String.length_toList] at hdelete hinsert
  omega

theorem whole_rat (n : Nat) : whole ℚ n = n := by
  refine Rat.ofScientific_false_def.trans ?_
  rw [pow_zero, mul_one]
  rfl

/-- A similarity of four fifths leaves one edit in five characters. -/
theorem four_fifths_le_iff {longer : Nat} (hpos : 0 < longer) (d : Nat) :
    (0.8 : ℚ) ≤ 1 - d / longer ↔ 5 * d ≤ longer := by
  have hpart : (0.8 : ℚ) ≤ 1 - d / longer ↔ (d : ℚ) / longer ≤ 1 / 5 := by
    constructor <;> intro h <;> linarith
  rw [hpart, div_le_div_iff₀ (Nat.cast_pos.2 hpos) (by norm_num), one_mul, mul_comm]
  exact_mod_cast Iff.rfl

theorem four_fifths_le_similarityIn_iff (a b : String) :
    (0.8 : ℚ) ≤ similarityIn ℚ a b ↔
      a = "" ∧ b = "" ∨ 5 * editDistance a b ≤ max a.length b.length := by
  have hempty : max a.length b.length = 0 ↔ a = "" ∧ b = "" := by
    rw [Nat.max_eq_zero_iff, String.length_eq_zero_iff, String.length_eq_zero_iff]
  have hedits := length_sub_le_editDistance a b
  unfold similarityIn
  simp only [whole_rat, ← hempty]
  split
  · next hzero => norm_num [hzero]
  · next hzero =>
    split
    · next hfar =>
      -- by their lengths alone the names are further apart than the test allows
      have hfar : 3 * max a.length b.length <
          10 * (max a.length b.length - min a.length b.length) := by
        have : (3 * max a.length b.length : ℚ) <
            10 * (max a.length b.length - min a.length b.length : Nat) := by linarith
        exact_mod_cast this
      refine iff_of_false (by norm_num) ?_
      omega
    · rw [Nat.cast_one, four_fifths_le_iff (Nat.pos_of_ne_zero hzero)]
      simp only [hzero, false_or]

end Text

namespace Pattern

/-- In exact arithmetic, names are alike if both are empty or one edit in five characters of the longer
one is enough to turn one into the other, and only then. Whether two patterns are alike does not
depend on which one comes first. -/
theorem nameTest_iff_and_isAlike_comm :
    (∀ a b : String, (0.8 : ℚ) ≤ Text.similarityIn ℚ a b ↔
      a = "" ∧ b = "" ∨ 5 * Text.editDistance a b ≤ max a.length b.length) ∧
      ∀ p q : Pattern, p.isAlike q = q.isAlike p :=
  ⟨Text.four_fifths_le_similarityIn_iff, isAlike_comm⟩

end Pattern

end TieredMemory
