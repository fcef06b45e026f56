import TieredMemory.Proofs.Number.Difference

/-!
# Clamping a number

Clamping moves every number into the unit interval, infinite ones included, and not below a number of
the interval that it was not below before (`le_clampUnit`). What is not a number compares with
neither end, so the clamp hands it on as it is (`inUnit_clampUnit_iff`). The clamp between minus one
and one has its arguments the other way round and gives a number whatever it is given
(`clampSigned_bounds`): what is not a number is not below one and comes to one
(`clampSigned_of_not_lt`).
-/

namespace TieredMemory.Number

theorem clampUnit_eq_of_lt {x : Float} (h : x < 0) : clampUnit x = 0 := by
  have hzero : greatest x 0 = 0 := if_pos h
  rw [clampUnit, hzero]
  decide +kernel

theorem clampUnit_eq_of_not_lt {x : Float} (h : ¬ x < 0) : clampUnit x = least x 1 := by
  have hkept : greatest x 0 = x := if_neg h
  rw [clampUnit, hkept]

/-- The clamp compares with both ends, and neither comparison holds for what is not a number. -/
theorem clampUnit_of_isNaN {x : Float} (h : x.isNaN = true) : clampUnit x = x := by
  have hlow : ¬ x < 0 := by
    intro hlt
    exact Bool.false_ne_true ((isNaN_eq_false_of_lt hlt).1.symm.trans h)
  have hhigh : ¬ 1 < x := by
    intro hlt
    exact Bool.false_ne_true ((isNaN_eq_false_of_lt hlt).2.symm.trans h)
  rw [clampUnit_eq_of_not_lt hlow]
  exact if_neg hhigh

theorem inUnit_clampUnit {x : Float} (hx : x.isNaN = false) : InUnit (clampUnit x) := by
  by_cases hlow : x < 0
  · rw [clampUnit_eq_of_lt hlow]
    decide
  · have hzero : 0 ≤ x := (not_lt_iff_le hx rfl).1 hlow
    rw [clampUnit_eq_of_not_lt hlow, least]
    split
    · decide
    · next hhigh => exact ⟨hzero, (not_lt_iff_le rfl hx).1 hhigh⟩

/-- Everything but a value that is not a number is moved into the unit interval. -/
theorem inUnit_clampUnit_iff {x : Float} : InUnit (clampUnit x) ↔ x.isNaN = false := by
  constructor
  · intro h
    by_contra hx
    rw [Bool.not_eq_false] at hx
    rw [clampUnit_of_isNaN hx] at h
    exact Bool.false_ne_true (h.isNaN.symm.trans hx)
  · exact inUnit_clampUnit

theorem inUnit_clampUnit_or_isNaN (x : Float) :
    InUnit (clampUnit x) ∨ (clampUnit x).isNaN = true := by
  cases hx : x.isNaN with
  | false => exact .inl (inUnit_clampUnit hx)
  | true =>
    rw [clampUnit_of_isNaN hx]
    exact .inr hx

/-- A number is not moved below a number of the interval. -/
theorem le_clampUnit {x y : Float} (hx : InUnit x) (hxy : x ≤ y) : x ≤ clampUnit y := by
  obtain ⟨-, hy⟩ := isNaN_eq_false_of_le hxy
  have hlow : ¬ y < 0 := (not_lt_iff_le hy rfl).2 (le_trans hx.1 hxy)
  rw [clampUnit_eq_of_not_lt hlow, least]
  split
  · exact hx.2
  · exact hxy

/-! ### Between minus one and one -/

theorem clampSigned_of_le {x : Float} (h : x ≤ -1) : clampSigned x = -1 := by
  obtain ⟨hx, hone⟩ := isNaN_eq_false_of_le h
  have hlow : ¬ -1 < x := (not_lt_iff_le hone hx).2 h
  have hkept : least 1 x = x :=
    if_pos ((lt_iff_rank_lt hx rfl).2 (((le_iff_rank_le hx hone).1 h).trans_lt (by decide)))
  rw [clampSigned, hkept]
  exact if_neg hlow

theorem clampSigned_of_not_lt {x : Float} (h : ¬ x < 1) : clampSigned x = 1 := by
  have hkept : least 1 x = 1 := if_neg h
  rw [clampSigned, hkept]
  decide +kernel

theorem clampSigned_of_lt {x : Float} (hlow : -1 < x) (hhigh : x < 1) : clampSigned x = x := by
  have hkept : least 1 x = x := if_pos hhigh
  rw [clampSigned, hkept]
  exact if_pos hlow

/-- The clamp gives a number between minus one and one, also for what is not a number. -/
theorem clampSigned_bounds (x : Float) : -1 ≤ clampSigned x ∧ clampSigned x ≤ 1 := by
  by_cases hhigh : x < 1
  · obtain ⟨hx, -⟩ := isNaN_eq_false_of_lt hhigh
    by_cases hlow : -1 < x
    · rw [clampSigned_of_lt hlow hhigh]
      exact ⟨le_of_lt rfl hx hlow, le_of_lt hx rfl hhigh⟩
    · rw [clampSigned_of_le ((not_lt_iff_le rfl hx).1 hlow)]
      decide
  · rw [clampSigned_of_not_lt hhigh]
    decide

end TieredMemory.Number
