import Mathlib
import TieredMemory.Order

/-!
# The order of floating-point numbers

A number has a *rank* in a linear order: its class, from negative infinity to positive infinity, then
exponent and mantissa, both turned round below zero. Comparing two numbers is comparing their ranks
(`lt_iff_rank_lt`, `le_iff_rank_le`, `beq_iff_rank_eq`); both zeros have the same rank. A value that
is not a number is left out, since it compares with nothing.
-/

namespace TieredMemory.Number

open Float.Model

/-- Class, exponent and mantissa, compared in this order. -/
abbrev Rank := Int ×ₗ Int ×ₗ Int

/-- The rank with the given parts. -/
def Rank.of (c e m : Int) : Rank := toLex (c, toLex (e, m))

/-- The rank of an unpacked number. -/
def rankOf : UnpackedFloat → Rank
  | .infinity .negative => .of (-2) 0 0
  | .finite .negative m e _ => .of (-1) (-e) (-m)
  | .notANumber => .of 0 0 0
  | .zero _ => .of 0 0 0
  | .finite .positive m e _ => .of 1 e m
  | .infinity .positive => .of 2 0 0

/-- The rank of a number. -/
def rank (x : Float) : Rank := rankOf x.toModel.unpack

theorem Rank.compare_of (c e m c' e' m' : Int) :
    compare (of c e m) (of c' e' m') =
      (compare c c').then ((compare e e').then (compare m m')) := rfl

theorem compare_neg_neg (a b : Int) : compare (-a) (-b) = (compare a b).swap := by
  rw [Int.compare_swap]
  simp only [Int.compare_eq_ite_lt]
  grind

theorem compare_cast (m n : Nat) : compare (m : Int) (n : Int) = compare m n := by
  simp only [Int.compare_eq_ite_lt, Nat.compare_eq_ite_lt]
  grind

/-- Comparing unpacked numbers is comparing their ranks. -/
theorem compare_eq_some {a b : UnpackedFloat} (ha : a.isNaN = false) (hb : b.isNaN = false) :
    a.compare b = some (compare (rankOf a) (rankOf b)) := by
  rcases a with (_ | _) | _ | _ | ⟨_ | _, m, e, hm⟩ <;>
    rcases b with (_ | _) | _ | _ | ⟨_ | _, n, f, hn⟩ <;>
    try first | rfl | contradiction
  -- what is left are two finite numbers of one sign
  · simp only [UnpackedFloat.compare, rankOf, Rank.compare_of, compare_neg_neg, compare_cast,
      Ordering.swap_then]
    rfl
  · simp only [UnpackedFloat.compare, rankOf, Rank.compare_of, compare_cast]
    rfl

theorem lt_iff_compare {x y : Float} :
    x < y ↔ x.toModel.unpack.compare y.toModel.unpack = some .lt := by
  show decide (UnpackedFloat.lt _ _ = true) = true ↔ _
  simp [UnpackedFloat.lt]

theorem lt_iff_rank_lt {x y : Float} (hx : x.isNaN = false) (hy : y.isNaN = false) :
    x < y ↔ rank x < rank y := by
  rw [lt_iff_compare, compare_eq_some hx hy, Option.some.injEq, compare_lt_iff_lt]
  rfl

theorem beq_iff_rank_eq {x y : Float} (hx : x.isNaN = false) (hy : y.isNaN = false) :
    (x == y) = true ↔ rank x = rank y := by
  have h : (x == y) = true ↔ x.toModel.unpack.compare y.toModel.unpack = some .eq := by
    show UnpackedFloat.beq _ _ = true ↔ _
    simp [UnpackedFloat.beq]
  rw [h, compare_eq_some hx hy, Option.some.injEq, compare_eq_iff_eq]
  rfl

theorem le_iff_compare {x y : Float} :
    x ≤ y ↔ ∃ o, x.toModel.unpack.compare y.toModel.unpack = some o ∧ o.isLE = true := by
  show decide (UnpackedFloat.le _ _ = true) = true ↔ _
  simp [UnpackedFloat.le, Option.any_eq_true]

theorem le_iff_rank_le {x y : Float} (hx : x.isNaN = false) (hy : y.isNaN = false) :
    x ≤ y ↔ rank x ≤ rank y := by
  rw [le_iff_compare, compare_eq_some hx hy]
  simp only [Option.some.injEq, exists_eq_left']
  rw [← Ordering.ne_gt_iff_isLE, compare_gt_iff_gt, not_lt]
  rfl

/-- Only numbers compare. -/
theorem isNaN_eq_false_of_le {x y : Float} (h : x ≤ y) : x.isNaN = false ∧ y.isNaN = false := by
  obtain ⟨o, ho, -⟩ := le_iff_compare.1 h
  show x.toModel.unpack.isNaN = false ∧ y.toModel.unpack.isNaN = false
  revert ho
  rcases x.toModel.unpack with (_ | _) | _ | _ | ⟨_ | _, m, e, hm⟩ <;>
    rcases y.toModel.unpack with (_ | _) | _ | _ | ⟨_ | _, n, f, hn⟩ <;>
    simp [UnpackedFloat.compare, UnpackedFloat.isNaN]

theorem isNaN_eq_false_of_lt {x y : Float} (h : x < y) : x.isNaN = false ∧ y.isNaN = false :=
  isNaN_eq_false_of_le (le_iff_compare.2 ⟨.lt, lt_iff_compare.1 h, rfl⟩)

theorem not_lt_iff_le {x y : Float} (hx : x.isNaN = false) (hy : y.isNaN = false) :
    ¬ x < y ↔ y ≤ x := by
  rw [lt_iff_rank_lt hx hy, le_iff_rank_le hy hx, not_lt]

theorem le_trans {x y z : Float} (hxy : x ≤ y) (hyz : y ≤ z) : x ≤ z := by
  obtain ⟨hx, hy⟩ := isNaN_eq_false_of_le hxy
  obtain ⟨-, hz⟩ := isNaN_eq_false_of_le hyz
  rw [le_iff_rank_le hx hy] at hxy
  rw [le_iff_rank_le hy hz] at hyz
  exact (le_iff_rank_le hx hz).2 (hxy.trans hyz)

theorem le_refl {x : Float} (hx : x.isNaN = false) : x ≤ x := (le_iff_rank_le hx hx).2 le_rfl

theorem le_of_lt {x y : Float} (hx : x.isNaN = false) (hy : y.isNaN = false) (h : x < y) :
    x ≤ y := (le_iff_rank_le hx hy).2 ((lt_iff_rank_lt hx hy).1 h).le

theorem le_greatest_left {x y : Float} (hx : x.isNaN = false) (hy : y.isNaN = false) :
    x ≤ greatest x y := by
  unfold greatest
  split
  · exact le_of_lt hx hy ‹_›
  · exact le_refl hx

theorem le_greatest_right {x y : Float} (hx : x.isNaN = false) (hy : y.isNaN = false) :
    y ≤ greatest x y := by
  unfold greatest
  split
  · exact le_refl hy
  · exact (not_lt_iff_le hx hy).1 ‹_›

theorem greatest_le {x y z : Float} (hx : x ≤ z) (hy : y ≤ z) : greatest x y ≤ z := by
  unfold greatest
  split <;> assumption

theorem greatest_eq_left {x y : Float} (h : y ≤ x) : greatest x y = x := by
  obtain ⟨hy, hx⟩ := isNaN_eq_false_of_le h
  exact if_neg ((not_lt_iff_le hx hy).2 h)

theorem floatThen_iff {x y : Float} {rest : Bool} (hx : x.isNaN = false) (hy : y.isNaN = false) :
    floatThen x y rest = true ↔ rank x < rank y ∨ rank x = rank y ∧ rest = true := by
  unfold floatThen
  by_cases h : rank x = rank y
  · simp [(beq_iff_rank_eq hx hy).2 h, h]
  · have hne : ¬ (x == y) = true := fun h' => h ((beq_iff_rank_eq hx hy).1 h')
    simp [hne, lt_iff_rank_lt hx hy, h]

/-! ### Zeros -/

/-- A number whose bits are a zero has the sign at most. -/
theorem toNat_of_unpack_zero {b : BitVec 64} {s : UnpackedFloat.Sign}
    (h : UnpackedFloat.unpack .binary64 b = .zero s) : b.toNat = 0 ∨ b.toNat = 2 ^ 63 := by
  unfold UnpackedFloat.unpack at h
  simp only at h
  split at h
  · split at h <;> cases h
  · split at h
    · next hexp =>
      split at h
      · next hmant =>
        have he : b.toNat / 2 ^ 52 % 2 ^ 11 = 0 := by
          have := congrArg BitVec.toNat hexp
          simpa [UnpackedFloat.unpackExponent, BitVec.extractLsb_toNat, Nat.shiftRight_eq_div_pow,
            Format.binary64] using this
        have hm : b.toNat % 2 ^ 52 = 0 := by
          have := congrArg BitVec.toNat hmant
          simpa [UnpackedFloat.unpackMantissa, BitVec.extractLsb_toNat, Format.binary64] using this
        have := b.isLt
        omega
      · cases h
    · cases h

theorem eq_of_toBits {x y : Float} (h : x.toModel.toBits.toNat = y.toModel.toBits.toNat) :
    x = y := by
  obtain ⟨⟨x, hx⟩⟩ := x
  obtain ⟨⟨y, hy⟩⟩ := y
  simp only at h
  obtain rfl : x = y := UInt64.toNat_inj.1 h
  rfl

/-- What equals zero is one of the two zeros. -/
theorem eq_zero_of_beq {x : Float} (hx : x.isNaN = false) (h : (x == 0) = true) :
    x = 0 ∨ x = -0.0 := by
  have hrank : rank x = Rank.of 0 0 0 := (beq_iff_rank_eq hx (by decide)).1 h
  have hzero : ∃ s, x.toModel.unpack = .zero s := by
    change x.toModel.unpack.isNaN = false at hx
    unfold rank at hrank
    rcases hu : x.toModel.unpack with (_ | _) | _ | s | ⟨_ | _, m, e, hm⟩ <;>
      simp_all [rankOf, Rank.of, UnpackedFloat.isNaN]
  obtain ⟨s, hs⟩ := hzero
  rcases toNat_of_unpack_zero hs with h0 | h0
  · exact .inl (eq_of_toBits h0)
  · exact .inr (eq_of_toBits h0)

theorem isNaN_of_isFinite {x : Float} (h : x.isFinite = true) : x.isNaN = false := by
  change x.toModel.unpack.isFinite = true at h
  show x.toModel.unpack.isNaN = false
  rcases hu : x.toModel.unpack with (_ | _) | _ | s | ⟨_ | _, m, e, hm⟩ <;>
    simp_all [UnpackedFloat.isNaN, UnpackedFloat.isFinite]

end TieredMemory.Number
