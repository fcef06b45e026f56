import TieredMemory.Proofs.Number.Difference

/-!
# Results that are numbers

Rounding yields a number, and so do the bits of a number. So a number stays one when a finite number
is added (`isNaN_add`), and every whole number comes to a number (`isNaN_ofInt`), though to an
infinite one if it is too large. A hundredth of a finite number is finite (`isFinite_mul_hundredth`).
-/

namespace TieredMemory.Number

open Float.Model Float.Model.UnpackedFloat

/-! ### Rounding -/

theorem isNaN_roundWithAccuracy (s : Sign) (m : Nat) (e : Int) (a : Accuracy) :
    (roundWithAccuracy .binary64 s m e a).isNaN = false := by
  unfold roundWithAccuracy
  simp only
  split <;> rfl

theorem isNaN_normalize (m e : Int) (s : Sign) :
    (UnpackedFloat.normalize .binary64 m e s).isNaN = false := by
  unfold UnpackedFloat.normalize
  split
  · exact isNaN_roundWithAccuracy ..
  · rfl
  · exact isNaN_roundWithAccuracy ..

/-- Bits are those of a number if not all bits of the exponent are set. -/
theorem isNaN_unpack_packComponents {s : Sign} {e : BitVec 11} (m : BitVec 52) (h : e ≠ -1#11) :
    (UnpackedFloat.unpack .binary64 (packComponents .binary64 s e m)).isNaN = false := by
  unfold UnpackedFloat.unpack
  simp only [unpackMantissa_packComponents, unpackExponent_packComponents]
  rw [if_neg h]
  split
  · split <;> rfl
  · rfl

/-- The bits of a number give back a number. -/
theorem isNaN_unpack_pack {u : UnpackedFloat} (h : u.isNaN = false) :
    (Float.Model.pack u).unpack.isNaN = false := by
  rcases u with s | _ | s | ⟨s, m, e, hm⟩
  · cases s <;> rfl
  · cases h
  · cases s <;> rfl
  · show (UnpackedFloat.unpack .binary64 (UnpackedFloat.pack .binary64 (.finite s m e hm))).isNaN =
      false
    rw [pack_finite hm rfl]
    split
    · cases s <;> rfl
    · next hcap =>
      split
      · refine isNaN_unpack_packComponents _ fun hones => ?_
        have hnat := congrArg BitVec.toNat hones
        rw [BitVec.toNat_ofNat] at hnat
        have hall : (-1#11).toNat = 2047 := by decide
        omega
      · exact isNaN_unpack_packComponents _ (by decide)

/-! ### Sums -/

/-- A number stays one when a finite number is added. -/
theorem isNaN_add {x y : Float} (hx : x.isNaN = false) (hy : y.isFinite = true) :
    (x + y).isNaN = false := by
  change x.toModel.unpack.isNaN = false at hx
  change y.toModel.unpack.isFinite = true at hy
  refine isNaN_unpack_pack ?_
  show (UnpackedFloat.add .binary64 x.toModel.unpack y.toModel.unpack).isNaN = false
  generalize x.toModel.unpack = u at hx ⊢
  generalize y.toModel.unpack = v at hy ⊢
  rcases u with s | _ | s | ⟨s, m, e, hm⟩ <;> rcases v with t | _ | t | ⟨t, n, f, hn⟩ <;>
    try contradiction
  · rfl
  · rfl
  · cases s <;> cases t <;> rfl
  · rfl
  · rfl
  · exact isNaN_normalize ..

/-! ### Products -/

/-- A number stays one when it is multiplied by a finite number other than zero. -/
theorem isNaN_mul_finite {u : UnpackedFloat} (hu : u.isNaN = false) (t : Sign) (n : Nat) (f : Int)
    (hn : 0 < n) : (UnpackedFloat.mul .binary64 u (.finite t n f hn)).isNaN = false := by
  rcases u with s | _ | s | ⟨s, m, e, hm⟩
  · rfl
  · contradiction
  · rfl
  · exact isNaN_roundWithAccuracy ..

theorem unpack_one : (1 : Float).toModel.unpack = .finite .positive (2 ^ 52) (-52) (by decide) := by
  have hbits : (1 : Float).toModel = Float.Model.pack (.finite .positive (2 ^ 52) (-52) (by decide)) := by
    rfl
  rw [hbits]
  exact unpack_pack_finite (by decide) ⟨by decide, by decide, by decide, .inr (by decide)⟩

/-- A number stays one when it is multiplied by one. -/
theorem isNaN_mul_one {x : Float} (hx : x.isNaN = false) : (x * 1).isNaN = false := by
  refine isNaN_unpack_pack ?_
  show (UnpackedFloat.mul .binary64 x.toModel.unpack (1 : Float).toModel.unpack).isNaN = false
  rw [unpack_one]
  exact isNaN_mul_finite hx ..

/-- The mantissa of the number nearest to a hundredth. -/
def hundredth : Nat := 5764607523034235

theorem unpack_hundredth :
    (0.01 : Float).toModel.unpack = .finite .positive hundredth (-59) (by decide) := by
  have hbits : (0.01 : Float).toModel =
      Float.Model.pack (.finite .positive hundredth (-59) (by decide)) := by
    rfl
  rw [hbits]
  exact unpack_pack_finite (by decide) ⟨by decide, by decide, by decide, .inr (by decide)⟩

/-- A hundredth of a packed number is not beyond it. -/
theorem mul_hundredth_within {s : Sign} {m : Nat} {e : Int} (hm : 0 < m) (h : Packed m e) :
    Within s m e (roundWithAccuracy .binary64 s (m * hundredth) (e + -59) .exact) := by
  have hn : m * hundredth ≠ 0 := Nat.mul_ne_zero hm.ne' (by decide)
  have hlower : 52 ≤ (m * hundredth).log2 := by
    refine (Nat.le_log2 hn).2 ?_
    have hle : hundredth ≤ m * hundredth := Nat.le_mul_of_pos_left _ hm
    exact Nat.le_trans (by decide) hle
  have hupper : (m * hundredth).log2 < 106 := by
    refine (Nat.log2_lt hn).2 ?_
    rw [show 2 ^ 106 = 2 ^ 53 * 2 ^ 53 from rfl]
    exact Nat.mul_lt_mul'' h.mantissa_lt (by decide)
  have hleast := h.least_le
  generalize ht : max ((m * hundredth).log2 + (e + -59) - 52) (-1074) = t
  obtain ⟨k, hk⟩ : ∃ k : Nat, t = e + -59 + k := ⟨(t - (e + -59)).toNat, by omega⟩
  refine roundWithAccuracy_within hn ht hk h (by omega) ?_
  rw [Nat.mul_assoc, ← Nat.pow_add, show (e - t).toNat + k = 59 by omega]
  exact Nat.mul_le_mul_left m (by decide)

theorem Fits.isFinite {u : UnpackedFloat} (h : Fits u) : u.isFinite = true := by
  rcases u with _ | _ | _ | _
  · exact h.elim
  · exact h.elim
  · rfl
  · rfl

/-- A hundredth of a finite number is finite. -/
theorem isFinite_mul_hundredth {x : Float} (hx : x.isFinite = true) :
    (x * 0.01).isFinite = true := by
  change x.toModel.unpack.isFinite = true at hx
  show (Float.Model.pack (UnpackedFloat.mul .binary64 x.toModel.unpack
    (0.01 : Float).toModel.unpack)).unpack.isFinite = true
  rw [unpack_hundredth]
  cases hu : x.toModel.unpack with
  | infinity s => simp [hu, UnpackedFloat.isFinite] at hx
  | notANumber => simp [hu, UnpackedFloat.isFinite] at hx
  | zero s => cases s <;> rfl
  | finite s m e hm =>
    have hwithin : Within (s * .positive) m e (UnpackedFloat.mul .binary64 (.finite s m e hm)
        (.finite .positive hundredth (-59) (by decide))) :=
      mul_hundredth_within hm (packed_of_unpack hu)
    rw [unpack_pack hwithin.fits]
    exact hwithin.fits.isFinite

/-! ### Whole numbers -/

theorem isNaN_ofNat (n : Nat) : (Float.ofNat n).isNaN = false := by
  show (Float.ofScientific n false 0).isNaN = false
  unfold Float.ofScientific
  split
  · have hone : Float.exactlyRepresentablePowersOfTen[0] = 1 := by rfl
    simp only [hone]
    exact isNaN_mul_one (isNaN_unpack_pack (isNaN_normalize ..))
  · refine isNaN_unpack_pack ?_
    unfold UnpackedFloat.ofScientific
    split
    · rfl
    · rw [if_neg (by decide), if_neg (by simp), if_pos (by decide)]
      exact isNaN_mul_finite rfl ..

theorem isNaN_ofInt (n : Int) : (Float.ofInt n).isNaN = false := by
  cases n with
  | ofNat n => exact isNaN_ofNat n
  | negSucc n =>
    have hn : (Float.ofNat n.succ).toModel.unpack.isNaN = false := isNaN_ofNat n.succ
    refine isNaN_unpack_pack ?_
    show (Float.ofNat n.succ).toModel.unpack.neg.isNaN = false
    revert hn
    cases (Float.ofNat n.succ).toModel.unpack <;> exact id

/-- What is neither infinite nor undefined is finite. -/
theorem isFinite_of_isNaN_of_isInf {x : Float} (hnan : x.isNaN = false) (hinf : x.isInf = false) :
    x.isFinite = true := by
  change x.toModel.unpack.isNaN = false at hnan
  change x.toModel.unpack.isInf = false at hinf
  show x.toModel.unpack.isFinite = true
  revert hnan hinf
  cases x.toModel.unpack with
  | infinity s => exact fun _ h => Bool.noConfusion h
  | notANumber => exact fun h => Bool.noConfusion h
  | zero s => exact fun _ _ => rfl
  | finite s m e hm => exact fun _ _ => rfl

end TieredMemory.Number
