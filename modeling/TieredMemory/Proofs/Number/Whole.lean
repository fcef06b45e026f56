import TieredMemory.Decimal.Reading
import TieredMemory.Proofs.Number.Arithmetic

/-!
# Whole numbers

A whole number comes to the nearest floating-point number. Half a unit beyond the greatest one there
is no nearest one any more, and the number comes to an infinity: this is so from
`2 ^ 1024 - 2 ^ 970` on (`isInf_ofInt_iff`). Rounding never takes a positive whole number below one
(`one_le_ofNat`).
-/

namespace TieredMemory.Number

open Float.Model Float.Model.UnpackedFloat

/-! ### The first bit that is lost -/

/-- The mantissa and the first bit that shifting has taken from it. -/
theorem roundBit_shiftRight (n k : Nat) :
    2 * ((⟨n, false, false⟩ : ExtendedMantissa) >>> k).mantissa +
      ((⟨n, false, false⟩ : ExtendedMantissa) >>> k).roundBit.toNat = 2 * n / 2 ^ k := by
  cases k with
  | zero => simp [HShiftRight.hShiftRight, Nat.repeat]
  | succ k =>
    have hshift := mantissa_shiftRight ⟨n, false, false⟩ k
    rw [shiftRight_succ, Nat.pow_succ, Nat.mul_comm _ 2, Nat.mul_div_mul_left _ _ (by decide)]
    simp only [ExtendedMantissa.shiftRightOne, hshift]
    rcases Nat.mod_two_eq_zero_or_one (n / 2 ^ k) with h | h <;> rw [h] <;> simp <;> omega

/-- A mantissa becomes one bit too long exactly if it is the greatest one and the first bit that is
lost is set: a tie is broken upwards there, since the greatest mantissa is odd. -/
theorem roundedMantissa_eq_two_pow_iff {em : ExtendedMantissa} (h : em.mantissa < 2 ^ 53) :
    em.roundedMantissa = 2 ^ 53 ↔ 2 ^ 54 - 1 ≤ 2 * em.mantissa + em.roundBit.toNat := by
  obtain ⟨m, r, s⟩ := em
  cases r <;> cases s <;>
    simp only [ExtendedMantissa.roundedMantissa, ExtendedMantissa.accuracy,
      Accuracy.roundToNearestEven, Bool.toNat_true, Bool.toNat_false] at h ⊢ <;> omega

/-- Shifting and rounding make a mantissa one bit too long exactly from half a unit below the next
power of two on. -/
theorem roundedMantissa_shiftRight_eq_iff {n k : Nat} (h : n / 2 ^ k < 2 ^ 53) :
    ((⟨n, false, false⟩ : ExtendedMantissa) >>> k).roundedMantissa = 2 ^ 53 ↔
      (2 ^ 54 - 1) * 2 ^ k ≤ 2 * n := by
  have hmantissa : ((⟨n, false, false⟩ : ExtendedMantissa) >>> k).mantissa < 2 ^ 53 := by
    rwa [mantissa_shiftRight]
  rw [roundedMantissa_eq_two_pow_iff hmantissa, roundBit_shiftRight,
    Nat.le_div_iff_mul_le (Nat.two_pow_pos k)]

/-- Rounding a mantissa that has 53 bits at least gives one of 53 bits; the exponent counts one bit
more if the mantissa has become too long. -/
theorem roundWithAccuracy_long {s : Sign} {n k : Nat} {e : Int} (hlog : n.log2 = k + 52)
    (he : -1074 ≤ e + k) :
    ∃ (m : Nat) (f : Int) (hm : 0 < m),
      roundWithAccuracy .binary64 s n e .exact = .finite s m f hm ∧ 2 ^ 52 ≤ m ∧ m < 2 ^ 53 ∧
      f = if (2 ^ 54 - 1) * 2 ^ k ≤ 2 * n then e + k + 1 else e + k := by
  have hn : n ≠ 0 := by
    rintro rfl
    simp at hlog
  have hlt : n / 2 ^ k < 2 ^ 53 := by
    rw [Nat.div_lt_iff_lt_mul (Nat.two_pow_pos k), ← Nat.pow_add]
    exact (Nat.log2_lt hn).1 (by omega)
  have hle : 2 ^ 52 ≤ n / 2 ^ k := by
    rw [Nat.le_div_iff_mul_le (Nat.two_pow_pos k), ← Nat.pow_add]
    exact (Nat.le_log2 hn).1 (by omega)
  have hfirst : shiftToTargetExponent .binary64 n e .exact =
      ((⟨n, false, false⟩ : ExtendedMantissa) >>> k, e + k) :=
    shiftToTargetExponent_eq (t := e + k) (by omega) (by omega)
  by_cases hround : (2 ^ 54 - 1) * 2 ^ k ≤ 2 * n
  · rw [if_pos hround]
    have hlong := (roundedMantissa_shiftRight_eq_iff hlt).2 hround
    exact ⟨2 ^ 52, _, _, roundWithAccuracy_full hfirst hlong he, le_rfl, by decide, rfl⟩
  · rw [if_neg hround]
    have hne := mt (roundedMantissa_shiftRight_eq_iff hlt).1 hround
    have hlower := mantissa_le_roundedMantissa ((⟨n, false, false⟩ : ExtendedMantissa) >>> k)
    rw [mantissa_shiftRight] at hlower
    have hcap := (roundedMantissa_le_ceiling _).trans
      (ceiling_shiftRight_le_two_pow hn (e := e) (t := e + k) (by omega) rfl)
    have hlong := hle.trans hlower
    have hshort := Nat.lt_of_le_of_ne hcap hne
    refine ⟨_, _, by omega, ?_, hlong, hshort, rfl⟩
    rw [roundWithAccuracy_of_lt hfirst rfl hshort he, dif_neg (by omega)]

/-! ### Whole numbers -/

/-- An exponent beyond the greatest one makes the number infinite. -/
theorem unpack_pack_beyond {s : Sign} {m : Nat} {e : Int} (hm : 0 < m) (he : 971 < e) :
    (Float.Model.pack (.finite s m e hm)).unpack = .infinity s := by
  have hbias : Format.binary64.exponentBias = 1023 := by decide
  show UnpackedFloat.unpack .binary64 (UnpackedFloat.pack .binary64 (.finite s m e hm)) = _
  rw [pack_finite hm rfl, if_pos (by omega)]
  cases s <;> rfl

/-- A whole number of 53 bits at most has its bits in the mantissa. -/
theorem toFloat_of_lt {n : Nat} (hn : n ≠ 0) (h : n < 2 ^ 53) :
    ∃ (m : Nat) (e : Int) (hm : 0 < m),
      n.toUInt64.toFloat.toModel.unpack = .finite .positive m e hm ∧ 2 ^ 52 ≤ m ∧ m < 2 ^ 53 ∧
      -52 ≤ e ∧ e ≤ 1 := by
  have hcast : n.toUInt64.toNat = n := by
    rw [Nat.toUInt64, UInt64.toNat_ofNat']
    omega
  have hpositive : compare (n : Int) 0 = .gt := by
    rw [compare_gt_iff_gt]
    omega
  have hbits : n.log2 < 53 := (Nat.log2_lt hn).2 h
  obtain ⟨j, hj⟩ : ∃ j : Nat, n.log2 + j = 52 := ⟨52 - n.log2, by omega⟩
  have hlog : (n * 2 ^ j).log2 = 0 + 52 := by
    rw [log2_mul_two_pow hn]
    omega
  obtain ⟨m, e, hm, hround, hlong, hshort, he⟩ :=
    roundWithAccuracy_long (s := .positive) (e := 0 - j) hlog (by omega)
  have hlow : -52 ≤ e ∧ e ≤ 1 := by
    split at he <;> omega
  refine ⟨m, e, hm, ?_, hlong, hshort, hlow⟩
  have hnormal : UnpackedFloat.normalize .binary64 (n.toUInt64.toNat : Int) 0 .positive =
      .finite .positive m e hm := by
    rw [hcast, UnpackedFloat.normalize, hpositive]
    simp only [UnpackedFloat.round, targetExponent_eq, decreaseExponent, Int.toNat_natCast,
      Nat.shiftLeft_eq]
    rw [show (0 - max ((n.log2 : Int) + 0 - 52) (-1074)).toNat = j by omega]
    exact hround
  show UnpackedFloat.unpack .binary64 (UnpackedFloat.pack .binary64
    (UnpackedFloat.normalize .binary64 (n.toUInt64.toNat : Int) 0 .positive)) = _
  rw [hnormal]
  exact unpack_pack_finite hm ⟨hshort, by omega, by omega, .inr hlong⟩

theorem mul_ten_pow_zero {s : Sign} {m : Nat} {e : Int} (hm : 0 < m) (hten) :
    UnpackedFloat.mul .binary64 (.finite s m e hm)
      (.finite .positive (10 ^ (0 : Int).toNat) 0 hten) =
      roundWithAccuracy .binary64 s m e .exact := by
  cases s <;> simp [UnpackedFloat.mul] <;> rfl

/-- A whole number is rounded with as many more bits as a mantissa has. -/
theorem ofScientific_whole {n : Nat} (hn : n ≠ 0) :
    UnpackedFloat.ofScientific .binary64 n 0 =
      roundWithAccuracy .binary64 .positive (n * 2 ^ 53) (-53) .exact := by
  have hbits : Format.binary64.mantissaBits = 53 := rfl
  unfold UnpackedFloat.ofScientific
  rw [dif_neg hn, if_neg (by decide), if_neg (by simp), if_pos (by decide), mul_ten_pow_zero, hbits,
    Nat.shiftLeft_eq]
  rfl

/-- Half a unit beyond the greatest number: from here on a whole number comes to an infinity. -/
def leastInfinite : Nat := (2 ^ 54 - 1) * 2 ^ 970

/-- From half a unit below a power of two on, the exponent is that of the power. -/
theorem exponent_lt_iff {n p : Nat} (hn : n ≠ 0) {e : Int}
    (he : e = if (2 ^ 54 - 1) * 2 ^ (n.log2 + 1) ≤ 2 * (n * 2 ^ 53)
      then -53 + ((n.log2 + 1 : Nat) : Int) + 1 else -53 + ((n.log2 + 1 : Nat) : Int)) :
    p + 1 < e ↔ (2 ^ 54 - 1) * 2 ^ p ≤ n := by
  have hlow := Nat.log2_self_le hn
  have hhigh := Nat.lt_log2_self (n := n)
  rcases Nat.lt_trichotomy n.log2 (53 + p) with hlt | heq | hgt
  · have hbound : 2 ^ (n.log2 + 1) ≤ 2 ^ (53 + p) := Nat.pow_le_pow_right (by decide) hlt
    rw [Nat.pow_add 2 53] at hbound
    split at he <;> omega
  · rw [heq, show 53 + p + 1 = 54 + p by omega, Nat.pow_add 2 54] at he
    split at he <;> omega
  · have hbound : 2 ^ (54 + p) ≤ 2 ^ n.log2 := Nat.pow_le_pow_right (by decide) (by omega)
    rw [Nat.pow_add 2 54] at hbound
    split at he <;> omega

theorem lt_mul_two_pow {n : Nat} (h : n < 2 ^ 53) (p : Nat) : n < (2 ^ 54 - 1) * 2 ^ p := by
  have hlt : n < 2 ^ 54 - 1 := h.trans (by decide)
  exact Nat.lt_of_lt_of_le hlt (Nat.le_mul_of_pos_right _ (Nat.two_pow_pos p))

/-- A positive whole number has the bits of a number that is one at least, and whose exponent is
beyond the greatest one exactly if the whole number is half a unit beyond the greatest number. -/
theorem ofNat_eq_pack {n : Nat} (hn : n ≠ 0) :
    ∃ (m : Nat) (e : Int) (hm : 0 < m),
      (Float.ofNat n).toModel = Float.Model.pack (.finite .positive m e hm) ∧ 2 ^ 52 ≤ m ∧
      m < 2 ^ 53 ∧ -52 ≤ e ∧ (971 < e ↔ leastInfinite ≤ n) := by
  show ∃ (m : Nat) (e : Int) (hm : 0 < m),
    (Float.ofScientific n false 0).toModel = _ ∧ _
  unfold Float.ofScientific
  split
  · next hsmall =>
    have hone : Float.exactlyRepresentablePowersOfTen[0] = 1 := by rfl
    simp only [hone]
    obtain ⟨m, e, hm, hunpack, hlong, hshort, hlow, hhigh⟩ := toFloat_of_lt hn hsmall.1
    have hlog : (m * 2 ^ 52).log2 = 52 + 52 := by
      rw [log2_mul_two_pow hm.ne']
      have h52 := (Nat.le_log2 hm.ne').2 hlong
      have h53 := (Nat.log2_lt hm.ne').2 hshort
      omega
    obtain ⟨m', f, hm', hround, hlong', hshort', hf⟩ :=
      roundWithAccuracy_long (s := .positive) (e := e + -52) hlog (by omega)
    have hfinite : n < leastInfinite := lt_mul_two_pow hsmall.1 970
    refine ⟨m', f, hm', ?_, hlong', hshort', by split at hf <;> omega, by split at hf <;> omega⟩
    show Float.Model.pack (UnpackedFloat.mul .binary64 n.toUInt64.toFloat.toModel.unpack
      (1 : Float).toModel.unpack) = _
    rw [hunpack, unpack_one, ← hround]
    rfl
  · next hlarge =>
    have hlog : (n * 2 ^ 53).log2 = (n.log2 + 1) + 52 := log2_mul_two_pow hn 53
    obtain ⟨m, e, hm, hround, hlong, hshort, he⟩ :=
      roundWithAccuracy_long (s := .positive) (e := -53) hlog (by omega)
    refine ⟨m, e, hm, ?_, hlong, hshort, by split at he <;> omega, ?_⟩
    · show Float.Model.pack (UnpackedFloat.ofScientific .binary64 n 0) = _
      rw [ofScientific_whole hn, hround]
    · exact exponent_lt_iff (p := 970) hn he

/-- A positive whole number comes to an infinity, or to a number that is one at least. -/
theorem unpack_ofNat {n : Nat} (hn : n ≠ 0) :
    (leastInfinite ≤ n ∧ (Float.ofNat n).toModel.unpack = .infinity .positive) ∨
      n < leastInfinite ∧ ∃ (m : Nat) (e : Int) (hm : 0 < m),
        (Float.ofNat n).toModel.unpack = .finite .positive m e hm ∧ 2 ^ 52 ≤ m ∧ -52 ≤ e := by
  obtain ⟨m, e, hm, hpack, hlong, hshort, hlow, hiff⟩ := ofNat_eq_pack hn
  rw [hpack]
  by_cases he : 971 < e
  · exact .inl ⟨hiff.1 he, unpack_pack_beyond hm he⟩
  · have hpacked : Packed m e := ⟨hshort, by omega, by omega, .inr hlong⟩
    refine .inr ⟨Nat.not_le.1 (mt hiff.2 he), m, e, hm, ?_, hlong, hlow⟩
    exact unpack_pack (u := .finite .positive m e hm) hpacked

theorem isInf_ofNat_iff {n : Nat} : (Float.ofNat n).isInf = true ↔ leastInfinite ≤ n := by
  by_cases hn : n = 0
  · subst hn
    have hlt : 0 < leastInfinite := lt_mul_two_pow (by decide) 970
    exact iff_of_false (by decide) (Nat.not_le.2 hlt)
  · show (Float.ofNat n).toModel.unpack.isInf = true ↔ _
    obtain ⟨hle, hunpack⟩ | ⟨hlt, m, e, hm, hunpack, -, -⟩ := unpack_ofNat hn
    · rw [hunpack]
      exact iff_of_true rfl hle
    · rw [hunpack]
      exact iff_of_false Bool.false_ne_true (Nat.not_le.2 hlt)

/-- Rounding does not take a positive whole number below one. -/
theorem one_le_ofNat {n : Nat} (hn : n ≠ 0) : 1 ≤ Float.ofNat n := by
  have hone : rank 1 = Rank.of 1 (-52) (2 ^ 52 : Nat) := by
    rw [rank, unpack_one]
    rfl
  rw [le_iff_rank_le rfl (isNaN_ofNat n), hone, rank]
  obtain ⟨-, hunpack⟩ | ⟨-, m, e, hm, hunpack, hlong, hlow⟩ := unpack_ofNat hn
  · rw [hunpack]
    exact Rank.of_le_of.2 (.inl (by decide))
  · rw [hunpack]
    exact Rank.of_le_of.2 (.inr ⟨rfl, by omega⟩)

/-! ### Signs -/

theorem unpack_neg (x : Float) : (-x).toModel.unpack = x.toModel.unpack.neg := by
  show (Float.Model.pack x.toModel.unpack.neg).unpack = _
  cases hu : x.toModel.unpack with
  | infinity s => cases s <;> rfl
  | notANumber => rfl
  | zero s => cases s <;> rfl
  | finite s m e hm => exact unpack_pack_finite hm (packed_of_unpack hu)

theorem isInf_neg (x : Float) : (-x).isInf = x.isInf := by
  show (-x).toModel.unpack.isInf = x.toModel.unpack.isInf
  rw [unpack_neg]
  cases x.toModel.unpack <;> rfl

/-- Changing both signs turns the order round. -/
theorem compare_neg (a b : UnpackedFloat) : a.neg.compare b.neg = b.compare a := by
  rcases a with (_ | _) | _ | (_ | _) | ⟨_ | _, m, e, hm⟩ <;>
    rcases b with (_ | _) | _ | (_ | _) | ⟨_ | _, n, f, hn⟩ <;>
    try rfl
  -- what is left are two finite numbers of one sign
  · show some ((compare e f).then (compare m n)) = some ((compare f e).then (compare n m)).swap
    rw [Ordering.swap_then, Int.compare_swap, Nat.compare_swap]
  · show some ((compare e f).then (compare m n)).swap = some ((compare f e).then (compare n m))
    rw [Ordering.swap_then, Int.compare_swap, Nat.compare_swap]

theorem neg_le_neg {x y : Float} (h : x ≤ y) : -y ≤ -x := by
  rw [le_iff_compare] at h ⊢
  rwa [unpack_neg, unpack_neg, compare_neg]

/-! ### Integers -/

theorem isInf_ofInt_iff {n : Int} : (Float.ofInt n).isInf = true ↔ leastInfinite ≤ n.natAbs := by
  cases n with
  | ofNat n => exact isInf_ofNat_iff
  | negSucc n =>
    show (-Float.ofNat n.succ).isInf = true ↔ _
    rw [isInf_neg, isInf_ofNat_iff]
    rfl

theorem one_le_ofInt {n : Int} (hn : 0 < n) : 1 ≤ Float.ofInt n := by
  cases n with
  | ofNat n => exact one_le_ofNat (Int.natCast_pos.1 hn).ne'
  | negSucc n => exact absurd hn (Int.negSucc_lt_zero n).not_gt

theorem ofInt_le_neg_one {n : Int} (hn : n < 0) : Float.ofInt n ≤ -1 := by
  cases n with
  | ofNat n => exact absurd hn (Int.natCast_nonneg n).not_gt
  | negSucc n => exact neg_le_neg (one_le_ofNat n.succ_ne_zero)

/-- An integer that is written without an exponent. -/
theorem ofDigits_whole (n : Int) : Decimal.ofDigits (n < 0) n.natAbs 0 = Float.ofInt n := by
  have hsize : ¬ 0 * 3 + (Nat.log2 n.natAbs : Int) < -1200 := by omega
  unfold Decimal.ofDigits
  by_cases hn : n = 0
  · subst hn
    rfl
  · have hdigits : ¬ (n.natAbs == 0) = true := by simpa using hn
    simp only [if_neg hsize, if_neg hdigits, if_neg (show ¬ (0 : Int) > 400 by decide)]
    cases n with
    | ofNat n => rfl
    | negSucc n =>
      rw [if_pos (decide_eq_true (Int.negSucc_lt_zero n))]
      rfl

end TieredMemory.Number
