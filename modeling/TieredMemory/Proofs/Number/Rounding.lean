import Mathlib
import TieredMemory.Proofs.Number.Order

/-!
# Rounding

A finite number in 64 bits is a mantissa of 53 bits at most with an exponent between bounds
(`Packed`), and such a number is what its bits give back (`unpack_pack`). Rounding shifts a mantissa
that is too long to the right: it keeps the quotient and whether something was lost
(`ceiling_shiftRight_le`), and then takes the quotient or its successor. Hence what is not beyond a
packed number is not rounded to a number beyond it (`round_within`).
-/

namespace TieredMemory.Number

open Float.Model Float.Model.UnpackedFloat

/-- The mantissa and the exponent of a number in 64 bits: the mantissa has 53 bits at most, and fewer
only at the least exponent. -/
structure Packed (m : Nat) (e : Int) : Prop where
  mantissa_lt : m < 2 ^ 53
  least_le : -1074 ≤ e
  le_greatest : e ≤ 971
  full : e = -1074 ∨ 2 ^ 52 ≤ m

/-- Zero, or a number that fits into 64 bits. -/
def Fits : UnpackedFloat → Prop
  | .zero _ => True
  | .finite _ m e _ => Packed m e
  | _ => False

/-! ### Bits -/

theorem toNat_one_append (m : BitVec 52) : (1#1 ++ m).toNat = 2 ^ 52 + m.toNat := by
  rw [BitVec.toNat_append, ← Nat.shiftLeft_add_eq_or_of_lt m.isLt]
  simp [Nat.shiftLeft_eq]

/-- A finite number in 64 bits is packed. -/
theorem packed_of_unpack {b : BitVec 64} {s : Sign} {m : Nat} {e : Int} {hm : 0 < m}
    (h : UnpackedFloat.unpack .binary64 b = .finite s m e hm) : Packed m e := by
  have hexp : (@unpackExponent .binary64 b).toNat < 2 ^ 11 := (@unpackExponent .binary64 b).isLt
  have hmant : (@unpackMantissa .binary64 b).toNat < 2 ^ 52 := (@unpackMantissa .binary64 b).isLt
  unfold UnpackedFloat.unpack at h
  simp only at h
  split at h
  · split at h <;> cases h
  · next hones =>
    split at h
    · next hzero =>
      split at h
      · cases h
      · cases h
        refine ⟨hmant.trans (by decide), ?_, ?_, .inl ?_⟩ <;> rw [hzero] <;> decide
    · next hzero =>
      have hones : (@unpackExponent .binary64 b).toNat ≠ 2047 :=
        fun h => hones (BitVec.eq_of_toNat_eq h)
      have hzero : (@unpackExponent .binary64 b).toNat ≠ 0 :=
        fun h => hzero (BitVec.eq_of_toNat_eq h)
      have hbias : Format.binary64.exponentBias = 1023 := by decide
      have happend := toNat_one_append (@unpackMantissa .binary64 b)
      cases h
      refine ⟨?_, ?_, ?_, .inr ?_⟩
      · show (1#1 ++ @unpackMantissa .binary64 b).toNat < 2 ^ 53
        omega
      · omega
      · omega
      · show 2 ^ 52 ≤ (1#1 ++ @unpackMantissa .binary64 b).toNat
        omega

/-- The bits of a finite number with the biased exponent `k`. -/
theorem pack_finite {s : Sign} {m : Nat} {e : Int} (hm : 0 < m) {k : Nat}
    (hk : (e + Format.binary64.exponentBias + (52 : Nat)).toNat = k) :
    UnpackedFloat.pack .binary64 (.finite s m e hm) =
      if 2 ^ 11 ≤ k + 1 then packedInfinity .binary64 s
      else if m.log2 + 1 = 53 then
        packComponents .binary64 s (BitVec.ofNat 11 k) (BitVec.ofNat 52 m)
      else packComponents .binary64 s 0#11 (BitVec.ofNat 52 m) := by
  subst hk
  rfl

theorem unpack_pack_finite {s : Sign} {m : Nat} {e : Int} (hm : 0 < m) (h : Packed m e) :
    UnpackedFloat.unpack .binary64 (UnpackedFloat.pack .binary64 (.finite s m e hm)) =
      .finite s m e hm := by
  obtain ⟨hlt, hleast, hgreatest, hfull⟩ := h
  have hbias : Format.binary64.exponentBias = 1023 := by decide
  obtain ⟨k, hk⟩ : ∃ k : Nat, (e + Format.binary64.exponentBias + (52 : Nat)).toNat = k := ⟨_, rfl⟩
  have hcap : ¬ 2 ^ 11 ≤ k + 1 := by omega
  rw [pack_finite hm hk, if_neg hcap]
  by_cases hbits : 2 ^ 52 ≤ m
  · have hlog : m.log2 + 1 = 53 := by
      have h52 := (Nat.le_log2 hm.ne').2 hbits
      have h53 := (Nat.log2_lt hm.ne').2 hlt
      omega
    have hk' : (BitVec.ofNat 11 k).toNat = k := by
      rw [BitVec.toNat_ofNat]
      omega
    have hones : ¬ BitVec.ofNat 11 k = -1#11 := by
      intro hones
      have : k = 2047 := hk'.symm.trans (congrArg BitVec.toNat hones)
      omega
    have hzero : ¬ BitVec.ofNat 11 k = 0#11 := by
      intro hzero
      have : k = 0 := hk'.symm.trans (congrArg BitVec.toNat hzero)
      omega
    rw [if_pos hlog]
    have hm' : (1#1 ++ BitVec.ofNat 52 m).toNat = m := by
      rw [toNat_one_append, BitVec.toNat_ofNat]
      omega
    simp only [UnpackedFloat.unpack, unpackMantissa_packComponents, unpackExponent_packComponents,
      unpackSign_packComponents, Sign.ofBitVec_toBitVec]
    rw [if_neg hones, if_neg hzero]
    congr 1
    show ((BitVec.ofNat 11 k).toNat : Int) - _ = e
    rw [hk']
    omega
  · have hlog : ¬ m.log2 + 1 = 53 := by
      have := (Nat.log2_lt hm.ne').2 (not_le.1 hbits)
      omega
    have hm' : (BitVec.ofNat 52 m).toNat = m := by
      rw [BitVec.toNat_ofNat]
      omega
    have hzero : ¬ BitVec.ofNat 52 m = 0#52 := by
      intro hzero
      have : m = 0 := hm'.symm.trans (congrArg BitVec.toNat hzero)
      omega
    rw [if_neg hlog]
    simp only [UnpackedFloat.unpack, unpackMantissa_packComponents, unpackExponent_packComponents,
      unpackSign_packComponents, Sign.ofBitVec_toBitVec]
    rw [if_neg (by decide), if_pos True.intro, dif_neg hzero]
    congr 1
    show ((0 : Nat) : Int) - _ + 1 = e
    omega

/-- The bits of a number that fits give it back. -/
theorem unpack_pack {u : UnpackedFloat} (h : Fits u) : (Float.Model.pack u).unpack = u := by
  rcases u with _ | _ | s | ⟨s, m, e, hm⟩
  · exact h.elim
  · exact h.elim
  · cases s <;> rfl
  · exact unpack_pack_finite hm h

/-! ### Shifting -/

theorem targetExponent_eq (m : Nat) (e : Int) :
    Format.binary64.targetExponent (totalExponent m e) = max (m.log2 + e - 52) (-1074) := by
  simp only [Format.targetExponent, totalExponent, Format.mantissaBits, Format.minExponent]
  norm_num
  omega

/-- The least whole number that is not below what an extended mantissa stands for. -/
def ceiling (em : ExtendedMantissa) : Nat :=
  em.mantissa + if em.roundBit || em.stickyBit then 1 else 0

theorem shiftRight_succ (em : ExtendedMantissa) (k : Nat) :
    em >>> (k + 1) = (em >>> k).shiftRightOne := rfl

theorem mantissa_shiftRight (em : ExtendedMantissa) (k : Nat) :
    (em >>> k).mantissa = em.mantissa / 2 ^ k := by
  induction k with
  | zero => simp [HShiftRight.hShiftRight, Nat.repeat]
  | succ k ih =>
    rw [shiftRight_succ, ExtendedMantissa.shiftRightOne, ih, Nat.div_div_eq_div_mul, ← Nat.pow_succ]

theorem ceiling_shiftRightOne_le {em : ExtendedMantissa} {n : Nat} :
    ceiling em.shiftRightOne ≤ n ↔ ceiling em ≤ n * 2 := by
  obtain ⟨m, r, s⟩ := em
  rcases Nat.mod_two_eq_zero_or_one m with h | h <;> cases r <;> cases s <;>
    simp [ceiling, ExtendedMantissa.shiftRightOne, h] <;> omega

/-- Shifting to the right divides, and the residual bits keep whether something was lost. -/
theorem ceiling_shiftRight_le {em : ExtendedMantissa} {k n : Nat} :
    ceiling (em >>> k) ≤ n ↔ ceiling em ≤ n * 2 ^ k := by
  induction k generalizing n with
  | zero => simp [HShiftRight.hShiftRight, Nat.repeat]
  | succ k ih =>
    rw [shiftRight_succ, ceiling_shiftRightOne_le, ih, Nat.pow_succ]
    rw [Nat.mul_assoc, Nat.mul_comm 2]

theorem mantissa_le_roundedMantissa (em : ExtendedMantissa) :
    em.mantissa ≤ em.roundedMantissa := by
  obtain ⟨m, r, s⟩ := em
  cases r <;> cases s <;>
    simp [ExtendedMantissa.roundedMantissa, ExtendedMantissa.accuracy, Accuracy.roundToNearestEven]

theorem roundedMantissa_le_ceiling (em : ExtendedMantissa) :
    em.roundedMantissa ≤ ceiling em := by
  obtain ⟨m, r, s⟩ := em
  cases r <;> cases s <;>
    simp [ExtendedMantissa.roundedMantissa, ExtendedMantissa.accuracy, Accuracy.roundToNearestEven,
      ceiling]
  omega

theorem shiftToTargetExponent_eq {m k : Nat} {e t : Int}
    (ht : max (m.log2 + e - 52) (-1074) = t) (hk : (t - e).toNat = k) :
    shiftToTargetExponent .binary64 m e .exact =
      ((⟨m, false, false⟩ : ExtendedMantissa) >>> k, e + k) := by
  simp only [shiftToTargetExponent, shiftToExponent, targetExponent_eq, ht, hk]
  rfl

theorem shiftToTargetExponent_of_lt {m : Nat} {e : Int} (hm : m < 2 ^ 53) (he : -1074 ≤ e) :
    shiftToTargetExponent .binary64 m e .exact = (⟨m, false, false⟩, e) := by
  have hlog : m.log2 ≤ 52 := by
    by_cases h0 : m = 0
    · simp [h0]
    · have := (Nat.log2_lt h0).2 hm
      omega
  rw [shiftToTargetExponent_eq rfl (k := 0) (by omega)]
  simp [HShiftRight.hShiftRight, Nat.repeat]

/-- A mantissa that rounding has made one bit too long is halved. -/
theorem shiftToTargetExponent_full {e : Int} (he : -1074 ≤ e) :
    shiftToTargetExponent .binary64 (2 ^ 53) e .exact = (⟨2 ^ 52, false, false⟩, e + 1) := by
  have hlog : (2 ^ 53).log2 = 53 := Nat.log2_two_pow
  rw [shiftToTargetExponent_eq rfl (k := 1) (by omega)]
  rfl

/-! ### Rounding -/

theorem roundWithAccuracy_of_lt {s : Sign} {m r : Nat} {e t : Int} {em : ExtendedMantissa}
    (hfirst : shiftToTargetExponent .binary64 m e .exact = (em, t)) (hr : em.roundedMantissa = r)
    (hlt : r < 2 ^ 53) (ht : -1074 ≤ t) :
    roundWithAccuracy .binary64 s m e .exact =
      if h : r = 0 then .zero s else .finite s r t (Nat.pos_of_ne_zero h) := by
  unfold roundWithAccuracy
  simp only [hfirst, hr, shiftToTargetExponent_of_lt hlt ht]

theorem roundWithAccuracy_full {s : Sign} {m : Nat} {e t : Int} {em : ExtendedMantissa}
    (hfirst : shiftToTargetExponent .binary64 m e .exact = (em, t))
    (hr : em.roundedMantissa = 2 ^ 53) (ht : -1074 ≤ t) :
    roundWithAccuracy .binary64 s m e .exact = .finite s (2 ^ 52) (t + 1) (by decide) := by
  unfold roundWithAccuracy
  simp only [hfirst, hr, shiftToTargetExponent_full ht]
  rfl

/-- Zero, or a packed number of the sign that is not beyond `m` with the exponent `e`. -/
def Within (s : Sign) (m : Nat) (e : Int) : UnpackedFloat → Prop
  | .zero s' => s' = s
  | .finite s' m' e' _ => s' = s ∧ Packed m' e' ∧ (e' < e ∨ e' = e ∧ m' ≤ m)
  | _ => False

section

variable {s : Sign} {n m k : Nat} {e t f : Int}

/-- A mantissa that has been shifted to its target exponent has 53 bits, or the exponent is the
least one. -/
theorem full_shiftRight (hn : n ≠ 0) (ht : max (n.log2 + e - 52) (-1074) = t) (hk : t = e + k) :
    t = -1074 ∨ 2 ^ 52 ≤ ((⟨n, false, false⟩ : ExtendedMantissa) >>> k).mantissa := by
  by_cases hleast : t = -1074
  · exact .inl hleast
  · refine .inr ?_
    rw [mantissa_shiftRight, Nat.le_div_iff_mul_le (Nat.two_pow_pos k), ← Nat.pow_add]
    exact (Nat.le_log2 hn).1 (by omega)

/-- Rounding makes a mantissa that has been shifted to its target exponent one bit too long at
most. -/
theorem ceiling_shiftRight_le_two_pow (hn : n ≠ 0) (ht : max (n.log2 + e - 52) (-1074) = t)
    (hk : t = e + k) : ceiling ((⟨n, false, false⟩ : ExtendedMantissa) >>> k) ≤ 2 ^ 53 := by
  refine ceiling_shiftRight_le.2 ?_
  rw [← Nat.pow_add]
  have hlt : n < 2 ^ (53 + k) := (Nat.log2_lt hn).1 (by omega)
  simpa [ceiling] using hlt.le

/-- What is not beyond a packed number is not rounded to a number beyond it. -/
theorem roundWithAccuracy_within (hn : n ≠ 0) (ht : max (n.log2 + e - 52) (-1074) = t)
    (hk : t = e + k) (hm : Packed m f) (htf : t ≤ f) (hle : n ≤ m * 2 ^ (f - t).toNat * 2 ^ k) :
    Within s m f (roundWithAccuracy .binary64 s n e .exact) := by
  have hfirst : shiftToTargetExponent .binary64 n e .exact =
      ((⟨n, false, false⟩ : ExtendedMantissa) >>> k, t) := by
    rw [shiftToTargetExponent_eq ht (k := k) (by omega), hk]
  have hfull := full_shiftRight hn ht hk
  have hlower := mantissa_le_roundedMantissa ((⟨n, false, false⟩ : ExtendedMantissa) >>> k)
  have hupper := roundedMantissa_le_ceiling ((⟨n, false, false⟩ : ExtendedMantissa) >>> k)
  have hcap := hupper.trans (ceiling_shiftRight_le_two_pow hn ht hk)
  have hbound := hupper.trans
    (ceiling_shiftRight_le.2 (by simpa [ceiling] using hle) : _ ≤ m * 2 ^ (f - t).toNat)
  have hleast : -1074 ≤ t := by omega
  obtain ⟨hmlt, -, hgreatest, -⟩ := hm
  generalize hr : ((⟨n, false, false⟩ : ExtendedMantissa) >>> k).roundedMantissa = r at *
  rcases Nat.lt_or_eq_of_le hcap with hlt | heq
  · rw [roundWithAccuracy_of_lt hfirst hr hlt hleast]
    split
    · rfl
    · refine ⟨rfl, ⟨hlt, hleast, by omega, by omega⟩, ?_⟩
      rcases Int.lt_or_eq_of_le htf with hlt' | rfl
      · exact .inl hlt'
      · exact .inr ⟨rfl, by simpa using hbound⟩
  · rw [roundWithAccuracy_full hfirst (hr.trans heq) hleast]
    -- the mantissa of the bound is shorter, so its exponent is greater
    have hexp : t + 1 < f ∨ t + 1 = f ∧ 2 ^ 52 ≤ m := by
      obtain ⟨d, hd⟩ : ∃ d, (f - t).toNat = d := ⟨_, rfl⟩
      rw [heq, hd] at hbound
      match d with
      | 0 => omega
      | 1 => exact .inr ⟨by omega, by omega⟩
      | d + 2 => exact .inl (by omega)
    exact ⟨rfl, ⟨by decide, by omega, by omega, .inr le_rfl⟩, hexp⟩

end

theorem log2_mul_two_pow {n : Nat} (hn : n ≠ 0) (k : Nat) : (n * 2 ^ k).log2 = n.log2 + k := by
  induction k with
  | zero => simp
  | succ k ih =>
    have hpos : n * 2 ^ k ≠ 0 := Nat.mul_ne_zero hn (Nat.two_pow_pos k).ne'
    rw [Nat.pow_succ, ← Nat.mul_assoc, Nat.mul_comm, Nat.log2_two_mul hpos, ih]
    rfl

theorem round_within {s : Sign} {n m : Nat} {e f : Int} (hn : n ≠ 0) (hm : Packed m f)
    (hef : e ≤ f) (hle : n ≤ m * 2 ^ (f - e).toNat) :
    Within s m f (UnpackedFloat.round .binary64 s n e) := by
  have hm0 : m ≠ 0 := by
    rintro rfl
    omega
  have hlog : (n.log2 : Int) + e ≤ m.log2 + f := by
    have hmono : n.log2 ≤ (m * 2 ^ (f - e).toNat).log2 :=
      (Nat.le_log2 (Nat.mul_ne_zero hm0 (Nat.two_pow_pos _).ne')).2 ((Nat.log2_self_le hn).trans hle)
    rw [log2_mul_two_pow hm0] at hmono
    omega
  have hlogm : m.log2 ≤ 52 := by
    have := (Nat.log2_lt hm0).2 hm.mantissa_lt
    omega
  have hleast := hm.least_le
  unfold UnpackedFloat.round
  simp only [targetExponent_eq, decreaseExponent, Nat.shiftLeft_eq]
  generalize ht : max ((n.log2 : Int) + e - 52) (-1074) = t
  have htf : t ≤ f := by omega
  by_cases he : e ≤ t
  · -- the mantissa has bits to lose
    have h0 : (e - t).toNat = 0 := by omega
    obtain ⟨k, hk⟩ : ∃ k : Nat, t = e + k := ⟨(t - e).toNat, by omega⟩
    rw [h0]
    simp only [Nat.pow_zero, Nat.mul_one, Int.natCast_zero, Int.sub_zero]
    refine roundWithAccuracy_within hn ht hk hm htf ?_
    rw [Nat.mul_assoc, ← Nat.pow_add]
    rwa [show (f - t).toNat + k = (f - e).toNat by omega]
  · -- the mantissa is too short
    obtain ⟨k, hk⟩ : ∃ k : Nat, (e - t).toNat = k := ⟨_, rfl⟩
    rw [hk]
    refine roundWithAccuracy_within (k := 0) ?_ ?_ (by omega) hm htf ?_
    · exact Nat.mul_ne_zero hn (Nat.two_pow_pos k).ne'
    · rw [log2_mul_two_pow hn]
      omega
    · rw [Nat.pow_zero, Nat.mul_one, show (f - t).toNat = (f - e).toNat + k by omega, Nat.pow_add,
        ← Nat.mul_assoc]
      exact Nat.mul_le_mul_right _ hle

end TieredMemory.Number
