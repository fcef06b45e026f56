import Mathlib
import TieredMemory.Proofs.Number.Rounding

/-!
# Differences of floating-point numbers

Taking a number away that is not negative does not make a number greater, whatever rounding does:
what is left of a number that is not negative is rounded within it, and what is missing is rounded
within what was taken away (`InUnit.sub_le`). The result is a number again.
-/

namespace TieredMemory.Number

open Float.Model Float.Model.UnpackedFloat

theorem Rank.of_le_of {c e m c' e' m' : Int} :
    of c e m ≤ of c' e' m' ↔ c < c' ∨ c = c' ∧ (e < e' ∨ e = e' ∧ m ≤ m') := by
  simp [Rank.of, Prod.Lex.le_iff]

/-- The number is between zero and one. -/
def InUnit (x : Float) : Prop := 0 ≤ x ∧ x ≤ 1

instance (x : Float) : Decidable (InUnit x) := inferInstanceAs (Decidable (0 ≤ x ∧ x ≤ 1))

theorem InUnit.isNaN {x : Float} (h : InUnit x) : x.isNaN = false := (isNaN_eq_false_of_le h.1).2

/-- Zero, or a positive number that fits into 64 bits. -/
def Magnitude : UnpackedFloat → Prop
  | .zero _ => True
  | .finite .positive m e _ => Packed m e
  | _ => False

theorem InUnit.magnitude {x : Float} (h : InUnit x) : Magnitude x.toModel.unpack := by
  have hx : x.toModel.unpack.isNaN = false := h.isNaN
  have hlower : .of 0 0 0 ≤ rankOf x.toModel.unpack := (le_iff_rank_le rfl hx).1 h.1
  have hupper : rankOf x.toModel.unpack ≤ .of 1 (-52) (2 ^ 52) := (le_iff_rank_le hx rfl).1 h.2
  have hpacked : ∀ {s m e hm}, x.toModel.unpack = .finite s m e hm → Packed m e := packed_of_unpack
  generalize x.toModel.unpack = u at hx hlower hupper hpacked
  rcases u with (_ | _) | _ | _ | ⟨_ | _, m, e, hm⟩
  · simp [rankOf, Rank.of_le_of] at hlower
  · simp [rankOf, Rank.of_le_of] at hupper
  · cases hx
  · trivial
  · simp [rankOf, Rank.of_le_of] at hlower
  · exact hpacked rfl

theorem Within.fits {s : Sign} {m : Nat} {e : Int} {u : UnpackedFloat} (h : Within s m e u) :
    Fits u := by
  rcases u with _ | _ | _ | _
  · exact h
  · exact h
  · trivial
  · exact h.2.1

theorem Within.rank_le {m : Nat} {e : Int} {u : UnpackedFloat} {hm : 0 < m}
    (h : Within .positive m e u) : rankOf u ≤ rankOf (.finite .positive m e hm) := by
  rcases u with _ | _ | _ | ⟨s, n, f, hn⟩
  · exact h.elim
  · exact h.elim
  · exact Rank.of_le_of.2 (.inl (by decide))
  · obtain ⟨rfl, -, hle⟩ := h
    exact Rank.of_le_of.2 (.inr ⟨rfl, by omega⟩)

theorem Within.rank_nonpos {m : Nat} {e : Int} {u : UnpackedFloat} (h : Within .negative m e u) :
    rankOf u ≤ .of 0 0 0 := by
  rcases u with _ | _ | _ | ⟨s, n, f, hn⟩
  · exact h.elim
  · exact h.elim
  · exact le_rfl
  · obtain ⟨rfl, -⟩ := h
    exact Rank.of_le_of.2 (.inl (by decide))

theorem rank_nonneg {u : UnpackedFloat} (h : Magnitude u) : .of 0 0 0 ≤ rankOf u := by
  rcases u with _ | _ | _ | ⟨_ | _, m, e, hm⟩
  · exact h.elim
  · exact h.elim
  · exact le_rfl
  · exact h.elim
  · exact Rank.of_le_of.2 (.inl (by decide))

/-- The exact difference of two magnitudes is rounded within the first one if it is positive, and
within the second one if it is negative. -/
theorem normalize_sub {m n : Nat} {e f : Int} (hm : 0 < m) (hpm : Packed m e) (hpn : Packed n f) :
    Fits (UnpackedFloat.normalize .binary64
      (m * 2 ^ (e - min e f).toNat - n * 2 ^ (f - min e f).toNat) (min e f) .positive) ∧
    rankOf (UnpackedFloat.normalize .binary64
      (m * 2 ^ (e - min e f).toNat - n * 2 ^ (f - min e f).toNat) (min e f) .positive) ≤
      rankOf (.finite .positive m e hm) := by
  have hcast (a b : Nat) : (a * 2 ^ b : Int) = (a * 2 ^ b : Nat) := by push_cast; rfl
  rw [hcast, hcast]
  generalize hM : m * 2 ^ (e - min e f).toNat = M
  generalize hN : n * 2 ^ (f - min e f).toNat = N
  unfold UnpackedFloat.normalize
  rcases lt_trichotomy ((M : Int) - N) 0 with hd | hd | hd
  · rw [compare_lt_iff_lt.2 hd]
    have hwithin : Within .negative n f
        (UnpackedFloat.round .binary64 .negative (-((M : Int) - N)).toNat (min e f)) :=
      round_within (by omega) hpn (min_le_right e f) (by omega)
    exact ⟨hwithin.fits, hwithin.rank_nonpos.trans (rank_nonneg (u := .finite .positive m e hm) hpm)⟩
  · rw [compare_eq_iff_eq.2 hd]
    exact ⟨trivial, rank_nonneg (u := .finite .positive m e hm) hpm⟩
  · rw [compare_gt_iff_gt.2 hd]
    have hwithin : Within .positive m e
        (UnpackedFloat.round .binary64 .positive ((M : Int) - N).toNat (min e f)) :=
      round_within (by omega) hpm (min_le_left e f) (by omega)
    exact ⟨hwithin.fits, hwithin.rank_le⟩

/-- A difference of magnitudes fits, and its rank is not above that of the first one. -/
theorem sub_magnitude {u v : UnpackedFloat} (hu : Magnitude u) (hv : Magnitude v) :
    Fits (UnpackedFloat.sub .binary64 u v) ∧ rankOf (UnpackedFloat.sub .binary64 u v) ≤ rankOf u := by
  rcases u with _ | _ | s | ⟨_ | _, m, e, hm⟩ <;> rcases v with _ | _ | t | ⟨_ | _, n, f, hn⟩ <;>
    try contradiction
  · cases s <;> cases t <;> exact ⟨trivial, le_rfl⟩
  · exact ⟨hv, Rank.of_le_of.2 (.inl (by decide))⟩
  · exact ⟨hu, le_rfl⟩
  · have := normalize_sub hm hu hv
    simpa [UnpackedFloat.sub, decreaseExponent, Nat.shiftLeft_eq, Sign.apply] using this

/-- Taking a number away from another one, both between zero and one, gives a number that is not
greater. -/
theorem InUnit.sub_le {x s : Float} (hx : InUnit x) (hs : InUnit s) : x - s ≤ x := by
  obtain ⟨hfits, hrank⟩ := sub_magnitude hx.magnitude hs.magnitude
  have hunpack : (x - s).toModel.unpack =
      UnpackedFloat.sub .binary64 x.toModel.unpack s.toModel.unpack := unpack_pack hfits
  have hnan : (x - s).isNaN = false := by
    show (x - s).toModel.unpack.isNaN = false
    rw [hunpack]
    revert hfits
    cases UnpackedFloat.sub .binary64 x.toModel.unpack s.toModel.unpack <;>
      simp [Fits, UnpackedFloat.isNaN]
  rw [le_iff_rank_le hnan hx.isNaN, rank, rank, hunpack]
  exact hrank

end TieredMemory.Number
