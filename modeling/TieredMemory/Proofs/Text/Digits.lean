import Mathlib
import TieredMemory.Decimal.Places
import TieredMemory.Text.Quoted

/-!
# Numbers of a fixed width

A number that is small enough for the width is written with exactly so many digits, in any base up to
sixteen (`padded_toList`, `hexadecimal_eq`). Numbers of one width are in the order of their texts
(`fixedDigits_lt_iff`), and a decimal one is read back digit by digit (`value_fixedDigits`).
-/

namespace TieredMemory.Text

/-- The digits of `n` in base `b` at the lowest `width` places, the highest place first. -/
def fixedDigits (b : Nat) : Nat → Nat → List Char
  | 0, _ => []
  | width + 1, n => Nat.digitChar (n / b ^ width) :: fixedDigits b width (n % b ^ width)

theorem length_fixedDigits (b width n : Nat) : (fixedDigits b width n).length = width := by
  induction width generalizing n with
  | zero => rfl
  | succ width ih => simp [fixedDigits, ih]

/-- The digit at the lowest place can be split off, too. -/
theorem fixedDigits_concat {b width n : Nat} (hb : 1 < b) (hn : n < b ^ (width + 1)) :
    fixedDigits b (width + 1) n = fixedDigits b width (n / b) ++ [Nat.digitChar (n % b)] := by
  induction width generalizing n with
  | zero =>
    have h : n < b := by simpa using hn
    simp [fixedDigits, Nat.mod_eq_of_lt h]
  | succ width ih =>
    have hhead : n / b ^ (width + 1) = n / b / b ^ width := by
      rw [Nat.div_div_eq_div_mul, pow_succ']
    have hrest : n % b ^ (width + 1) / b = n / b % b ^ width := by
      rw [pow_succ', Nat.mod_mul_right_div_self]
    have hlast : n % b ^ (width + 1) % b = n % b := Nat.mod_mod_of_dvd n (dvd_pow_self b (by omega))
    calc fixedDigits b (width + 2) n
        = Nat.digitChar (n / b ^ (width + 1)) :: fixedDigits b (width + 1) (n % b ^ (width + 1)) :=
          rfl
      _ = fixedDigits b (width + 1) (n / b) ++ [Nat.digitChar (n % b)] := by
          rw [ih (Nat.mod_lt _ (Nat.pow_pos (by omega))), hhead, hrest, hlast]
          rfl

/-- Digits with zeros in front of them are the digits of the width. -/
theorem replicate_append_toDigits {b : Nat} (hb : 1 < b) {width n : Nat} (hw : 0 < width)
    (hn : n < b ^ width) :
    List.replicate (width - (Nat.toDigits b n).length) '0' ++ Nat.toDigits b n =
      fixedDigits b width n := by
  induction width generalizing n with
  | zero => omega
  | succ width ih =>
    rw [fixedDigits_concat hb hn]
    rcases Nat.eq_zero_or_pos width with rfl | hpos
    · have h : n < b := by simpa using hn
      simp [Nat.toDigits_of_lt_base h, fixedDigits, Nat.mod_eq_of_lt h]
    · have hdiv : n / b < b ^ width :=
        Nat.div_lt_of_lt_mul (by rwa [pow_succ'] at hn)
      rw [← ih hpos hdiv, List.append_assoc]
      rcases lt_or_ge n b with h | h
      · -- one digit alone: the number without it is zero, which has a digit of its own
        have hzero : n / b = 0 := Nat.div_eq_of_lt h
        obtain ⟨k, rfl⟩ : ∃ k, width = k + 1 := ⟨width - 1, by omega⟩
        simp [Nat.toDigits_of_lt_base h, hzero, Nat.mod_eq_of_lt h, List.replicate_succ']
      · rw [Nat.toDigits_of_base_le hb h]
        simp

theorem padded_toList {width n : Nat} (hw : 0 < width) (hn : n < 10 ^ width) :
    (Decimal.padded width n).toList = fixedDigits 10 width n := by
  simp only [Decimal.padded, Decimal.digits, String.toList_ofList]
  exact replicate_append_toDigits (by omega) hw hn

theorem hexadecimal_eq {width n : Nat} (hw : 0 < width) (hn : n < 16 ^ width) :
    hexadecimal width n = fixedDigits 16 width n :=
  replicate_append_toDigits (by omega) hw hn

theorem digitChar_lt_iff {m n : Nat} (hm : m < 10) (hn : n < 10) :
    Nat.digitChar m < Nat.digitChar n ↔ m < n := by
  have h : Nat.digitChar m < Nat.digitChar n ↔
      (Nat.digitChar m).toNat < (Nat.digitChar n).toNat := UInt32.lt_iff_toNat_lt
  rw [h, Nat.toNat_digitChar_of_lt_ten hm, Nat.toNat_digitChar_of_lt_ten hn]
  omega

theorem digitChar_inj {m n : Nat} (hm : m < 10) (hn : n < 10) :
    Nat.digitChar m = Nat.digitChar n ↔ m = n := by
  refine ⟨fun h => ?_, fun h => h ▸ rfl⟩
  have h := congrArg Char.toNat h
  rw [Nat.toNat_digitChar_of_lt_ten hm, Nat.toNat_digitChar_of_lt_ten hn] at h
  omega

theorem fixedDigits_inj {width m n : Nat} (hm : m < 10 ^ width) (hn : n < 10 ^ width) :
    fixedDigits 10 width m = fixedDigits 10 width n ↔ m = n := by
  induction width generalizing m n with
  | zero => simp_all [fixedDigits]
  | succ width ih =>
    have hpos : 0 < 10 ^ width := Nat.pow_pos (by omega)
    have hm' : m / 10 ^ width < 10 := Nat.div_lt_of_lt_mul (by rwa [pow_succ] at hm)
    have hn' : n / 10 ^ width < 10 := Nat.div_lt_of_lt_mul (by rwa [pow_succ] at hn)
    simp only [fixedDigits, List.cons.injEq, digitChar_inj hm' hn',
      ih (Nat.mod_lt m hpos) (Nat.mod_lt n hpos)]
    refine ⟨fun ⟨hd, hr⟩ => ?_, fun h => h ▸ ⟨rfl, rfl⟩⟩
    rw [← Nat.div_add_mod m (10 ^ width), ← Nat.div_add_mod n (10 ^ width), hd, hr]

/-- Numbers of one width are in the order of their digits. -/
theorem fixedDigits_lt_iff {width m n : Nat} (hm : m < 10 ^ width) (hn : n < 10 ^ width) :
    fixedDigits 10 width m < fixedDigits 10 width n ↔ m < n := by
  induction width generalizing m n with
  | zero =>
    have : m = n := by simp at hm hn; omega
    simp [fixedDigits, this]
  | succ width ih =>
    have hpos : 0 < 10 ^ width := Nat.pow_pos (by omega)
    have hm' : m / 10 ^ width < 10 := Nat.div_lt_of_lt_mul (by rwa [pow_succ] at hm)
    have hn' : n / 10 ^ width < 10 := Nat.div_lt_of_lt_mul (by rwa [pow_succ] at hn)
    simp only [fixedDigits, List.cons_lt_cons_iff, digitChar_lt_iff hm' hn', digitChar_inj hm' hn',
      ih (Nat.mod_lt m hpos) (Nat.mod_lt n hpos)]
    constructor
    · rintro (h | ⟨he, h⟩)
      · exact Nat.lt_of_div_lt_div h
      · rw [← Nat.div_add_mod m (10 ^ width), ← Nat.div_add_mod n (10 ^ width), he]
        omega
    · intro h
      rcases (Nat.div_le_div_right (c := 10 ^ width) h.le).lt_or_eq with hd | hd
      · exact .inl hd
      · refine .inr ⟨hd, ?_⟩
        rw [← Nat.div_add_mod m (10 ^ width), ← Nat.div_add_mod n (10 ^ width), hd] at h
        omega

theorem append_lt_append_iff {xs ys : List Char} (h : xs.length = ys.length) (r s : List Char) :
    xs ++ r < ys ++ s ↔ xs < ys ∨ xs = ys ∧ r < s := by
  induction xs generalizing ys with
  | nil => simp [List.length_eq_zero_iff.1 h.symm]
  | cons x xs ih =>
    cases ys with
    | nil => simp at h
    | cons y ys =>
      simp only [List.cons_append, List.cons_lt_cons_iff, ih (Nat.succ.inj h), List.cons.injEq]
      tauto

/-- Texts that begin with a number of one width are in the order of the numbers, then of what
follows. -/
theorem fixedDigits_append_lt_iff {width m n : Nat} (hm : m < 10 ^ width) (hn : n < 10 ^ width)
    (r s : List Char) :
    fixedDigits 10 width m ++ r < fixedDigits 10 width n ++ s ↔ m < n ∨ m = n ∧ r < s := by
  rw [append_lt_append_iff (by simp [length_fixedDigits]), fixedDigits_lt_iff hm hn,
    fixedDigits_inj hm hn]

theorem isDigit_fixedDigits {width n : Nat} (hn : n < 10 ^ width) :
    ∀ c ∈ fixedDigits 10 width n, c.isDigit := by
  induction width generalizing n with
  | zero => simp [fixedDigits]
  | succ width ih =>
    have hd : n / 10 ^ width < 10 := Nat.div_lt_of_lt_mul (by rwa [pow_succ] at hn)
    intro c hc
    simp only [fixedDigits, List.mem_cons] at hc
    rcases hc with rfl | hc
    · simpa using hd
    · exact ih (Nat.mod_lt n (Nat.pow_pos (by omega))) c hc

/-- The digits of a number give it back, after what was read before. -/
theorem value_fixedDigits {width n : Nat} (hn : n < 10 ^ width) (before : Nat) :
    (fixedDigits 10 width n).foldl (fun n c => n * 10 + (c.toNat - 48)) before =
      before * 10 ^ width + n := by
  induction width generalizing n before with
  | zero =>
    simp at hn
    simp [fixedDigits, hn]
  | succ width ih =>
    have hd : n / 10 ^ width < 10 := Nat.div_lt_of_lt_mul (by rwa [pow_succ] at hn)
    have hrest := Nat.div_add_mod n (10 ^ width)
    simp only [fixedDigits, List.foldl_cons]
    rw [ih (Nat.mod_lt n (Nat.pow_pos (by omega))), Nat.toNat_digitChar_sub_48_of_lt_ten hd]
    calc (before * 10 + n / 10 ^ width) * 10 ^ width + n % 10 ^ width
        = before * 10 ^ (width + 1) + (10 ^ width * (n / 10 ^ width) + n % 10 ^ width) := by ring
      _ = before * 10 ^ (width + 1) + n := by rw [hrest]

end TieredMemory.Text
