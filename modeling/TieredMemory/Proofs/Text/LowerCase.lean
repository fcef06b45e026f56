import TieredMemory.Proofs.Text.Case

/-!
# Texts in lower case

Lower-casing leaves a character as it is, wherever it stands, if the character is its own lower-case
form and has none of the two rules beyond the table (`IsSettled`). A text of such characters is its own
lower-case form (`lower_eq_self`), and the lower-case form of any text is one, so that lower-casing again
changes nothing (`lower_lower`). For this the table is gone through once: no distance in it leads from a
capital letter to another one (`lowerRuns_leaves`).
-/

namespace TieredMemory.Text

variable {c : Char} {l before : List Char} {s : String}

/-- Lower-casing leaves the character as it is, whatever stands around it. -/
structure IsSettled (c : Char) : Prop where
  ne_sigma : c ≠ 'Σ'
  ne_dotted : c ≠ 'İ'
  eq_self : lowerChar c = c

instance (c : Char) : Decidable (IsSettled c) :=
  decidable_of_iff (c ≠ 'Σ' ∧ c ≠ 'İ' ∧ lowerChar c = c)
    ⟨fun h => ⟨h.1, h.2.1, h.2.2⟩, fun h => ⟨h.1, h.2, h.3⟩⟩

theorem lowerFrom_eq_self (h : ∀ c ∈ l, IsSettled c) (before : List Char) :
    lowerFrom before l = l := by
  induction l generalizing before with
  | nil => rfl
  | cons c r ih =>
    obtain ⟨hc, hr⟩ := List.forall_mem_cons.1 h
    rw [lowerFrom, if_neg hc.ne_sigma, if_neg hc.ne_dotted, hc.eq_self, ih hr]

/-- A text of settled characters is its own lower-case form. -/
theorem lower_eq_self (h : ∀ c ∈ s.toList, IsSettled c) : lower s = s := by
  rw [lower, lowerFrom_eq_self h, String.ofList_toList]

/-- In ASCII every character but the capital letters is settled. -/
theorem isSettled_of_ascii (hc : c.toNat < 128) (hcapital : c.toNat < 65 ∨ 90 < c.toNat) :
    IsSettled c where
  ne_sigma := by
    rintro rfl
    exact absurd hc (by decide)
  ne_dotted := by
    rintro rfl
    exact absurd hc (by decide)
  eq_self := by
    rw [lowerChar, if_pos hc]
    refine if_neg fun hupper => ?_
    obtain ⟨hlow, hhigh⟩ := toNat_of_capital hupper
    omega

/-! ### The table -/

/-- The images of the members of `r` are not members of `b`: they lie below or above it, or between
every two of its members. -/
def leaves (r b : ShiftRun) : Bool :=
  (r.2.1 + r.2.2.2).toNat.blt b.1 || b.2.1.blt (r.1 + r.2.2.2).toNat
    || (b.2.2.1 == 2 && (r.2.2.1 == 2 || r.1 == r.2.1) && ((r.1 + r.2.2.2).toNat + b.1) % 2 == 1)

/-- What a run is moved to by its distance is not in a run that it leaves. -/
theorem not_holds_of_leaves {r b : ShiftRun} (h : leaves r b = true) (hpos : 0 ≤ r.1 + r.2.2.2)
    {n : Nat} (hn : ShiftRun.holds n r = true) :
    ShiftRun.holds (n + r.2.2.2).toNat b = false := by
  obtain ⟨first, last, step, shift⟩ := r
  obtain ⟨low, high, width, shift'⟩ := b
  simp only [leaves, ShiftRun.holds, Bool.or_eq_true, Bool.and_eq_true, Nat.blt_eq, beq_iff_eq,
    decide_eq_true_eq] at h hn hpos
  obtain ⟨⟨hfirst, hlast⟩, hstep⟩ := hn
  by_contra hmem
  simp only [ShiftRun.holds, Bool.not_eq_false, Bool.and_eq_true, decide_eq_true_eq,
    beq_iff_eq] at hmem
  obtain ⟨⟨hlow, hhigh⟩, hwidth⟩ := hmem
  -- between two members of `b` the image has the other parity: all images of `r` have the same one
  obtain (hbelow | habove) | ⟨⟨rfl, rfl | rfl⟩, hodd⟩ := h
  · omega
  · omega
  · omega
  · omega

/-- The capital letters of the table and the one that has two characters as its lower-case form. -/
def capitals : List ShiftRun := (0x130, 0x130, 1, 0) :: Case.lowerRuns

/-- No distance in the table leads to a capital letter. -/
theorem lowerRuns_leaves : ∀ r ∈ Case.lowerRuns,
    0 ≤ r.1 + r.2.2.2 ∧ ∀ b ∈ capitals, leaves r b = true := by
  have hall : (Case.lowerRuns.all fun r =>
      decide (0 ≤ r.1 + r.2.2.2) && capitals.all (leaves r)) = true := by
    decide +kernel
  simpa [List.all_eq_true] using hall

/-- The image of a capital letter is no capital letter. -/
theorem not_holds_capitals {r : ShiftRun} (hr : r ∈ Case.lowerRuns) {n : Nat}
    (hn : ShiftRun.holds n r = true) {b : ShiftRun} (hb : b ∈ capitals) :
    ShiftRun.holds (n + r.2.2.2).toNat b = false := by
  obtain ⟨hpos, hleaves⟩ := lowerRuns_leaves r hr
  exact not_holds_of_leaves (hleaves b hb) hpos hn

/-- A character that is no capital letter is settled. -/
theorem isSettled_of_capitals (h : ∀ b ∈ capitals, ShiftRun.holds c.toNat b = false) :
    IsSettled c := by
  by_cases hascii : c.toNat < 128
  · have hlatin : ShiftRun.holds c.toNat (0x41, 0x5A, 1, 32) = false :=
      h _ (List.mem_cons_of_mem _ List.mem_cons_self)
    refine isSettled_of_ascii hascii ?_
    by_contra hcapital
    have hholds : ShiftRun.holds c.toNat (0x41, 0x5A, 1, 32) = true := by
      simp [ShiftRun.holds, Nat.mod_one]
      omega
    rw [hlatin] at hholds
    cases hholds
  · have hnone : Case.lowerRuns.find? (ShiftRun.holds c.toNat) = none := by
      rw [List.find?_eq_none]
      intro b hb
      simp [h b (List.mem_cons_of_mem _ hb)]
    refine ⟨?_, ?_, ?_⟩
    · rintro rfl
      exact absurd (h (0x3A3, 0x3AB, 1, 32) (by decide +kernel)) (by decide)
    · rintro rfl
      exact absurd (h (0x130, 0x130, 1, 0) List.mem_cons_self) (by decide)
    · rw [lowerChar, if_neg hascii, shifted, hnone]

/-- Lower-casing by the table leaves a settled character, also where a distance would leave the
characters. -/
theorem isSettled_image {r : ShiftRun} (hr : r ∈ Case.lowerRuns) {n : Nat}
    (hn : ShiftRun.holds n r = true) : IsSettled (Char.ofNat (n + r.2.2.2).toNat) := by
  by_cases hvalid : (n + r.2.2.2).toNat.isValidChar
  · refine isSettled_of_capitals fun b hb => ?_
    rw [Char.toNat_ofNat, if_pos hvalid]
    exact not_holds_capitals hr hn hb
  · have hzero : (Char.ofNat (n + r.2.2.2).toNat).toNat = 0 := by
      rw [Char.toNat_ofNat, if_neg hvalid]
    exact isSettled_of_ascii (by omega) (by omega)

/-- Where lower-casing changes a character, it leaves a settled one. -/
theorem isSettled_or_lowerChar_eq (c : Char) : IsSettled (lowerChar c) ∨ lowerChar c = c := by
  unfold lowerChar
  split
  · split
    · next hupper =>
      obtain ⟨hlow, hhigh⟩ := toNat_of_capital hupper
      have himage : (Char.ofNat (c.toNat + 32)).toNat = c.toNat + 32 := by
        rw [Char.toNat_ofNat, if_pos (.inl (by omega))]
      exact .inl (isSettled_of_ascii (by omega) (by omega))
    · exact .inr rfl
  · unfold shifted
    split
    · next r hfind =>
      exact .inl (isSettled_image (List.mem_of_find?_eq_some hfind) (List.find?_some hfind))
    · exact .inr rfl

theorem isSettled_lowerChar (hsigma : c ≠ 'Σ') (hdotted : c ≠ 'İ') : IsSettled (lowerChar c) := by
  rcases isSettled_or_lowerChar_eq c with h | h
  · exact h
  · rw [h]
    exact ⟨hsigma, hdotted, h⟩

/-! ### Lower-casing again -/

/-- The lower-case form of a text is made of settled characters. -/
theorem isSettled_of_mem_lowerFrom (h : c ∈ lowerFrom before l) : IsSettled c := by
  induction l generalizing before with
  | nil => cases h
  | cons d r ih =>
    have hsmall : IsSettled 'ς' ∧ IsSettled 'σ' ∧ IsSettled 'i' ∧ IsSettled '\u0307' := by
      decide +kernel
    rw [lowerFrom] at h
    split at h
    · rcases List.mem_cons.1 h with rfl | h
      · split
        · exact hsmall.1
        · exact hsmall.2.1
      · exact ih h
    · split at h
      · rcases List.mem_cons.1 h with rfl | h
        · exact hsmall.2.2.1
        · rcases List.mem_cons.1 h with rfl | h
          · exact hsmall.2.2.2
          · exact ih h
      · next hsigma hdotted =>
        rcases List.mem_cons.1 h with rfl | h
        · exact isSettled_lowerChar hsigma hdotted
        · exact ih h

/-- Lower-casing a text again changes nothing. -/
theorem lower_lower (s : String) : lower (lower s) = lower s := by
  refine lower_eq_self fun c hc => ?_
  rw [lower, String.toList_ofList] at hc
  exact isSettled_of_mem_lowerFrom hc

end TieredMemory.Text
