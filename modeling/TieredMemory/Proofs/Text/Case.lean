import TieredMemory.Proofs.Text.Blank

/-!
# Lower-casing a text in its parts

The lower-case form of a capital sigma depends on its neighbours, as far as the next character that is
not case-ignorable. A blank is neither case-ignorable nor cased, so nothing beyond a blank matters
(`lowerFrom_append_cons`): what is set off by blanks from the texts around it has the same lower-case
form as on its own (`SetOff.lower`). Without a capital sigma, what comes after a text does not matter
either (`lowerFrom_append`).
-/

namespace TieredMemory.Text

variable {c : Char} {l before : List Char} {p s t : String}

/-! ### Blanks among the character classes -/

/-- A blank is in none of the ranges if no blank range overlaps with one of them. -/
theorem inRanges_of_isBlank {ranges : List Range}
    (h : ∀ r ∈ ranges, ∀ b ∈ blankRanges, r.2 < b.1 ∨ b.2 < r.1) (hc : isBlank c = true) :
    inRanges ranges c = false := by
  obtain ⟨b, hb, hlow, hhigh⟩ := isBlank_iff.1 hc
  rw [inRanges, List.any_eq_false]
  intro r hr hholds
  simp only [Range.holds, Bool.and_eq_true, decide_eq_true_eq] at hholds
  rcases h r hr b hb with hbelow | habove <;> omega

theorem caseIgnorableRanges_apart : ∀ r ∈ Case.caseIgnorableRanges, ∀ b ∈ blankRanges,
    r.2 < b.1 ∨ b.2 < r.1 := by
  decide +kernel

theorem casedRanges_apart : ∀ r ∈ Case.casedRanges, ∀ b ∈ blankRanges,
    r.2 < b.1 ∨ b.2 < r.1 := by
  decide +kernel

theorem isCaseIgnorable_of_isBlank (hc : isBlank c = true) : isCaseIgnorable c = false :=
  inRanges_of_isBlank caseIgnorableRanges_apart hc

/-- The ASCII letters and digits are from 48 to 122, where there is no blank. -/
theorem isAlphanum_of_isBlank (hc : isBlank c = true) : c.isAlphanum = false := by
  have hrange := toNat_of_isBlank hc
  by_contra h
  rw [Bool.not_eq_false] at h
  simp only [Char.isAlphanum, Char.isAlpha, Char.isUpper, Char.isLower, Char.isDigit,
    Bool.or_eq_true, Bool.and_eq_true, decide_eq_true_eq, UInt32.le_iff_toNat_le, ge_iff_le] at h
  have : c.toNat = c.val.toNat := rfl
  have : 'A'.val.toNat = 65 := rfl
  have : 'Z'.val.toNat = 90 := rfl
  have : 'a'.val.toNat = 97 := rfl
  have : 'z'.val.toNat = 122 := rfl
  have : '0'.val.toNat = 48 := rfl
  have : '9'.val.toNat = 57 := rfl
  omega

theorem isCased_of_isBlank (hc : isBlank c = true) : isCased c = false := by
  unfold isCased
  split
  · have halphanum := isAlphanum_of_isBlank hc
    rw [Char.isAlphanum, Bool.or_eq_false_iff] at halphanum
    exact halphanum.1
  · exact inRanges_of_isBlank casedRanges_apart hc

theorem lowerChar_of_isBlank (hc : isBlank c = true) : lowerChar c = c := by
  unfold lowerChar
  split
  · refine if_neg fun hupper => ?_
    obtain ⟨hlow, hhigh⟩ := toNat_of_capital hupper
    have := toNat_of_isBlank hc
    omega
  · unfold shifted
    split
    · next r hfind =>
      obtain ⟨hsource, -⟩ :=
        isBlank_of_holds (List.mem_of_find?_eq_some hfind) (List.find?_some hfind)
      rw [Char.ofNat_toNat, hc] at hsource
      cases hsource
    · rfl

/-! ### What a sigma sees -/

/-- The search for a character that is not case-ignorable stops at a blank. -/
theorem dropWhile_append_cons (hc : isBlank c = true) (a x : List Char) :
    (a ++ c :: x).dropWhile isCaseIgnorable = a.dropWhile isCaseIgnorable ++ c :: x := by
  rw [List.dropWhile_append, List.dropWhile_cons_of_neg (by simp [isCaseIgnorable_of_isBlank hc])]
  split
  · next hall =>
    rw [List.isEmpty_iff.1 hall, List.nil_append]
  · rfl

theorem endsWord_before (hc : isBlank c = true) (b x after : List Char) :
    endsWord (b ++ c :: x) after = endsWord b after := by
  unfold endsWord
  rw [dropWhile_append_cons hc]
  cases b.dropWhile isCaseIgnorable with
  | nil => simp [isCased_of_isBlank hc]
  | cons d r => rfl

theorem endsWord_after (hc : isBlank c = true) (b a x : List Char) :
    endsWord b (a ++ c :: x) = endsWord b a := by
  unfold endsWord
  rw [dropWhile_append_cons hc]
  cases a.dropWhile isCaseIgnorable with
  | nil => simp [isCased_of_isBlank hc]
  | cons d r => rfl

/-! ### Lower-casing parts -/

/-- What came before the last blank does not matter. -/
theorem lowerFrom_beyond (hc : isBlank c = true) (b x l : List Char) :
    lowerFrom (b ++ c :: x) l = lowerFrom b l := by
  induction l generalizing b with
  | nil => rfl
  | cons d l ih =>
    have ih := ih (d :: b)
    rw [List.cons_append] at ih
    simp only [lowerFrom, endsWord_before hc, ih]

/-- A blank is its own lower-case form, and the text after it is lower-cased on its own. -/
theorem lowerFrom_cons_of_isBlank (hc : isBlank c = true) (before r : List Char) :
    lowerFrom before (c :: r) = c :: lowerFrom [] r := by
  have hsigma : c ≠ 'Σ' := by
    rintro rfl
    exact absurd hc (by decide)
  have hdotted : c ≠ 'İ' := by
    rintro rfl
    exact absurd hc (by decide)
  calc lowerFrom before (c :: r)
      = lowerChar c :: lowerFrom (c :: before) r := by
        simp only [lowerFrom, if_neg hsigma, if_neg hdotted]
    _ = c :: lowerFrom [] r := by
        rw [lowerChar_of_isBlank hc]
        exact congrArg (c :: ·) (lowerFrom_beyond hc [] before r)

/-- The two parts around a blank are lower-cased on their own. -/
theorem lowerFrom_append_cons (hc : isBlank c = true) (before l r : List Char) :
    lowerFrom before (l ++ c :: r) = lowerFrom before l ++ c :: lowerFrom [] r := by
  induction l generalizing before with
  | nil => exact lowerFrom_cons_of_isBlank hc before r
  | cons d l ih =>
    simp only [List.cons_append, lowerFrom, endsWord_after hc, ih]
    split
    · rfl
    · split <;> rfl

/-- Without a capital sigma in it, a text has the same lower-case form whatever comes after it. -/
theorem lowerFrom_append (h : 'Σ' ∉ l) (before r : List Char) :
    lowerFrom before (l ++ r) = lowerFrom before l ++ lowerFrom (l.reverse ++ before) r := by
  induction l generalizing before with
  | nil => rfl
  | cons d l ih =>
    obtain ⟨hd, hl⟩ := List.ne_and_not_mem_of_not_mem_cons h
    simp only [List.cons_append, lowerFrom, if_neg hd.symm, ih hl, List.reverse_cons,
      List.append_assoc, List.nil_append]
    split <;> rfl

/-- A capital sigma leaves one of the two small ones. -/
theorem mem_lowerFrom_of_mem (h : 'Σ' ∈ l) (before : List Char) :
    'σ' ∈ lowerFrom before l ∨ 'ς' ∈ lowerFrom before l := by
  induction l generalizing before with
  | nil => cases h
  | cons d l ih =>
    rw [lowerFrom]
    split
    · split
      · exact .inr List.mem_cons_self
      · exact .inl List.mem_cons_self
    · next hd =>
      have hl := (List.mem_cons.1 h).resolve_left (Ne.symm hd)
      rcases ih hl (d :: before) with h | h
      · left
        split <;> simp [h]
      · right
        split <;> simp [h]

/-! ### Texts set off by blanks -/

/-- What stands between the two texts is set off from them: a blank ends the first one and a blank
begins the second one, as far as they are not empty. -/
structure SetOff (p s : String) : Prop where
  before : ∀ c ∈ p.toList.getLast?, isBlank c = true
  after : ∀ c ∈ s.toList.head?, isBlank c = true

theorem setOff_iff : SetOff p s ↔
    (p.toList.getLast?.all isBlank && s.toList.head?.all isBlank) = true := by
  rw [Bool.and_eq_true, Option.all_eq_true, Option.all_eq_true]
  exact ⟨fun h => ⟨h.before, h.after⟩, fun h => ⟨h.1, h.2⟩⟩

instance (p s : String) : Decidable (SetOff p s) := decidable_of_iff _ setOff_iff.symm

theorem lower_append_of_getLast (h : ∀ c ∈ p.toList.getLast?, isBlank c = true) (t : String) :
    lower (p ++ t) = lower p ++ lower t := by
  rw [← String.toList_inj]
  simp only [lower, String.toList_append, String.toList_ofList]
  obtain hp | ⟨l, c, hp⟩ := List.eq_nil_or_concat p.toList
  · rw [hp]
    rfl
  · rw [List.concat_eq_append] at hp
    have hc : isBlank c = true := h c (by simp [hp])
    rw [hp, List.append_assoc, List.singleton_append, lowerFrom_append_cons hc,
      lowerFrom_append_cons hc, List.append_assoc]
    rfl

theorem lower_append_of_head (h : ∀ c ∈ s.toList.head?, isBlank c = true) (t : String) :
    lower (t ++ s) = lower t ++ lower s := by
  rw [← String.toList_inj]
  simp only [lower, String.toList_append, String.toList_ofList]
  cases hs : s.toList with
  | nil => simp [lowerFrom]
  | cons c r =>
    have hc : isBlank c = true := h c (by simp [hs])
    rw [lowerFrom_append_cons hc, lowerFrom_cons_of_isBlank hc]

theorem SetOff.lower (h : SetOff p s) (t : String) :
    lower (p ++ t ++ s) = lower p ++ lower t ++ lower s := by
  rw [lower_append_of_head h.after, lower_append_of_getLast h.before]

theorem SetOff.setOff_lower (h : SetOff p s) : SetOff (Text.lower p) (Text.lower s) := by
  constructor
  · intro c hc
    obtain hp | ⟨l, d, hp⟩ := List.eq_nil_or_concat p.toList
    · simp [Text.lower, hp, lowerFrom] at hc
    · rw [List.concat_eq_append] at hp
      have hd : isBlank d = true := h.before d (by simp [hp])
      rw [Text.lower, String.toList_ofList, hp, lowerFrom_append_cons hd] at hc
      obtain rfl : d = c := by simpa [lowerFrom] using hc
      exact hd
  · intro c hc
    cases hs : s.toList with
    | nil => simp [Text.lower, hs, lowerFrom] at hc
    | cons d r =>
      have hd : isBlank d = true := h.after d (by simp [hs])
      rw [Text.lower, String.toList_ofList, hs, lowerFrom_cons_of_isBlank hd] at hc
      obtain rfl : d = c := by simpa using hc
      exact hd

end TieredMemory.Text
