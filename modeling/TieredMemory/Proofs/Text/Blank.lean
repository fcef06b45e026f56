import Mathlib
import TieredMemory.Text.Blank
import TieredMemory.Text.Case

/-!
# Trimming

Trimming takes blanks away and nothing else: it leaves nothing of a blank text (`isEmpty_trim`), keeps
every other character as often as it occurs (`count_trim`), and does not see blanks around a text
(`trim_around`). The lower-case form of a character is blank exactly if the character is, so that a text
is as blank in lower case as it was (`isEmptyText_lower`).
-/

namespace TieredMemory.Text

variable {p : Char → Bool} {s : String} {c : Char}

/-! ### What is blank -/

theorem isEmptyText_iff : isEmptyText s = true ↔ ∀ c ∈ s.toList, isBlank c = true := by
  rw [isEmptyText, List.all_eq_true]

theorem isEmptyText_eq_false_iff :
    isEmptyText s = false ↔ ∃ c ∈ s.toList, isBlank c = false := by
  rw [isEmptyText, List.all_eq_false]
  simp only [Bool.not_eq_true]

theorem isEmptyText_append (s t : String) :
    isEmptyText (s ++ t) = (isEmptyText s && isEmptyText t) := by
  rw [isEmptyText, String.toList_append, List.all_append]
  rfl

/-- Blanks are control characters, the space, or beyond ASCII. -/
theorem toNat_of_isBlank (h : isBlank c = true) : c.toNat ≤ 0x20 ∨ 0x85 ≤ c.toNat := by
  simp only [isBlank, Bool.or_eq_true, Bool.and_eq_true, decide_eq_true_eq, beq_iff_eq] at h
  omega

/-! ### Trimming -/

theorem toList_trimWhere (p : Char → Bool) (s : String) :
    (trimWhere p s).toList = (s.toList.dropWhile p).rdropWhile p := by
  rw [trimWhere, String.toList_ofList, List.rdropWhile]

theorem mem_of_mem_trimWhere (h : c ∈ (trimWhere p s).toList) : c ∈ s.toList := by
  rw [toList_trimWhere] at h
  exact (List.dropWhile_suffix p).subset ((List.rdropWhile_prefix p _).subset h)

theorem count_dropWhile (hc : p c = false) (l : List Char) :
    (l.dropWhile p).count c = l.count c := by
  have hdropped : (l.takeWhile p).count c = 0 :=
    List.count_eq_zero.2 fun hmem => by simp [List.mem_takeWhile_imp hmem] at hc
  calc (l.dropWhile p).count c
      = (l.takeWhile p).count c + (l.dropWhile p).count c := by rw [hdropped, Nat.zero_add]
    _ = l.count c := by rw [← List.count_append, List.takeWhile_append_dropWhile]

/-- A character that is not trimmed is there as often as before. -/
theorem count_trimWhere (hc : p c = false) (s : String) :
    (trimWhere p s).toList.count c = s.toList.count c := by
  rw [toList_trimWhere, List.rdropWhile, List.count_reverse, count_dropWhile hc, List.count_reverse,
    count_dropWhile hc]

theorem count_trim (hc : isBlank c = false) (s : String) :
    (trim s).toList.count c = s.toList.count c := count_trimWhere hc s

theorem mem_trimWhere_iff (hc : p c = false) : c ∈ (trimWhere p s).toList ↔ c ∈ s.toList := by
  rw [← List.count_pos_iff, ← List.count_pos_iff, count_trimWhere hc]

theorem trimWhere_eq_empty_iff : trimWhere p s = "" ↔ ∀ c ∈ s.toList, p c = true := by
  rw [← String.toList_eq_nil_iff]
  constructor
  · intro h c hmem
    by_contra hc
    have hkept := (mem_trimWhere_iff (eq_false_of_ne_true hc)).2 hmem
    rw [h] at hkept
    cases hkept
  · intro h
    rw [toList_trimWhere, List.dropWhile_eq_nil_iff.2 h]
    rfl

/-- Nothing is left of a blank text, and of no other one. -/
theorem isEmpty_trim (s : String) : (trim s).isEmpty = isEmptyText s := by
  rw [Bool.eq_iff_iff, String.isEmpty_iff, trim, trimWhere_eq_empty_iff, isEmptyText_iff]

theorem isEmptyText_trim (s : String) : isEmptyText (trim s) = isEmptyText s := by
  rw [Bool.eq_iff_iff, isEmptyText_iff, isEmptyText_iff]
  constructor
  · intro h c hmem
    by_contra hc
    exact hc (h c ((mem_trimWhere_iff (eq_false_of_ne_true hc)).2 hmem))
  · exact fun h c hmem => h c (mem_of_mem_trimWhere hmem)

/-- Blanks around a text are trimmed away with its own. -/
theorem trim_around {a b : String} (ha : isEmptyText a = true) (hb : isEmptyText b = true)
    (s : String) : trim (a ++ s ++ b) = trim s := by
  rw [isEmptyText_iff] at ha hb
  have hb' : ∀ c ∈ b.toList.reverse, isBlank c = true := fun c hc => hb c (List.mem_reverse.1 hc)
  rw [← String.toList_inj, trim, trim, toList_trimWhere, toList_trimWhere, String.toList_append,
    String.toList_append, List.append_assoc, List.dropWhile_append_of_pos ha, List.dropWhile_append]
  split
  · next hs =>
    rw [List.isEmpty_iff.1 hs, List.dropWhile_eq_nil_iff.2 hb]
  · rw [List.rdropWhile, List.reverse_append, List.dropWhile_append_of_pos hb']
    rfl

theorem dropWhile_of_head? {l : List Char} (h : ∀ c ∈ l.head?, p c = false) :
    l.dropWhile p = l := by
  cases l with
  | nil => rfl
  | cons c r => rw [List.dropWhile_cons_of_neg (by simp [h c rfl])]

/-- A text is not changed by trimming if neither its first nor its last character is trimmed. -/
theorem trimWhere_eq_self (hfirst : ∀ c ∈ s.toList.head?, p c = false)
    (hlast : ∀ c ∈ s.toList.getLast?, p c = false) : trimWhere p s = s := by
  rw [← String.toList_inj, toList_trimWhere, dropWhile_of_head? hfirst, List.rdropWhile_eq_self_iff]
  intro hne
  simp [hlast _ (List.getLast?_eq_some_getLast hne)]

/-- What is left begins as the text does if its first character is not trimmed. -/
theorem head?_trimWhere (hfirst : ∀ c ∈ s.toList.head?, p c = false) :
    ∀ c ∈ (trimWhere p s).toList.head?, c ∈ s.toList.head? := by
  intro c hc
  rw [toList_trimWhere, dropWhile_of_head? hfirst] at hc
  obtain ⟨r, hr⟩ := List.rdropWhile_prefix p s.toList
  rw [← hr, List.head?_append, Option.mem_def.1 hc]
  rfl

/-- The last character that is left is not one that is trimmed. -/
theorem getLast?_trimWhere (h : c ∈ (trimWhere p s).toList.getLast?) : p c = false := by
  rw [toList_trimWhere] at h
  obtain ⟨hne, rfl⟩ := List.mem_getLast?_eq_getLast h
  simpa using List.rdropWhile_last_not p _ hne

/-- A text that neither begins nor ends with a blank is not changed by trimming. -/
theorem trim_eq_self (hfirst : ∀ c ∈ s.toList.head?, isBlank c = false)
    (hlast : ∀ c ∈ s.toList.getLast?, isBlank c = false) : trim s = s :=
  trimWhere_eq_self hfirst hlast

/-- A text is its trimmed form with blanks around it. -/
theorem exists_blanks_around (s : String) :
    ∃ a b : List Char, s.toList = a ++ ((trim s).toList ++ b) ∧ (∀ c ∈ a, isBlank c = true) ∧
      (∀ c ∈ b, isBlank c = true) ∧ ∀ c ∈ (trim s).toList.head?, isBlank c = false := by
  obtain ⟨b, hb⟩ := List.rdropWhile_prefix isBlank (s.toList.dropWhile isBlank)
  rw [trim, toList_trimWhere]
  refine ⟨s.toList.takeWhile isBlank, b, ?_, fun c hc => List.mem_takeWhile_imp hc, ?_, ?_⟩
  · rw [hb, List.takeWhile_append_dropWhile]
  · have hcut := List.rdropWhile_append_rtakeWhile (p := isBlank) (l := s.toList.dropWhile isBlank)
    obtain rfl : b = (s.toList.dropWhile isBlank).rtakeWhile isBlank :=
      List.append_cancel_left (hb.trans hcut.symm)
    exact fun c hc => List.mem_rtakeWhile_imp hc
  · intro c hc
    have hhead : (s.toList.dropWhile isBlank).head? = some c := by
      rw [← hb, List.head?_append, hc]
      rfl
    have hnot := List.head?_dropWhile_not isBlank s.toList
    rwa [hhead] at hnot

theorem trim_trim (s : String) : trim (trim s) = trim s := by
  obtain ⟨a, b, hs, ha, hb, -⟩ := exists_blanks_around s
  have hwhole : String.ofList a ++ trim s ++ String.ofList b = s := by
    rw [← String.toList_inj, hs]
    simp
  have haround := trim_around (a := String.ofList a) (b := String.ofList b)
    (isEmptyText_iff.2 (by simpa using ha)) (isEmptyText_iff.2 (by simpa using hb)) (trim s)
  rw [← haround, hwhole]

/-! ### Letter case -/

/-- Where the capital letters of ASCII stand. -/
theorem toNat_of_capital (h : (decide ('A' ≤ c) && decide (c ≤ 'Z')) = true) :
    65 ≤ c.toNat ∧ c.toNat ≤ 90 :=
  ⟨of_decide_eq_true (Bool.and_eq_true_iff.1 h).1, of_decide_eq_true (Bool.and_eq_true_iff.1 h).2⟩

/-- The blank code points, by ranges. -/
def blankRanges : List Range := [
  (0x09, 0x0D), (0x1C, 0x20), (0x85, 0x85), (0xA0, 0xA0), (0x1680, 0x1680), (0x2000, 0x200A),
  (0x2028, 0x2029), (0x202F, 0x202F), (0x205F, 0x205F), (0x3000, 0x3000)]

theorem isBlank_iff : isBlank c = true ↔ ∃ r ∈ blankRanges, r.1 ≤ c.toNat ∧ c.toNat ≤ r.2 := by
  simp only [isBlank, blankRanges, Bool.or_eq_true, Bool.and_eq_true, decide_eq_true_eq, beq_iff_eq,
    List.mem_cons, List.not_mem_nil, or_false, exists_eq_or_imp, exists_eq_left]
  omega

/-- No capital letter and no lower-case form of one is in a range of blanks. -/
theorem blankRanges_apart : ∀ r ∈ Case.lowerRuns, ∀ b ∈ blankRanges,
    (r.2.1 < b.1 ∨ b.2 < r.1) ∧ 0 < r.1 ∧ 0 < r.1 + r.2.2.2 ∧
      (r.2.1 + r.2.2.2 < b.1 ∨ (b.2 : Int) < r.1 + r.2.2.2) := by
  decide +kernel

theorem isBlank_ofNat {n : Nat} (h : isBlank (Char.ofNat n) = true) :
    ∃ r ∈ blankRanges, r.1 ≤ n ∧ n ≤ r.2 := by
  by_cases hn : n.isValidChar
  · rwa [isBlank_iff, Char.toNat_ofNat, if_pos hn] at h
  · rw [isBlank_iff, Char.toNat_ofNat, if_neg hn] at h
    exact absurd h (by decide)

/-- A capital letter and its lower-case form are not blank. -/
theorem isBlank_of_holds {n : Nat} {r : ShiftRun} (hr : r ∈ Case.lowerRuns)
    (hn : ShiftRun.holds n r = true) :
    isBlank (Char.ofNat n) = false ∧ isBlank (Char.ofNat (n + r.2.2.2).toNat) = false := by
  simp only [ShiftRun.holds, Bool.and_eq_true, decide_eq_true_eq] at hn
  obtain ⟨⟨hlow, hhigh⟩, -⟩ := hn
  constructor
  all_goals
    by_contra h
    obtain ⟨b, hb, hblow, hbhigh⟩ := isBlank_ofNat (eq_true_of_ne_false h)
    have := blankRanges_apart r hr b hb
    omega

theorem isBlank_shifted (c : Char) : isBlank (shifted Case.lowerRuns c) = isBlank c := by
  unfold shifted
  split
  · next r hfind =>
    obtain ⟨hsource, himage⟩ :=
      isBlank_of_holds (List.mem_of_find?_eq_some hfind) (List.find?_some hfind)
    rw [Char.ofNat_toNat] at hsource
    rw [himage, hsource]
  · rfl

theorem isBlank_lowerChar (c : Char) : isBlank (lowerChar c) = isBlank c := by
  unfold lowerChar
  split
  · split
    · next hupper =>
      obtain ⟨hlow, hhigh⟩ := toNat_of_capital hupper
      have himage : isBlank (Char.ofNat (c.toNat + 32)) = false := by
        by_contra h
        obtain ⟨b, hb, hblow, hbhigh⟩ := isBlank_ofNat (eq_true_of_ne_false h)
        have hlater : ∀ b ∈ blankRanges, b.2 < 97 ∨ 122 < b.1 := by decide
        have := hlater b hb
        omega
      have hsource : isBlank c = false := by
        by_contra h
        have := toNat_of_isBlank (eq_true_of_ne_false h)
        omega
      rw [himage, hsource]
    · rfl
  · exact isBlank_shifted c

theorem all_isBlank_lowerFrom (before l : List Char) :
    (lowerFrom before l).all isBlank = l.all isBlank := by
  induction l generalizing before with
  | nil => rfl
  | cons c r ih =>
    unfold lowerFrom
    split
    · next hc =>
      subst hc
      split <;> rfl
    · split
      · next hc =>
        subst hc
        rfl
      · rw [List.all_cons, List.all_cons, ih, isBlank_lowerChar]

/-- A text is as blank in lower case as it is. -/
theorem isEmptyText_lower (s : String) : isEmptyText (lower s) = isEmptyText s := by
  rw [isEmptyText, lower, String.toList_ofList, all_isBlank_lowerFrom]
  rfl

end TieredMemory.Text
