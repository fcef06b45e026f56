import Mathlib
import TieredMemory.Proofs.Keywords
import TieredMemory.Proofs.Pattern.NameTest
import TieredMemory.Proofs.Text.Case
import TieredMemory.Proofs.Text.Find

/-!
# The keyword score

In exact arithmetic the keyword score is one where the whole query occurs in the text, and the share of
the wanted tokens that are found everywhere else (`scoreIn_rat`); a blank query wants nothing. The
tokens of a text that is set off by blanks are tokens of the whole (`tokens_around`), since no token goes
over a blank. So the score lies between zero and one and does not fall when other text is put around the
one that is searched (`score_bounds`).
-/

namespace TieredMemory.Keywords

open Text

/-! ### Tokens of the parts of a text -/

/-- No run goes over a character that is not a token character. -/
theorem runs_append_cons {c : Char} (hc : isTokenChar c = false) (run l r : List Char) :
    runs run (l ++ c :: r) = runs run l ++ runs [] r := by
  have hstart : isTokenStart c = false := by
    simp only [isTokenChar, Bool.or_eq_false_iff] at hc
    exact hc.1.1.1.1.1
  induction l generalizing run with
  | nil =>
    simp only [List.nil_append, runs, hc, hstart, Bool.false_eq_true, if_false]
    split
    · next hempty => simp
    · next hempty => simp
  | cons d l ih =>
    simp only [List.cons_append, runs, ih]
    split
    · split <;> rfl
    · split <;> rfl

/-- A blank ends every run. -/
theorem isTokenChar_of_isBlank {c : Char} (hc : isBlank c = true) : isTokenChar c = false := by
  by_contra h
  have hblank := isBlank_of_isTokenChar (eq_true_of_ne_false h)
  rw [hc] at hblank
  cases hblank

theorem runs_append_of_getLast {p : List Char} (h : ∀ c ∈ p.getLast?, isBlank c = true)
    (l : List Char) : runs [] (p ++ l) = runs [] p ++ runs [] l := by
  obtain rfl | ⟨q, c, rfl⟩ := List.eq_nil_or_concat p
  · rfl
  · rw [List.concat_eq_append] at h ⊢
    have hc := isTokenChar_of_isBlank (h c (by simp))
    rw [List.append_assoc, List.singleton_append, runs_append_cons hc, runs_append_cons hc]
    simp [runs]

theorem runs_append_of_head {s : List Char} (h : ∀ c ∈ s.head?, isBlank c = true)
    (l : List Char) : runs [] (l ++ s) = runs [] l ++ runs [] s := by
  cases s with
  | nil => simp [runs]
  | cons c r =>
    have hc := isTokenChar_of_isBlank (h c rfl)
    have hself := runs_append_cons hc [] [] r
    rw [List.nil_append] at hself
    rw [runs_append_cons hc, hself]
    rfl

/-- The tokens of a text between blanks are its own tokens and those of the texts around it. -/
theorem tokens_around {p s : String} (h : SetOff p s) (t : String) :
    tokens (p ++ t ++ s) = tokens p ++ tokens t ++ tokens s := by
  have hoff := h.setOff_lower
  rw [tokens, h.lower]
  simp only [tokensOf, String.toList_append, runs_append_of_head hoff.after,
    runs_append_of_getLast hoff.before, List.map_append, List.filter_append]
  rfl

/-! ### The score in exact arithmetic -/

/-- The query, without the blanks around it and letter case aside, stands in the text, and there is
something to it. -/
def StandsIn (query text : String) : Prop :=
  trim (lower query) ≠ "" ∧ (trim (lower query)).toList <:+: (lower text).toList

/-- The number of wanted tokens that the text has. -/
def found (query text : String) : Nat := ((contentTokens query).filter (tokens text).contains).length

section

variable {query text : String}

theorem isEmptyText_iff_trim_lower : isEmptyText query = true ↔ trim (lower query) = "" := by
  rw [← isEmptyText_lower, ← isEmpty_trim, String.isEmpty_iff]

theorem contentTokens_of_isEmptyText (h : isEmptyText query = true) : contentTokens query = [] := by
  rw [contentTokens_eq_nil_iff]
  intro t ht
  rw [(isEmptyText_of_mem_tokens ht).2] at h
  cases h

/-- The score is one for a query that stands in the text and the share of what is found for every other
one, none of nothing. -/
theorem scoreIn_rat (query text : String) [Decidable (StandsIn query text)] :
    scoreIn ℚ query text =
      if StandsIn query text then 1 else (found query text : ℚ) / (contentTokens query).length := by
  unfold scoreIn
  simp only [whole_rat, String.isEmpty_iff, occursIn_iff, List.isEmpty_iff]
  by_cases hblank : trim (lower query) = ""
  · have hcontent := contentTokens_of_isEmptyText (isEmptyText_iff_trim_lower.2 hblank)
    have hnot : ¬ StandsIn query text := fun h => h.1 hblank
    rw [if_pos hblank, if_neg hnot, hcontent]
    simp
  · rw [if_neg hblank]
    by_cases hin : (trim (lower query)).toList <:+: (lower text).toList
    · have hstands : StandsIn query text := ⟨hblank, hin⟩
      rw [if_pos hin, if_pos hstands, Nat.cast_one]
    · have hnot : ¬ StandsIn query text := fun h => hin h.2
      rw [if_neg hin, if_neg hnot]
      split
      · next hcontent => simp [hcontent]
      · rfl

theorem found_le (query text : String) : found query text ≤ (contentTokens query).length :=
  List.length_filter_le _ _

/-- What is found in a text is found in a text that has its tokens. -/
theorem found_mono {text' : String} (h : tokens text ⊆ tokens text') :
    found query text ≤ found query text' := by
  refine (List.monotone_filter_right _ fun w hw => ?_).length_le
  rw [List.contains_iff_mem] at hw ⊢
  exact h hw

theorem found_eq_length_iff :
    found query text = (contentTokens query).length ↔
      ∀ w ∈ contentTokens query, w ∈ tokens text := by
  rw [found, List.length_filter_eq_length_iff]
  simp only [List.contains_iff_mem]

theorem share_nonneg (query text : String) :
    0 ≤ (found query text : ℚ) / (contentTokens query).length := by
  positivity

theorem share_le_one (query text : String) :
    (found query text : ℚ) / (contentTokens query).length ≤ 1 :=
  div_le_one_of_le₀ (Nat.cast_le.2 (found_le query text)) (Nat.cast_nonneg _)

theorem share_eq_one_iff :
    (found query text : ℚ) / (contentTokens query).length = 1 ↔
      contentTokens query ≠ [] ∧ ∀ w ∈ contentTokens query, w ∈ tokens text := by
  by_cases hcontent : contentTokens query = []
  · simp [hcontent]
  · have hpos : ((contentTokens query).length : ℚ) ≠ 0 := by
      rwa [Nat.cast_ne_zero, ne_eq, List.length_eq_zero_iff]
    rw [div_eq_one_iff_eq hpos, Nat.cast_inj, found_eq_length_iff]
    simp only [ne_eq, hcontent, not_false_eq_true, true_and]

/-! ### Bounds -/

theorem scoreIn_nonneg (query text : String) : 0 ≤ scoreIn ℚ query text := by
  classical
  rw [scoreIn_rat]
  split
  · exact zero_le_one
  · exact share_nonneg query text

theorem scoreIn_le_one (query text : String) : scoreIn ℚ query text ≤ 1 := by
  classical
  rw [scoreIn_rat]
  split
  · exact le_rfl
  · exact share_le_one query text

/-- A text with more in it does not score lower. -/
theorem scoreIn_mono {text' : String} (htokens : tokens text ⊆ tokens text')
    (hstands : StandsIn query text → StandsIn query text') :
    scoreIn ℚ query text ≤ scoreIn ℚ query text' := by
  classical
  by_cases h' : StandsIn query text'
  · rw [scoreIn_rat query text', if_pos h']
    exact scoreIn_le_one query text
  · rw [scoreIn_rat, scoreIn_rat, if_neg h', if_neg (mt hstands h')]
    exact div_le_div_of_nonneg_right (Nat.cast_le.2 (found_mono htokens)) (Nat.cast_nonneg _)

theorem scoreIn_eq_one_iff :
    scoreIn ℚ query text = 1 ↔ StandsIn query text ∨
      contentTokens query ≠ [] ∧ ∀ w ∈ contentTokens query, w ∈ tokens text := by
  classical
  rw [scoreIn_rat]
  split
  · next h => simp [h]
  · next h => rw [share_eq_one_iff, or_iff_right h]

theorem scoreIn_of_isEmptyText (h : isEmptyText query = true) : scoreIn ℚ query text = 0 := by
  classical
  have hnot : ¬ StandsIn query text := fun hstands => hstands.1 (isEmptyText_iff_trim_lower.1 h)
  rw [scoreIn_rat, if_neg hnot, contentTokens_of_isEmptyText h]
  simp

end

theorem scoreIn_le_around {p s : String} (h : SetOff p s) (query t : String) :
    scoreIn ℚ query t ≤ scoreIn ℚ query (p ++ t ++ s) := by
  refine scoreIn_mono ?_ ?_
  · rw [tokens_around h]
    exact fun w hw => List.mem_append_left _ (List.mem_append_right _ hw)
  · rintro ⟨hne, hin⟩
    refine ⟨hne, hin.trans ?_⟩
    rw [h.lower, String.toList_append, String.toList_append]
    exact ⟨_, _, rfl⟩

/-- In exact arithmetic the score of a query lies between zero and one and does not fall when other
text is put around the text, between blanks. It is one exactly if the query stands in the text or wants
something and finds all of it, and zero if the query is blank. -/
theorem score_bounds {p s : String} (h : SetOff p s) (query t : String) :
    (0 ≤ scoreIn ℚ query t ∧ scoreIn ℚ query t ≤ scoreIn ℚ query (p ++ t ++ s) ∧
      scoreIn ℚ query (p ++ t ++ s) ≤ 1) ∧
      (scoreIn ℚ query t = 1 ↔ StandsIn query t ∨
        contentTokens query ≠ [] ∧ ∀ w ∈ contentTokens query, w ∈ tokens t) ∧
      (isEmptyText query = true → scoreIn ℚ query t = 0) :=
  ⟨⟨scoreIn_nonneg query t, scoreIn_le_around h query t, scoreIn_le_one query _⟩,
    scoreIn_eq_one_iff, scoreIn_of_isEmptyText⟩

/-- One of the two wanted tokens comes with what is put around the text. -/
theorem score_bounds_kyoto :
    SetOff "Kyoto: " " daily" ∧ isEmptyText " \t" = true ∧
      scoreIn ℚ "Tea in Kyoto" "green tea" ≤ scoreIn ℚ "Tea in Kyoto" "Kyoto: green tea daily" ∧
      scoreIn ℚ "Tea in Kyoto" "Kyoto: green tea daily" = 1 ∧ scoreIn ℚ " \t" "green tea" = 0 := by
  have hoff : SetOff "Kyoto: " " daily" := by decide
  have hempty : SetOff "" "" := by decide
  have hblank : isEmptyText " \t" = true := by decide
  have htokens : tokens "Tea in Kyoto" = ["tea", "in", "kyoto"] := by decide
  have hfound : contentTokens "Tea in Kyoto" ≠ [] ∧
      ∀ w ∈ contentTokens "Tea in Kyoto", w ∈ tokens "Kyoto: green tea daily" := by
    simp only [ne_eq, contentTokens_eq_nil_iff, mem_contentTokens, htokens, and_imp]
    decide
  exact ⟨hoff, hblank, (score_bounds hoff "Tea in Kyoto" "green tea").1.2.1,
    (score_bounds hempty "Tea in Kyoto" "Kyoto: green tea daily").2.1.2 (.inr hfound),
    (score_bounds hoff " \t" "green tea").2.2 hblank⟩

end TieredMemory.Keywords
