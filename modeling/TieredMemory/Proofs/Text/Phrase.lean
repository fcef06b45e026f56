import TieredMemory.Proofs.Text.Case
import TieredMemory.Text.Word

/-!
# Phrases in a part of a text

A phrase stands in a text where a place can be found at which it starts with a boundary at both ends
(`hasPhraseFrom_iff`). Whether there is a boundary depends on the neighbours only as far as they are
word characters, and a blank is none, just as the end of the text is none. So a phrase of a part that is
set off by blanks is a phrase of the whole (`SetOff.hasPhrase`), and so is one that begins the text and
has no word character after it (`hasPhrase_append`).
-/

namespace TieredMemory.Text

variable {c : Char} {phrase l : List Char} {p s t : String}

/-! ### Neighbours that are blank -/

theorem alphanumericRanges_apart : ∀ r ∈ Word.alphanumericRanges, ∀ b ∈ blankRanges,
    r.2 < b.1 ∨ b.2 < r.1 := by
  decide +kernel

theorem isWordChar_of_isBlank (hc : isBlank c = true) : isWordChar c = false := by
  rw [isWordChar, Bool.or_eq_false_iff]
  constructor
  · unfold isAlphanumeric
    split
    · exact isAlphanum_of_isBlank hc
    · exact inRanges_of_isBlank alphanumericRanges_apart hc
  · rw [beq_eq_false_iff_ne]
    rintro rfl
    exact absurd hc (by decide)

/-- There is a word character at the place. -/
def hasWordChar (o : Option Char) : Bool := o.any isWordChar

theorem hasWordChar_of_isBlank {o : Option Char} (h : ∀ c ∈ o, isBlank c = true) :
    hasWordChar o = false := by
  cases o with
  | none => rfl
  | some c => exact isWordChar_of_isBlank (h c rfl)

theorem isBoundary_eq (before after : Option Char) :
    isBoundary before after = (hasWordChar before != hasWordChar after) := rfl

theorem hasWordChar_or (o before : Option Char) :
    hasWordChar (o.or before) = if o.isSome then hasWordChar o else hasWordChar before := by
  cases o <;> rfl

/-- More text after a text changes nothing at its end if no word character comes first. -/
theorem hasWordChar_head?_append {r : List Char} (hr : hasWordChar r.head? = false) (l : List Char) :
    hasWordChar (l ++ r).head? = hasWordChar l.head? := by
  cases l with
  | nil => exact hr
  | cons d l => rfl

/-- Text before a text changes nothing at its beginning if no word character comes last. -/
theorem hasWordChar_getLast?_append {q : List Char} (hq : hasWordChar q.getLast? = false)
    (l : List Char) : hasWordChar (q ++ l).getLast? = hasWordChar l.getLast? := by
  rw [List.getLast?_append]
  cases hl : l.getLast? with
  | none => exact hq
  | some d => rfl

/-! ### Phrases -/

theorem getLast?_cons_or (c : Char) (l : List Char) (before : Option Char) :
    (c :: l).getLast?.or before = l.getLast?.or (some c) := by
  rw [List.getLast?_cons]
  cases l.getLast? <;> rfl

/-- A phrase stands in a text if it starts at some place in it. -/
theorem hasPhraseFrom_iff (phrases : List (List Char)) (before : Option Char) (text : List Char) :
    hasPhraseFrom phrases before text = true ↔
      ∃ l r, text = l ++ r ∧
        ∃ phrase ∈ phrases, phraseStarts phrase (l.getLast?.or before) r = true := by
  induction text generalizing before with
  | nil =>
    rw [hasPhraseFrom, List.any_eq_true]
    constructor
    · rintro ⟨phrase, hphrase, hstarts⟩
      exact ⟨[], [], rfl, phrase, hphrase, hstarts⟩
    · rintro ⟨l, r, htext, phrase, hphrase, hstarts⟩
      obtain ⟨rfl, rfl⟩ := List.append_eq_nil_iff.1 htext.symm
      exact ⟨phrase, hphrase, hstarts⟩
  | cons c text ih =>
    rw [hasPhraseFrom, Bool.or_eq_true, List.any_eq_true, ih]
    constructor
    · rintro (⟨phrase, hphrase, hstarts⟩ | ⟨l, r, rfl, phrase, hphrase, hstarts⟩)
      · exact ⟨[], c :: text, rfl, phrase, hphrase, hstarts⟩
      · exact ⟨c :: l, r, rfl, phrase, hphrase, by rwa [getLast?_cons_or]⟩
    · rintro ⟨l, r, htext, phrase, hphrase, hstarts⟩
      cases l with
      | nil =>
        obtain rfl : r = c :: text := htext.symm
        exact .inl ⟨phrase, hphrase, hstarts⟩
      | cons d l =>
        obtain ⟨rfl, rfl⟩ := List.cons_eq_cons.1 htext
        exact .inr ⟨l, r, rfl, phrase, hphrase, by rwa [getLast?_cons_or] at hstarts⟩

theorem hasPhrase_iff (phrases : List String) (text : String) :
    hasPhrase phrases text = true ↔
      ∃ l r, text.toList = l ++ r ∧
        ∃ phrase ∈ phrases, phraseStarts phrase.toList l.getLast? r = true := by
  rw [hasPhrase, hasPhraseFrom_iff]
  simp only [List.mem_map, exists_exists_and_eq_and, Option.or_none]

/-- Where a phrase starts, it starts whatever comes before and after, as far as the neighbours are the
same to it. -/
theorem phraseStarts_append {before before' : Option Char} {l r : List Char}
    (hbefore : hasWordChar before' = hasWordChar before) (hr : hasWordChar r.head? = false)
    (h : phraseStarts phrase before l = true) : phraseStarts phrase before' (l ++ r) = true := by
  simp only [phraseStarts, isBoundary_eq, hasWordChar_or, Bool.and_eq_true] at h ⊢
  obtain ⟨⟨hlead, hfirst⟩, hlast⟩ := h
  have hlead := List.isPrefixOf_iff_prefix.1 hlead
  refine ⟨⟨List.isPrefixOf_iff_prefix.2 (hlead.trans (List.prefix_append l r)), ?_⟩, ?_⟩
  · rwa [hbefore, hasWordChar_head?_append hr]
  · rwa [List.drop_append_of_le_length hlead.length_le, hasWordChar_head?_append hr, hbefore]

/-- A phrase that stands in a text stands in it between blanks. -/
theorem SetOff.hasPhrase (h : SetOff p s) {phrases : List String}
    (ht : hasPhrase phrases t = true) : hasPhrase phrases (p ++ t ++ s) = true := by
  rw [hasPhrase_iff] at ht ⊢
  obtain ⟨l, r, htext, phrase, hphrase, hstarts⟩ := ht
  refine ⟨p.toList ++ l, r ++ s.toList, ?_, phrase, hphrase, ?_⟩
  · simp only [String.toList_append, htext, List.append_assoc]
  · exact phraseStarts_append (hasWordChar_getLast?_append (hasWordChar_of_isBlank h.before) l)
      (hasWordChar_of_isBlank h.after) hstarts

/-- A phrase that begins and ends with a word character stands at the beginning of a text if no word
character comes after it. -/
theorem hasPhrase_append {phrase : String} {phrases : List String} (hmem : phrase ∈ phrases)
    (hfirst : hasWordChar phrase.toList.head? = true)
    (hlast : hasWordChar phrase.toList.getLast? = true)
    (hs : hasWordChar s.toList.head? = false) : hasPhrase phrases (phrase ++ s) = true := by
  rw [hasPhrase_iff]
  refine ⟨[], (phrase ++ s).toList, rfl, phrase, hmem, ?_⟩
  have hstarts : phraseStarts phrase.toList none phrase.toList = true := by
    have hsome : phrase.toList.getLast?.isSome = true := by
      cases hphrase : phrase.toList.getLast? with
      | none => rw [hphrase] at hlast; cases hlast
      | some c => rfl
    simp only [phraseStarts, isBoundary_eq, hasWordChar_or, Bool.and_eq_true, List.drop_length,
      hfirst, hlast, if_pos hsome]
    exact ⟨⟨List.isPrefixOf_iff_prefix.2 List.prefix_rfl, rfl⟩, rfl⟩
  rw [String.toList_append]
  exact phraseStarts_append rfl hs hstarts

end TieredMemory.Text
