import TieredMemory.Importance
import TieredMemory.Proofs.Text.Find
import TieredMemory.Proofs.Text.Phrase

/-!
# The base score in context

The base score adds a bonus for each feature that the text has, so a text with more features does not
score lower (`scoreOf_mono`). A text keeps its features when other text is put around it with blanks in
between (`Feature.isIn_around`): occurrences stay, and so do phrases, since a blank is no more a word
character than the end of the text is. A marker put in front of a message in this way is found, whatever
its letter case (`Marking.hasMarker_append`).
-/

namespace TieredMemory.Importance

open Text

/-! ### Features -/

/-- What the base score looks for in a text. -/
inductive Feature where
  | question
  | decision
  | marker
  | code
  | length
  deriving DecidableEq

/-- The text has the feature. -/
def Feature.isIn : Feature → String → Bool
  | question, text => isQuestion text
  | decision, text => hasDecision text
  | marker, text => hasMarker text
  | code, text => hasCode text
  | length, text => decide (text.length > longText)

/-- The base score of a text that has the given features. -/
def scoreOf (has : Feature → Bool) : Float :=
  least
    (bonus (has .length) 0.1 <| bonus (has .code) 0.15 <|
      bonus (has .marker) 0.5 <| bonus (has .decision) 0.3 <| bonus (has .question) 0.2 0.5) 1

/-- Nothing but the features matters to the base score. -/
theorem baseScore_eq (text : String) : baseScore text = scoreOf fun f => f.isIn text := rfl

/-- More features do not make a lower score. -/
theorem scoreOf_mono {has has' : Feature → Bool} (h : ∀ f, has f = true → has' f = true) :
    scoreOf has ≤ scoreOf has' := by
  have hall : ∀ q d m c l q' d' m' c' l' : Bool, (q → q') → (d → d') → (m → m') → (c → c') →
      (l → l') →
      least (bonus l 0.1 <| bonus c 0.15 <| bonus m 0.5 <| bonus d 0.3 <| bonus q 0.2 0.5) 1 ≤
        least (bonus l' 0.1 <| bonus c' 0.15 <| bonus m' 0.5 <| bonus d' 0.3 <|
          bonus q' 0.2 0.5) 1 := by
    decide +kernel
  exact hall _ _ _ _ _ _ _ _ _ _ (h .question) (h .decision) (h .marker) (h .code) (h .length)

section

variable {p s : String}

/-- A text keeps its features between blanks. -/
theorem Feature.isIn_around (h : SetOff p s) {t : String} {f : Feature} (hf : f.isIn t = true) :
    f.isIn (p ++ t ++ s) = true := by
  have hphrase : ∀ {phrases : List String}, hasPhrase phrases (lower t) = true →
      hasPhrase phrases (lower (p ++ t ++ s)) = true := by
    intro phrases ht
    rw [h.lower]
    exact h.setOff_lower.hasPhrase ht
  cases f with
  | question => exact occursIn_around hf p s
  | decision => exact hphrase hf
  | marker => exact hphrase hf
  | code =>
    rcases Bool.or_eq_true_iff.1 hf with hfence | hword
    · exact Bool.or_eq_true_iff.2 (.inl (occursIn_around hfence p s))
    · exact Bool.or_eq_true_iff.2 (.inr (hphrase hword))
  | length =>
    have hlong : longText < t.length := of_decide_eq_true hf
    refine decide_eq_true ?_
    rw [String.length_append, String.length_append]
    omega

theorem baseScore_le_around (h : SetOff p s) (t : String) :
    baseScore t ≤ baseScore (p ++ t ++ s) := by
  rw [baseScore_eq, baseScore_eq]
  exact scoreOf_mono fun f hf => Feature.isIn_around h hf

end

/-! ### Markers in front of a message -/

/-- A marker in any letter case, a colon, a comma or nothing after it, and then blanks. -/
structure Marking (p : String) : Prop where
  exists_parts : ∃ marker sign blanks : String, p = marker ++ sign ++ blanks ∧
    lower marker ∈ markerPhrases ∧ sign ∈ ["", ":", ","] ∧ blanks ≠ "" ∧ isEmptyText blanks = true

theorem not_mem_of_mem_markerPhrases : ∀ m ∈ markerPhrases,
    'σ' ∉ m.toList ∧ 'ς' ∉ m.toList ∧ hasWordChar m.toList.head? = true ∧
      hasWordChar m.toList.getLast? = true := by
  decide +kernel

/-- A marking ends with a blank. -/
theorem Marking.setOff {p : String} (h : Marking p) : SetOff p "" := by
  obtain ⟨marker, sign, blanks, rfl, -, -, hne, hblank⟩ := h.exists_parts
  refine ⟨fun c hc => ?_, by simp⟩
  rw [isEmptyText_iff] at hblank
  refine hblank c (List.mem_of_mem_getLast? ?_)
  rwa [String.toList_append, List.getLast?_append_of_ne_nil] at hc
  rwa [ne_eq, String.toList_eq_nil_iff]

/-- Behind a marker comes no word character. -/
theorem Marking.hasMarker_append {p : String} (h : Marking p) (t : String) :
    hasMarker (p ++ t) = true := by
  obtain ⟨marker, sign, blanks, rfl, hmarker, hsign, hne, hblank⟩ := h.exists_parts
  obtain ⟨hsmall, hfinal, hfirst, hlast⟩ := not_mem_of_mem_markerPhrases _ hmarker
  have hsigma : 'Σ' ∉ marker.toList := by
    intro hmem
    rcases mem_lowerFrom_of_mem hmem [] with hin | hin
    · exact hsmall (by rwa [lower, String.toList_ofList])
    · exact hfinal (by rwa [lower, String.toList_ofList])
  obtain ⟨c, r, hrest, hc⟩ : ∃ c r, sign.toList ++ (blanks.toList ++ t.toList) = c :: r ∧
      (c = ':' ∨ c = ',' ∨ isBlank c = true) := by
    obtain ⟨b, bs, hbs⟩ := List.exists_cons_of_ne_nil (mt String.toList_eq_nil_iff.1 hne)
    have hb : isBlank b = true := isEmptyText_iff.1 hblank b (by simp [hbs])
    simp only [List.mem_cons, List.not_mem_nil, or_false] at hsign
    rcases hsign with rfl | rfl | rfl
    · exact ⟨b, bs ++ t.toList, by rw [hbs]; rfl, .inr (.inr hb)⟩
    · exact ⟨':', _, rfl, .inl rfl⟩
    · exact ⟨',', _, rfl, .inr (.inl rfl)⟩
  have hhead : (lowerFrom (marker.toList.reverse ++ []) (c :: r)).head? = some c := by
    rcases hc with rfl | rfl | hc
    · rfl
    · rfl
    · rw [lowerFrom_cons_of_isBlank hc]
      rfl
  have hword : isWordChar c = false := by
    rcases hc with rfl | rfl | hc
    · decide
    · decide
    · exact isWordChar_of_isBlank hc
  have hlower : lower (marker ++ sign ++ blanks ++ t) =
      lower marker ++ String.ofList (lowerFrom (marker.toList.reverse ++ []) (c :: r)) := by
    rw [← String.toList_inj]
    simp only [lower, String.toList_append, String.toList_ofList, List.append_assoc]
    rw [hrest, lowerFrom_append hsigma]
  rw [hasMarker, hlower]
  refine hasPhrase_append hmarker hfirst hlast ?_
  rw [String.toList_ofList, hhead]
  exact hword

/-! ### A message in context -/

/-- A text keeps every feature between blanks, and its base score does not become lower; with a marker
of importance in front, in any letter case, the text is marked. So a marker in front of a message never
lowers its base score. -/
theorem baseScore_around (t : String) :
    (∀ p s, SetOff p s →
      (∀ f : Feature, f.isIn t = true → f.isIn (p ++ t ++ s) = true) ∧
        baseScore t ≤ baseScore (p ++ t ++ s)) ∧
      ∀ p s, Marking p → SetOff p s →
        Feature.marker.isIn (p ++ t ++ s) = true ∧ baseScore t ≤ baseScore (p ++ t) := by
  constructor
  · intro p s h
    exact ⟨fun f hf => Feature.isIn_around h hf, baseScore_le_around h t⟩
  · intro p s hp h
    constructor
    · rw [String.append_assoc]
      exact hp.hasMarker_append (t ++ s)
    · have hscore := baseScore_le_around hp.setOff t
      rwa [String.append_empty] at hscore

/-- The marking in front of a question. -/
theorem baseScore_around_shouted :
    SetOff "IMPORTANT: " "\n" ∧ Marking "IMPORTANT: " ∧
      (∀ f : Feature, f.isIn "Did we decide?" = true →
        f.isIn ("IMPORTANT: " ++ "Did we decide?" ++ "\n") = true) ∧
      Feature.question.isIn "Did we decide?" = true ∧
      Feature.marker.isIn "Did we decide?" = false ∧
      Feature.marker.isIn ("IMPORTANT: " ++ "Did we decide?" ++ "\n") = true ∧
      baseScore "Did we decide?" ≤ baseScore ("IMPORTANT: " ++ "Did we decide?" ++ "\n") := by
  have hoff : SetOff "IMPORTANT: " "\n" := by decide
  have hmarker : lower "IMPORTANT" = "important" := by decide
  have hmarking : Marking "IMPORTANT: " :=
    ⟨"IMPORTANT", ":", " ", rfl, hmarker ▸ List.mem_cons_self, by simp, by decide, by decide⟩
  obtain ⟨haround, hmarked⟩ := baseScore_around "Did we decide?"
  exact ⟨hoff, hmarking, (haround _ _ hoff).1, rfl, rfl,
    (hmarked _ _ hmarking hoff).1, (haround _ _ hoff).2⟩

end TieredMemory.Importance
