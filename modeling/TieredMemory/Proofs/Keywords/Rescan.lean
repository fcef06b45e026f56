import TieredMemory.Proofs.Keywords.Score
import TieredMemory.Proofs.Text.LowerCase

/-!
# Tokens of tokens

What a token looks like is said without the scan (`IsToken`): which characters it is made of, which ones
it begins with and which ones it does not end in. The scan gives tokens of this form only
(`isToken_of_mem_tokens`), and every text of this form is scanned as one token, so that a list of them,
joined by spaces, is found again as it was (`tokens_joined`). The lists that are found again are thus
exactly the lists of such texts, and the tokens of a text are one of these lists (`tokens_rescan`).
-/

namespace TieredMemory.Keywords

open Text

/-! ### What a token looks like -/

/-- A lower-case letter of ASCII or a digit. -/
def IsLetterOrDigit (c : Char) : Prop := 'a' ≤ c ∧ c ≤ 'z' ∨ '0' ≤ c ∧ c ≤ '9'

/-- The marks that may stand in a token. -/
def marks : List Char := ['+', '#', '\'', '.', '-']

/-- The marks that a token does not end in. -/
def edges : List Char := ['.', '\'', '-']

/-- A text that is not empty, of letters, digits and marks, that begins with a letter or digit and does
not end in a full stop, a quote or a hyphen. -/
structure IsToken (t : String) : Prop where
  ne_empty : t ≠ ""
  chars : ∀ c ∈ t.toList, IsLetterOrDigit c ∨ c ∈ marks
  first : ∀ c ∈ t.toList.head?, IsLetterOrDigit c
  last : ∀ c ∈ t.toList.getLast?, c ∉ edges

variable {c : Char} {t : String} {run l : List Char}

theorem isTokenStart_iff : isTokenStart c = true ↔ IsLetterOrDigit c := by
  simp [isTokenStart, IsLetterOrDigit]

theorem isTokenChar_iff : isTokenChar c = true ↔ IsLetterOrDigit c ∨ c ∈ marks := by
  rw [← isTokenStart_iff]
  simp [isTokenChar, marks, or_assoc]

theorem isTokenEdge_iff : isTokenEdge c = true ↔ c ∈ edges := by
  simp [isTokenEdge, edges, or_assoc]

/-- A letter or digit is not dropped at the ends of a token. -/
theorem isTokenEdge_of_isTokenStart (h : isTokenStart c = true) : isTokenEdge c = false := by
  by_contra hedge
  simp only [isTokenEdge, Bool.not_eq_false, Bool.or_eq_true, beq_iff_eq] at hedge
  obtain (rfl | rfl) | rfl := hedge
  · exact absurd h (by decide)
  · exact absurd h (by decide)
  · exact absurd h (by decide)

/-! ### The tokens of a text have this form -/

/-- A run begins with a letter or digit. The run in progress is held with its first character last. -/
theorem isTokenStart_of_mem_runs (hrun : ∀ c ∈ run.getLast?, isTokenStart c = true) :
    ∀ r ∈ runs run l, ∀ c ∈ r.head?, isTokenStart c = true := by
  have hhead : ∀ {run : List Char}, (∀ c ∈ run.getLast?, isTokenStart c = true) →
      ∀ c ∈ run.reverse.head?, isTokenStart c = true := by
    intro run hrun c hc
    rw [List.head?_reverse] at hc
    exact hrun c hc
  fun_induction runs run l with
  | case1 => simp
  | case2 run hne =>
    intro r hr
    rw [List.mem_singleton.1 hr]
    exact hhead hrun
  | case3 run c l hempty hstart ih => exact ih (by simpa using hstart)
  | case4 run c l hempty hstart ih => exact ih (by simp)
  | case5 run c l hne htoken ih =>
    refine ih ?_
    rwa [List.getLast?_cons_of_ne_nil (by simpa using hne)]
  | case6 run c l hne htoken ih =>
    intro r hr
    rcases List.mem_cons.1 hr with rfl | hr
    · exact hhead hrun
    · exact ih (by simp) r hr

/-- A run begins with a letter or digit, so nothing is dropped at its front, and what is left begins in
the same way. -/
theorem isToken_of_mem_tokens {text : String} (h : t ∈ tokens text) : IsToken t := by
  obtain ⟨hmem, hne⟩ := List.mem_filter.1 h
  obtain ⟨run, hrun, rfl⟩ := List.mem_map.1 hmem
  have hstart : ∀ c ∈ (String.ofList run).toList.head?, isTokenStart c = true := by
    rw [String.toList_ofList]
    exact isTokenStart_of_mem_runs (by simp) run hrun
  constructor
  · intro hnil
    simp [hnil] at hne
  · intro c hc
    exact isTokenChar_iff.1 (mem_of_mem_tokens h c hc).1
  · intro c hc
    have hsame := head?_trimWhere (fun d hd => isTokenEdge_of_isTokenStart (hstart d hd)) c hc
    exact isTokenStart_iff.1 (hstart c hsame)
  · intro c hc
    rw [← isTokenEdge_iff, Bool.not_eq_true]
    exact getLast?_trimWhere hc

/-! ### Texts of this form are found again -/

/-- A run in progress goes on over token characters. -/
theorem runs_of_ne_nil (hrun : run ≠ []) (h : ∀ c ∈ l, isTokenChar c = true) :
    runs run l = [run.reverse ++ l] := by
  induction l generalizing run with
  | nil => simp [runs, hrun]
  | cons c r ih =>
    obtain ⟨hc, hr⟩ := List.forall_mem_cons.1 h
    simp [runs, hrun, hc, ih (List.cons_ne_nil c run) hr]

/-- A token is one run. -/
theorem IsToken.runs_eq (ht : IsToken t) : runs [] t.toList = [t.toList] := by
  have hchars : ∀ c ∈ t.toList, isTokenChar c = true := fun c hc => isTokenChar_iff.2 (ht.chars c hc)
  cases hl : t.toList with
  | nil => exact absurd (String.toList_eq_nil_iff.1 hl) ht.ne_empty
  | cons c r =>
    have hc : isTokenStart c = true := isTokenStart_iff.2 (ht.first c (by simp [hl]))
    rw [hl] at hchars
    rw [runs, if_pos (List.isEmpty_iff.2 rfl), if_pos hc,
      runs_of_ne_nil (List.cons_ne_nil c []) (List.forall_mem_cons.1 hchars).2]
    rfl

/-- Nothing is dropped at the ends of a token. -/
theorem IsToken.trimWhere_eq (ht : IsToken t) : trimWhere isTokenEdge t = t := by
  refine trimWhere_eq_self (fun c hc => ?_) fun c hc => ?_
  · exact isTokenEdge_of_isTokenStart (isTokenStart_iff.2 (ht.first c hc))
  · rw [← Bool.not_eq_true, isTokenEdge_iff]
    exact ht.last c hc

/-- The spaces part the tokens, since none of them is a token character. -/
theorem runs_intercalate {ts : List String} (h : ∀ t ∈ ts, IsToken t) :
    runs [] ([' '].intercalate (ts.map String.toList)) = ts.map String.toList := by
  induction ts with
  | nil => rfl
  | cons t r ih =>
    obtain ⟨ht, hr⟩ := List.forall_mem_cons.1 h
    cases r with
    | nil =>
      rw [List.map_singleton, List.intercalate_singleton]
      exact ht.runs_eq
    | cons u r =>
      have ih := ih hr
      simp only [List.map_cons] at ih ⊢
      rw [List.intercalate_cons_cons, List.append_assoc, List.singleton_append,
        runs_append_cons (by decide), ht.runs_eq, ih, List.singleton_append]

theorem isSettled_of_isTokenChar (h : isTokenChar c = true) : IsSettled c := by
  have hrange := toNat_of_isTokenChar h
  exact isSettled_of_ascii (by omega) (by omega)

/-- Tokens that are joined by spaces are in lower case. -/
theorem lower_intercalate {ts : List String} (h : ∀ t ∈ ts, IsToken t) :
    lower (" ".intercalate ts) = " ".intercalate ts := by
  have hspace : IsSettled ' ' := isSettled_of_ascii (by decide) (by decide)
  refine lower_eq_self fun c hc => ?_
  induction ts with
  | nil => simp at hc
  | cons t r ih =>
    obtain ⟨ht, hr⟩ := List.forall_mem_cons.1 h
    have hchars : ∀ c ∈ t.toList, IsSettled c :=
      fun c hc => isSettled_of_isTokenChar (isTokenChar_iff.2 (ht.chars c hc))
    cases r with
    | nil => exact hchars c (by simpa using hc)
    | cons u r =>
      rw [String.intercalate_cons_cons, String.toList_append, String.toList_append,
        List.mem_append, List.mem_append] at hc
      obtain (hc | hc) | hc := hc
      · exact hchars c hc
      · obtain rfl : c = ' ' := by simpa using hc
        exact hspace
      · exact ih hr hc

/-- Tokens that are joined by spaces are found again. -/
theorem tokens_joined {ts : List String} (h : ∀ t ∈ ts, IsToken t) :
    tokens (" ".intercalate ts) = ts := by
  have hmap : (ts.map String.toList).map (fun r => trimWhere isTokenEdge (String.ofList r)) = ts := by
    rw [List.map_map]
    refine (List.map_congr_left fun t ht => ?_).trans (List.map_id ts)
    rw [Function.comp, String.ofList_toList, (h t ht).trimWhere_eq, id]
  rw [tokens, lower_intercalate h, tokensOf, String.toList_intercalate]
  show ((runs [] ([' '].intercalate (ts.map String.toList))).map fun r =>
    trimWhere isTokenEdge (String.ofList r)).filter _ = ts
  rw [runs_intercalate h, hmap, List.filter_eq_self]
  intro t ht
  simp [(h t ht).ne_empty]

/-- The tokens of a text are not empty, made of letters, digits and marks, begin with a letter or digit
and do not end in a full stop, a quote or a hyphen. Joined by single spaces they are found again; and the
lists that are found again are just the lists of such texts. -/
theorem tokens_rescan (text : String) :
    (∀ t ∈ tokens text, IsToken t) ∧ tokens (" ".intercalate (tokens text)) = tokens text ∧
      ∀ ts, tokens (" ".intercalate ts) = ts ↔ ∀ t ∈ ts, IsToken t := by
  refine ⟨fun t ht => isToken_of_mem_tokens ht,
    tokens_joined fun t ht => isToken_of_mem_tokens ht, fun ts => ⟨fun h t ht => ?_, tokens_joined⟩⟩
  rw [← h] at ht
  exact isToken_of_mem_tokens ht

/-- Marks are kept inside a token and dropped at its end, and a word in hyphens is a token without
them. -/
theorem tokens_rescan_marks :
    tokens "It's C++, -not- V1.2." = ["it's", "c++", "not", "v1.2"] ∧ IsToken "v1.2" ∧
      tokens "it's c++ not v1.2" = ["it's", "c++", "not", "v1.2"] := by
  have htokens : tokens "It's C++, -not- V1.2." = ["it's", "c++", "not", "v1.2"] := by decide
  obtain ⟨hform, hagain, -⟩ := tokens_rescan "It's C++, -not- V1.2."
  rw [htokens] at hform hagain
  exact ⟨htokens, hform "v1.2" (by simp), hagain⟩

end TieredMemory.Keywords
