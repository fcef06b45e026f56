import TieredMemory.Proofs.Json.Numeral
import TieredMemory.Proofs.Number.Clamp
import TieredMemory.Proofs.Number.Whole
import TieredMemory.Proofs.Text.Case
import TieredMemory.Service.Backend

/-!
# Ratings

The answer that rates a text is read as JSON and moved between minus one and one. An answer that is
a number within the range of floating-point numbers is rated, and an answer that is none is an
outage (`analyze_rates_iff`). Four kinds of answers are not dealt with in this way: an integer beyond
that range breaks the call off with a fault of its own, and a truth value, a text with a number in it
and the value that is not a number are rated though they are no numbers (`Misread`). Whatever is
rated is between minus one and one, and no number is an outage.
-/

namespace TieredMemory.Service

/-- The number that a JSON number denotes, moved between minus one and one. Nothing but a number has
one, and not-a-number has none. -/
def IsClamp : Json.Value → Float → Prop
  | .int n, y => y = Float.ofInt (max (-1) (min 1 n))
  | .real x, y => x ≤ -1 ∧ y = -1 ∨ -1 < x ∧ x < 1 ∧ y = x ∨ 1 ≤ x ∧ y = 1
  | _, _ => False

/-- The outcome is the number that the answer denotes, moved between minus one and one, or an outage
that names the answer. -/
inductive Rates (content : String) : Except Fault Float → Prop
  | rated {v : Json.Value} {y : Float} (read : Json.read? (Text.trim content) = some v)
      (clamp : IsClamp v y) (low : -1 ≤ y) (high : y ≤ 1) : Rates content (.ok y)
  | refused : Rates content (.error (.unavailable (.notSentiment content)))

/-- The values that are rated though they are no numbers, and the integers that are numbers and not
rated. -/
def Misread : Json.Value → Prop
  | .bool _ => True
  | .int n => Number.leastInfinite ≤ n.natAbs
  | .real x => x.isNaN = true
  | .str s => Decimal.read? s ≠ none
  | _ => False

/-! ### Reading the answer -/

theorem toFloat_int (n : Int) :
    Json.Value.toFloat (.int n) =
      if (Float.ofInt n).isInf = true then .error .tooLarge else .ok (Float.ofInt n) := by
  rw [← Number.ofDigits_whole]
  rfl

theorem toFloat_str_of_none {s : String} (h : Decimal.read? s = none) :
    Json.Value.toFloat (.str s) = .error (.notNumber s) := by
  unfold Json.Value.toFloat
  simp only [h]

theorem toFloat_str_of_some {s : String} {x : Float} (h : Decimal.read? s = some x) :
    Json.Value.toFloat (.str s) = .ok x := by
  unfold Json.Value.toFloat
  simp only [h]

theorem clampSigned_ofInt (n : Int) :
    clampSigned (Float.ofInt n) = Float.ofInt (max (-1) (min 1 n)) := by
  rcases Int.lt_trichotomy n 0 with hneg | rfl | hpos
  · rw [Number.clampSigned_of_le (Number.ofInt_le_neg_one hneg), show max (-1) (min 1 n) = -1 by omega]
    rfl
  · decide +kernel
  · obtain ⟨-, hnan⟩ := Number.isNaN_eq_false_of_le (Number.one_le_ofInt hpos)
    have hone : ¬ Float.ofInt n < 1 :=
      (Number.not_lt_iff_le hnan rfl).2 (Number.one_le_ofInt hpos)
    rw [Number.clampSigned_of_not_lt hone, show max (-1) (min 1 n) = 1 by omega]
    rfl

theorem isClamp_clampSigned {x : Float} (hx : x.isNaN = false) : IsClamp (.real x) (clampSigned x) := by
  by_cases hlow : -1 < x
  · by_cases hhigh : x < 1
    · exact .inr (.inl ⟨hlow, hhigh, Number.clampSigned_of_lt hlow hhigh⟩)
    · exact .inr (.inr ⟨(Number.not_lt_iff_le hx rfl).1 hhigh, Number.clampSigned_of_not_lt hhigh⟩)
  · have hle := (Number.not_lt_iff_le rfl hx).1 hlow
    exact .inl ⟨hle, Number.clampSigned_of_le hle⟩

/-- Not-a-number compares with nothing, so no clamp of it is defined. -/
theorem not_isClamp_of_isNaN {x y : Float} (hx : x.isNaN = true) : ¬ IsClamp (.real x) y := by
  rintro (⟨h, -⟩ | ⟨h, -, -⟩ | ⟨h, -⟩)
  · exact Bool.false_ne_true ((Number.isNaN_eq_false_of_le h).1.symm.trans hx)
  · exact Bool.false_ne_true ((Number.isNaN_eq_false_of_lt h).2.symm.trans hx)
  · exact Bool.false_ne_true ((Number.isNaN_eq_false_of_le h).2.symm.trans hx)

section

variable {content : String} {v : Json.Value} {x : Float}

theorem sentimentOf_of_ok (hread : Json.read? (Text.trim content) = some v)
    (hv : v.toFloat = .ok x) : sentimentOf content = .ok (clampSigned x) := by
  simp only [sentimentOf, hread, hv]

theorem sentimentOf_of_tooLarge (hread : Json.read? (Text.trim content) = some v)
    (hv : v.toFloat = .error .tooLarge) : sentimentOf content = .error .tooLarge := by
  simp only [sentimentOf, hread, hv]

theorem sentimentOf_of_error (hread : Json.read? (Text.trim content) = some v) {why : Fault}
    (hv : v.toFloat = .error why) (hwhy : why ≠ .tooLarge) :
    sentimentOf content = .error (.unavailable (.notSentiment content)) := by
  simp only [sentimentOf, hread, hv]

theorem rates_ok_iff (hread : Json.read? (Text.trim content) = some v) (hv : v.toFloat = .ok x) :
    Rates content (sentimentOf content) ↔ IsClamp v (clampSigned x) := by
  rw [sentimentOf_of_ok hread hv]
  constructor
  · rintro ⟨hread', hclamp, -, -⟩
    rwa [Option.some.inj (hread.symm.trans hread')]
  · intro hclamp
    obtain ⟨hlow, hhigh⟩ := Number.clampSigned_bounds x
    exact .rated hread hclamp hlow hhigh

theorem rates_of_error (hread : Json.read? (Text.trim content) = some v) {why : Fault}
    (hv : v.toFloat = .error why) (hwhy : why ≠ .tooLarge) :
    Rates content (sentimentOf content) := by
  rw [sentimentOf_of_error hread hv hwhy]
  exact .refused

theorem not_rates_of_tooLarge (hread : Json.read? (Text.trim content) = some v)
    (hv : v.toFloat = .error .tooLarge) : ¬ Rates content (sentimentOf content) := by
  rw [sentimentOf_of_tooLarge hread hv]
  intro h
  cases h

/-- An answer that is JSON is dealt with as it should be exactly if it is not misread. -/
theorem rates_iff (hread : Json.read? (Text.trim content) = some v) :
    Rates content (sentimentOf content) ↔ ¬ Misread v := by
  cases v with
  | null =>
    exact iff_of_true (rates_of_error hread rfl Fault.noConfusion) id
  | bool b =>
    rw [rates_ok_iff hread rfl]
    exact iff_of_false id fun h => h trivial
  | int n =>
    have hv := toFloat_int n
    by_cases hinf : (Float.ofInt n).isInf = true
    · rw [if_pos hinf] at hv
      exact iff_of_false (not_rates_of_tooLarge hread hv) fun h => h (Number.isInf_ofInt_iff.1 hinf)
    · rw [if_neg hinf] at hv
      rw [rates_ok_iff hread hv]
      exact iff_of_true (clampSigned_ofInt n) (mt Number.isInf_ofInt_iff.2 hinf)
  | real x =>
    rw [rates_ok_iff hread rfl]
    by_cases hx : x.isNaN = true
    · exact iff_of_false (not_isClamp_of_isNaN hx) fun h => h hx
    · exact iff_of_true (isClamp_clampSigned (Bool.eq_false_iff.2 hx)) hx
  | str s =>
    cases hs : Decimal.read? s with
    | none =>
      have hrates := rates_of_error hread (toFloat_str_of_none hs) Fault.noConfusion
      exact iff_of_true hrates fun h => h hs
    | some x =>
      rw [rates_ok_iff hread (toFloat_str_of_some hs)]
      have hne : Decimal.read? s ≠ none := hs ▸ Option.some_ne_none x
      exact iff_of_false id fun h => h hne
  | arr items =>
    exact iff_of_true (rates_of_error hread rfl Fault.noConfusion) id
  | obj members =>
    exact iff_of_true (rates_of_error hread rfl Fault.noConfusion) id

end

/-- An answer is dealt with as it should be unless it is JSON and misread. -/
theorem rates_sentimentOf_iff (content : String) :
    Rates content (sentimentOf content) ↔
      ∀ v, Json.read? (Text.trim content) = some v → ¬ Misread v := by
  cases hread : Json.read? (Text.trim content) with
  | none =>
    have houtage : sentimentOf content = .error (.unavailable (.notSentiment content)) := by
      simp only [sentimentOf, hread]
    rw [houtage]
    exact iff_of_true .refused (by simp)
  | some v => simp [rates_iff hread]

/-- Whatever is rated is between minus one and one. -/
theorem bounds_of_sentimentOf {content : String} {y : Float} (h : sentimentOf content = .ok y) :
    -1 ≤ y ∧ y ≤ 1 := by
  unfold sentimentOf at h
  split at h
  · cases h
  · split at h
    · cases h
      exact Number.clampSigned_bounds _
    · cases h
    · cases h

/-- A number is not an outage: it is rated, or it breaks the call off. -/
theorem not_isClamp_of_outage {content : String} {why : Outage}
    (h : sentimentOf content = .error (.unavailable why)) {v : Json.Value}
    (hread : Json.read? (Text.trim content) = some v) (y : Float) : ¬ IsClamp v y := by
  cases v with
  | int n =>
    have hv := toFloat_int n
    split at hv
    · rw [sentimentOf_of_tooLarge hread hv] at h
      cases h
    · rw [sentimentOf_of_ok hread hv] at h
      cases h
  | real x =>
    rw [sentimentOf_of_ok hread rfl] at h
    cases h
  | null => exact id
  | bool b => exact id
  | str s => exact id
  | arr items => exact id
  | obj members => exact id

/-- A text of digits is what is left of it without blanks at the ends. -/
theorem trim_digits {ds : List Char} (hds : ∀ d ∈ ds, d.isDigit = true) :
    Text.trim (String.ofList ds) = String.ofList ds := by
  have hblank : ∀ d ∈ ds, Text.isBlank d = false := by
    intro d hd
    by_contra h
    rw [Bool.not_eq_false] at h
    have halphanum := Text.isAlphanum_of_isBlank h
    rw [Char.isAlphanum, hds d hd, Bool.or_true] at halphanum
    cases halphanum
  refine Text.trim_eq_self ?_ ?_ <;> rw [String.toList_ofList]
  · exact fun d hd => hblank d (List.mem_of_mem_head? hd)
  · exact fun d hd => hblank d (List.mem_of_getLast? hd)

/-- An integer beyond the range, written with its digits, is not rated, nor is it an outage. -/
theorem sentimentOf_digits {c : Char} {ds : List Char} (hzero : c ≠ '0')
    (hds : ∀ d ∈ c :: ds, d.isDigit = true) (hlength : (c :: ds).length ≤ Json.mostDigits)
    (hlarge : Number.leastInfinite ≤ Json.natOf (c :: ds)) :
    sentimentOf (String.ofList (c :: ds)) = .error .tooLarge := by
  have hread := Json.read?_digits hzero hds hlength
  rw [← trim_digits hds] at hread
  have hinf : (Float.ofInt (Json.natOf (c :: ds))).isInf = true := Number.isInf_ofNat_iff.2 hlarge
  have hv := toFloat_int (Json.natOf (c :: ds))
  rw [if_pos hinf] at hv
  exact sentimentOf_of_tooLarge hread hv

/-! ### The call -/

section

variable (s : Service) (rest : Script BackendAnswer) (text content : String)

/-- The service whose backend answers the next completion with the text. -/
def answering : Service := { s with completions := .content (some content) :: rest }

theorem complete_answering (p : Prompt) :
    ((answering s rest content).complete p).1 = .ok content := by
  cases rest <;> rfl

theorem analyze_answering :
    ((answering s rest content).analyze text).1 = sentimentOf content := by
  show ((answering s rest content).complete _).1.bind sentimentOf = sentimentOf content
  rw [complete_answering, Except.bind]

/-- Every answer of the backend is rated as the number that it denotes, or is an outage, unless it is
JSON and misread: then it is rated without being a number, or the call breaks down. Whatever is rated
is in range, and no number is an outage. -/
theorem analyze_rates_iff :
    (Rates content ((answering s rest content).analyze text).1 ↔
        ∀ v, Json.read? (Text.trim content) = some v → ¬ Misread v) ∧
      (∀ y, ((answering s rest content).analyze text).1 = .ok y → -1 ≤ y ∧ y ≤ 1) ∧
      ∀ why, ((answering s rest content).analyze text).1 = .error (.unavailable why) →
        ∀ v y, Json.read? (Text.trim content) = some v → ¬ IsClamp v y := by
  rw [analyze_answering]
  exact ⟨rates_sentimentOf_iff content, fun _ => bounds_of_sentimentOf,
    fun _ h _ y hread => not_isClamp_of_outage h hread y⟩

end

/-- A service with one model, in an environment without variables. -/
def plain : Service where
  environment := []
  completionModel := ⟨"local", .str "openai/local", "completion", none, none, .null⟩
  embeddingModel := none
  completions := []
  embeddings := []
  calls := []

/-- A one with 309 zeros. -/
def huge : String := String.ofList ('1' :: List.replicate 309 '0')

theorem sentimentOf_huge : sentimentOf huge = .error .tooLarge := by
  have hlength : ('1' :: List.replicate 309 '0').length = 310 := by
    rw [List.length_cons, List.length_replicate]
  refine sentimentOf_digits (by decide) ?_ (hlength.trans_le (by decide)) (by decide +kernel)
  intro d hd
  rcases List.mem_cons.1 hd with rfl | hd
  · rfl
  · rw [List.eq_of_mem_replicate hd]
    rfl

/-- An integer beyond the range breaks the call off; a truth value, a text and not-a-number are
rated. -/
theorem analyze_misreads :
    ((answering plain [] huge).analyze "great").1 = .error .tooLarge ∧
      ¬ Rates huge ((answering plain [] huge).analyze "great").1 ∧
      ¬ Rates "true" ((answering plain [] "true").analyze "great").1 ∧
      ¬ Rates "\"0.5\"" ((answering plain [] "\"0.5\"").analyze "great").1 ∧
      ¬ Rates "NaN" ((answering plain [] "NaN").analyze "great").1 := by
  simp only [analyze_answering]
  refine ⟨sentimentOf_huge, ?_, ?_, ?_, ?_⟩
  · rw [sentimentOf_huge]
    intro h
    cases h
  · have hread : Json.read? (Text.trim "true") = some (.bool true) := by rfl
    exact fun h => (rates_iff hread).1 h trivial
  · have hread : Json.read? (Text.trim "\"0.5\"") = some (.str "0.5") := by rfl
    have hnumber : (Decimal.read? "0.5").isSome = true := by decide +kernel
    exact fun h => (rates_iff hread).1 h (Option.isSome_iff_ne_none.1 hnumber)
  · have hread : Json.read? (Text.trim "NaN") = some (.real (0 / 0)) := by rfl
    have hnan : (0 / 0 : Float).isNaN = true := by decide +kernel
    exact fun h => (rates_iff hread).1 h hnan

end TieredMemory.Service
