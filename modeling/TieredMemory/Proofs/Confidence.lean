import TieredMemory.Pattern.Detection
import TieredMemory.Proofs.Extraction
import TieredMemory.Proofs.Number.Clamp

/-!
# The numbers in a completer's answer

A completer says how confident it is of a pattern and how important a fact is, and may say it with any
number, text of a number or value that is not finite. A pattern keeps the confidence as its threshold,
if it is not too low, and a fact the importance, both clamped. What is not a number is not too low and
is not clamped either, so it comes through; that is the only way out of the ranges
(`numbers_in_range_iff`). Without a readable answer the rules set the numbers, which are in range.
-/

namespace TieredMemory

/-! ### Thresholds -/

namespace Detection

/-- A threshold that a detected pattern is to have. -/
def Trusted (t : Float) : Prop := Candidate.leastConfidence ≤ t ∧ t ≤ 1

instance (t : Float) : Decidable (Trusted t) :=
  inferInstanceAs (Decidable (Candidate.leastConfidence ≤ t ∧ t ≤ 1))

/-- The candidates that the completer lists for a message; none where there is no completer or its
answer cannot be read. -/
def listed (text : Option String) (w : World) : List Candidate :=
  match w.complete? (prompt text) with
  | none => []
  | some (reply, _) => (candidates reply.outcome).toOption.getD []

@[simp] theorem threshold_create (user : String) (c : Candidate) (ts : List Trigger) (w : World) :
    (create user c ts w).1.threshold = clampUnit c.confidence := rfl

/-- Too little confidence is the only reason to leave a candidate out. -/
theorem threshold_ofCandidates (user : String) (cs : List Candidate) (w : World) :
    (ofCandidates user cs w).1.map Pattern.threshold =
      (cs.filter fun c => !decide (c.confidence < Candidate.leastConfidence)).map
        fun c => clampUnit c.confidence := by
  induction cs generalizing w with
  | nil => rfl
  | cons c r ih =>
    by_cases hlow : c.confidence < Candidate.leastConfidence
    · simp [ofCandidates, hlow, ih]
    · simp [ofCandidates, hlow, ih]

theorem threshold_of_mem_byMarkers {user : String} {text : Option String} {w : World} {p : Pattern}
    (h : p ∈ (byMarkers user text w).1) : p.threshold = clampUnit markerThreshold := by
  cases text with
  | none => cases h
  | some text =>
    simp only [byMarkers, byMarker] at h
    split at h
    · cases h
    · split at h
      · cases h
      · rw [List.mem_singleton.1 h, threshold_create]

/-- A confidence that is not too low gives a threshold in range, or one that is not a number. -/
theorem trusted_clampUnit_iff {x : Float} (hx : ¬ x < Candidate.leastConfidence) :
    Trusted (clampUnit x) ↔ x.isNaN = false := by
  constructor
  · intro h
    have hnan := (Number.isNaN_eq_false_of_le h.2).1
    by_contra hx
    rw [Bool.not_eq_false] at hx
    rw [Number.clampUnit_of_isNaN hx] at hnan
    exact Bool.false_ne_true (hnan.symm.trans hx)
  · intro hnan
    have hle : Candidate.leastConfidence ≤ x := (Number.not_lt_iff_le hnan (by decide)).1 hx
    exact ⟨Number.le_clampUnit (by decide) hle, (Number.inUnit_clampUnit hnan).2⟩

/-- A detected pattern has the confidence of a listed candidate, or what the markers give. -/
theorem threshold_of_mem_ofMessage {user : String} {text : Option String} {w : World} {p : Pattern}
    (h : p ∈ (ofMessage user text w).1) :
    p.threshold = clampUnit markerThreshold ∨
      ∃ c ∈ listed text w, ¬ c.confidence < Candidate.leastConfidence ∧
        p.threshold = clampUnit c.confidence := by
  unfold ofMessage at h
  split at h
  · exact .inl (threshold_of_mem_byMarkers h)
  · next reply w' hreply =>
    unfold ofOutcome at h
    split at h
    · next cs hcs =>
      have hp := List.mem_map_of_mem (f := Pattern.threshold) h
      rw [threshold_ofCandidates] at hp
      obtain ⟨c, hc, hthreshold⟩ := List.mem_map.1 hp
      obtain ⟨hmem, hlow⟩ := List.mem_filter.1 hc
      refine .inr ⟨c, ?_, by simpa using hlow, hthreshold.symm⟩
      simp only [listed, hreply, hcs]
      exact hmem
    · exact .inl (threshold_of_mem_byMarkers h)

/-- Every listed candidate that is not left out becomes a pattern. -/
theorem exists_mem_ofMessage (user : String) {text : Option String} {w : World} {c : Candidate}
    (hc : c ∈ listed text w) (hlow : ¬ c.confidence < Candidate.leastConfidence) :
    ∃ p ∈ (ofMessage user text w).1, p.threshold = clampUnit c.confidence := by
  unfold listed at hc
  split at hc
  · cases hc
  · next reply w' hreply =>
    cases hcs : candidates reply.outcome with
    | error why =>
      rw [hcs] at hc
      cases hc
    | ok cs =>
      rw [hcs] at hc
      have hkept : clampUnit c.confidence ∈
          (ofCandidates user cs (w'.after (max reply.delay 0))).1.map Pattern.threshold := by
        rw [threshold_ofCandidates]
        exact List.mem_map.2 ⟨c, List.mem_filter.2 ⟨hc, by simpa using hlow⟩, rfl⟩
      simp only [ofMessage, hreply, ofOutcome, hcs]
      exact List.mem_map.1 hkept

/-- The thresholds are in range unless a confidence is not a number. -/
theorem trusted_ofMessage_iff (user : String) (text : Option String) (w : World) :
    (∀ p ∈ (ofMessage user text w).1, Trusted p.threshold) ↔
      ∀ c ∈ listed text w, c.confidence.isNaN = false := by
  constructor
  · intro h c hc
    by_cases hlow : c.confidence < Candidate.leastConfidence
    · exact (Number.isNaN_eq_false_of_lt hlow).1
    · obtain ⟨p, hp, hthreshold⟩ := exists_mem_ofMessage user hc hlow
      exact (trusted_clampUnit_iff hlow).1 (hthreshold ▸ h p hp)
  · intro h p hp
    rcases threshold_of_mem_ofMessage hp with hthreshold | ⟨c, hc, hlow, hthreshold⟩
    · rw [hthreshold]
      decide +kernel
    · rw [hthreshold]
      exact (trusted_clampUnit_iff hlow).2 (h c hc)

end Detection

/-! ### Importances -/

namespace Extraction

/-- The findings in what the completer gave. -/
def findings (outcome : Except Fault Json.Value) : Except Fault (List Finding) := do
  ofAnswer (← (← outcome).toText)

/-- The findings that the completer lists for a turn; none where there is no completer or its answer
cannot be read. -/
def listed (t : Turn) (w : World) : List Finding :=
  match w.complete? (prompt t.text) with
  | none => []
  | some (reply, _) => (findings reply.outcome).toOption.getD []

theorem importance_factsOf (user conversation : String) (fs : List Finding) (w : World) :
    (factsOf user conversation fs w).1.map Fact.importance =
      fs.map fun f => clampUnit f.importance := by
  have hpairs := congrArg (List.map Prod.snd) (factsOf_inv user conversation fs w).2.2
  simpa only [List.map_map, Function.comp_def] using hpairs

theorem inUnit_of_mem_factsByRules {t : Turn} {w : World} {f : Fact}
    (h : f ∈ (factsByRules t w).1) : Number.InUnit f.importance := by
  have himportance := List.mem_map_of_mem (f := Fact.importance) h
  rw [factsByRules, importance_factsOf] at himportance
  obtain ⟨g, hg, himportance⟩ := List.mem_map.1 himportance
  rw [← himportance]
  exact Number.inUnit_clampUnit (isNaN_of_mem (importance_of_mem_byRules hg))

/-- A fact has the importance of a listed finding, or one that the rules give. -/
theorem importance_of_mem_ofTurn {t : Turn} {w : World} {f : Fact} (h : f ∈ (ofTurn t w).1) :
    Number.InUnit f.importance ∨ ∃ g ∈ listed t w, f.importance = clampUnit g.importance := by
  unfold ofTurn at h
  split at h
  · exact .inl (inUnit_of_mem_factsByRules h)
  · next reply w' hreply =>
    unfold factsOfOutcome at h
    split at h
    · next fs hfs =>
      have himportance := List.mem_map_of_mem (f := Fact.importance) h
      rw [importance_factsOf] at himportance
      obtain ⟨g, hg, himportance⟩ := List.mem_map.1 himportance
      have hfs : findings reply.outcome = .ok fs := hfs
      refine .inr ⟨g, ?_, himportance.symm⟩
      simp only [listed, hreply, hfs]
      exact hg
    · exact .inl (inUnit_of_mem_factsByRules h)

/-- Every listed finding becomes a fact. -/
theorem exists_mem_ofTurn {t : Turn} {w : World} {g : Finding} (hg : g ∈ listed t w) :
    ∃ f ∈ (ofTurn t w).1, f.importance = clampUnit g.importance := by
  unfold listed at hg
  split at hg
  · cases hg
  · next reply w' hreply =>
    cases hfs : findings reply.outcome with
    | error why =>
      rw [hfs] at hg
      cases hg
    | ok fs =>
      rw [hfs] at hg
      have hkept : clampUnit g.importance ∈
          (factsOf t.user t.conversation fs (w'.after (max reply.delay 0))).1.map
            Fact.importance := by
        rw [importance_factsOf]
        exact List.mem_map.2 ⟨g, hg, rfl⟩
      unfold findings at hfs
      simp only [ofTurn, hreply, factsOfOutcome, hfs]
      exact List.mem_map.1 hkept

/-- The importances are in range unless one that the completer gives is not a number. -/
theorem inUnit_ofTurn_iff (t : Turn) (w : World) :
    (∀ f ∈ (ofTurn t w).1, Number.InUnit f.importance) ↔
      ∀ g ∈ listed t w, g.importance.isNaN = false := by
  constructor
  · intro h g hg
    obtain ⟨f, hf, himportance⟩ := exists_mem_ofTurn hg
    exact Number.inUnit_clampUnit_iff.1 (himportance ▸ h f hf)
  · intro h f hf
    rcases importance_of_mem_ofTurn hf with hrange | ⟨g, hg, himportance⟩
    · exact hrange
    · rw [himportance]
      exact Number.inUnit_clampUnit (h g hg)

end Extraction

/-! ### Both together -/

/-- Whatever a completer answers, thresholds and importances are in range or not numbers, and they are
all in range exactly if every confidence, and every importance, that it gives is a number. -/
theorem numbers_in_range_iff (user : String) (text : Option String) (t : Turn) (w : World) :
    (∀ p ∈ (Detection.ofMessage user text w).1,
        Detection.Trusted p.threshold ∨ p.threshold.isNaN = true) ∧
      ((∀ p ∈ (Detection.ofMessage user text w).1, Detection.Trusted p.threshold) ↔
        ∀ c ∈ Detection.listed text w, c.confidence.isNaN = false) ∧
      (∀ f ∈ (Extraction.ofTurn t w).1,
        Number.InUnit f.importance ∨ f.importance.isNaN = true) ∧
      ((∀ f ∈ (Extraction.ofTurn t w).1, Number.InUnit f.importance) ↔
        ∀ g ∈ Extraction.listed t w, g.importance.isNaN = false) := by
  refine ⟨?_, Detection.trusted_ofMessage_iff user text w, ?_, Extraction.inUnit_ofTurn_iff t w⟩
  · intro p hp
    rcases Detection.threshold_of_mem_ofMessage hp with hthreshold | ⟨c, -, hlow, hthreshold⟩
    · rw [hthreshold]
      exact .inl (by decide +kernel)
    · rw [hthreshold]
      cases hnan : c.confidence.isNaN with
      | false => exact .inl ((Detection.trusted_clampUnit_iff hlow).2 hnan)
      | true => exact .inr (by rw [Number.clampUnit_of_isNaN hnan, hnan])
  · intro f hf
    rcases Extraction.importance_of_mem_ofTurn hf with hrange | ⟨g, -, himportance⟩
    · exact .inl hrange
    · rw [himportance]
      exact Number.inUnit_clampUnit_or_isNaN g.importance

/-- A completer whose answers give numbers that are none. -/
def unsure : World where
  completer := some (.scripted [⟨0, .ok (.str
    "[\x7b\"name\": \"n\", \"instructionTemplate\": \"i\", \"confidence\": NaN,
      \"key\": \"k\", \"value\": \"v\", \"importance\": NaN\x7d]")⟩])

/-- The pattern and the fact of such an answer are out of range. -/
theorem numbers_of_unsure :
    (¬ ∀ p ∈ (Detection.ofMessage "u" (some "hello there") unsure).1,
        Detection.Trusted p.threshold) ∧
      ¬ ∀ f ∈ (Extraction.ofTurn ⟨"t", "u", "c", .user, "hello there", 0, 0, ⟨false, false, false⟩,
          [], none⟩ unsure).1, Number.InUnit f.importance := by
  decide +kernel

end TieredMemory
