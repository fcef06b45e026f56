import TieredMemory.PatternStore
import TieredMemory.Proofs.Keywords
import TieredMemory.Proofs.Outcome

/-!
# Detected patterns can be stored

Whatever a message says, and whatever the completer answers, a detected pattern has a name, a template
and a trigger, and none of them is blank (`Detection.check_of_mem_ofMessage`). What the completer lists
is trimmed, and an item without a name or a template is left out; a marker is found in a text that is not
blank only, and its keyword is a token. So a store that learns from a message stores everything that is
detected, one pattern after another (`PatternStore.learnFrom_stores`).
-/

namespace TieredMemory

open Text

/-! ### What is checked -/

theorem PatternStore.check_eq_ok_iff {p : Pattern} :
    check p = .ok () ↔ checkUser p.user = .ok () ∧ isEmptyText p.name = false ∧
      isEmptyText p.template = false ∧ p.triggers ≠ [] ∧
      ∀ t ∈ p.triggers, isEmptyText t.text = false := by
  have htriggers : (p.triggers.any fun t => isEmptyText t.text) = false ↔
      ∀ t ∈ p.triggers, isEmptyText t.text = false := by
    simp [List.any_eq_false]
  rw [← htriggers, ← List.isEmpty_eq_false_iff]
  unfold check
  cases checkUser p.user with
  | error why => simp [bind, Except.bind]
  | ok _ =>
    cases isEmptyText p.name <;> cases isEmptyText p.template <;> cases p.triggers.isEmpty <;>
      cases (p.triggers.any fun t => isEmptyText t.text) <;>
      simp [bind, Except.bind, throw, throwThe, MonadExceptOf.throw, pure, Except.pure]

/-! ### Candidates -/

namespace Candidate

/-- Nothing in the candidate is blank. -/
structure Spoken (c : Candidate) : Prop where
  name : isEmptyText c.name = false
  template : isEmptyText c.template = false
  description : isEmptyText c.description = false
  keywords : ∀ k ∈ c.keywords, isEmptyText k = false

/-- A member is trimmed, so that it is blank only if it is empty. -/
theorem isEmptyText_textMember {item : List (String × Json.Value)} {name : String}
    (h : (textMember item name).isEmpty = false) : isEmptyText (textMember item name) = false := by
  unfold textMember at h ⊢
  cases hv : Json.lookup? name item with
  | none =>
    rw [hv] at h
    cases h
  | some v =>
    rw [hv] at h
    simp only [Option.map_some, Option.getD_some] at h ⊢
    rwa [isEmptyText_trim, ← isEmpty_trim]

theorem isEmptyText_of_mem_keywordsOf {item : List (String × Json.Value)} {ks : List String}
    (h : keywordsOf item = .ok ks) : ∀ k ∈ ks, isEmptyText k = false := by
  unfold keywordsOf at h
  split at h
  · cases h
    simp
  · split at h
    · obtain ⟨vs, -, rfl⟩ := map_eq_ok h
      intro k hk
      obtain ⟨t, ht, rfl⟩ := List.mem_map.1 hk
      obtain ⟨ht, hne⟩ := List.mem_filter.1 ht
      obtain ⟨v, -, rfl⟩ := List.mem_map.1 ht
      rw [isEmptyText_lower, isEmptyText_trim, ← isEmpty_trim]
      simpa using hne
    · cases h
      simp

theorem spoken_of_ofItem? {item : Json.Value} {c : Candidate} (h : ofItem? item = .ok (some c)) :
    c.Spoken := by
  unfold ofItem? at h
  split at h
  · next item =>
    dsimp only at h
    split at h
    · cases h
    · next hmembers =>
      obtain ⟨hname, htemplate⟩ : (textMember item "name").isEmpty = false ∧
          (textMember item "instructionTemplate").isEmpty = false := by
        simpa using hmembers
      obtain ⟨ks, hks, h⟩ := bind_eq_ok h
      obtain ⟨x, -, h⟩ := bind_eq_ok h
      cases h
      refine ⟨isEmptyText_textMember hname, isEmptyText_textMember htemplate, ?_,
        isEmptyText_of_mem_keywordsOf hks⟩
      dsimp only
      split
      · exact isEmptyText_textMember htemplate
      · next hdescription => exact isEmptyText_textMember (eq_false_of_ne_true hdescription)
  · cases h

theorem spoken_of_ofAnswer {content : String} {cs : List Candidate} (h : ofAnswer content = .ok cs) :
    ∀ c ∈ cs, c.Spoken := by
  obtain ⟨items, -, h⟩ := bind_eq_ok h
  obtain ⟨found, hfound, h⟩ := bind_eq_ok h
  cases h
  intro c hc
  obtain ⟨item, -, hitem⟩ := mapM_eq_ok hfound (some c) (by simpa using hc)
  exact spoken_of_ofItem? hitem

end Candidate

/-! ### Detected patterns -/

namespace Detection

variable {user : String}

/-- A pattern that is made of what the completer lists can be stored. -/
theorem check_of_mem_ofCandidates (hu : checkUser user = .ok ()) {cs : List Candidate}
    (hcs : ∀ c ∈ cs, c.Spoken) (w : World) :
    ∀ p ∈ (ofCandidates user cs w).1, PatternStore.check p = .ok () := by
  induction cs generalizing w with
  | nil => simp [ofCandidates]
  | cons c r ih =>
    obtain ⟨hc, hr⟩ := List.forall_mem_cons.1 hcs
    rw [ofCandidates]
    split
    · exact ih hr w
    · refine List.forall_mem_cons.2 ⟨?_, ih hr _⟩
      refine PatternStore.check_eq_ok_iff.2 ⟨hu, hc.name, hc.template, ?_, ?_⟩
      · simp [create, Candidate.triggers]
      · intro t ht
        simp only [create, Candidate.triggers, List.mem_append, List.mem_map, List.mem_eraseDups,
          List.mem_singleton] at ht
        rcases ht with ⟨k, hk, rfl⟩ | rfl
        · exact hc.keywords k hk
        · exact hc.description

/-- A pattern that is found by its marker can be stored. -/
theorem check_of_mem_byMarkers (hu : checkUser user = .ok ()) (text : Option String) (w : World) :
    ∀ p ∈ (byMarkers user text w).1, PatternStore.check p = .ok () := by
  cases text with
  | none => simp [byMarkers]
  | some text =>
    unfold byMarkers byMarker
    dsimp only
    split
    · simp
    · next marker label _ =>
      split
      · simp
      · next k hk =>
        have htoken := Keywords.isEmptyText_of_mem_tokens (List.mem_of_find?_eq_some hk)
        intro p hp
        rw [List.mem_singleton.1 hp]
        refine PatternStore.check_eq_ok_iff.2 ⟨hu, ?_, htoken.2, by simp [create], ?_⟩
        · have hcolon : isEmptyText ": " = false := by decide
          change isEmptyText (label ++ ": " ++ keyPhrase text marker) = false
          rw [isEmptyText_append, isEmptyText_append, hcolon, Bool.and_false, Bool.false_and]
        · simpa [create] using htoken.1

theorem check_of_mem_ofOutcome (hu : checkUser user = .ok ()) (text : Option String)
    (outcome : Except Fault Json.Value) (w : World) :
    ∀ p ∈ (ofOutcome user text outcome w).1, PatternStore.check p = .ok () := by
  unfold ofOutcome
  split
  · next cs hcs =>
    obtain ⟨v, -, hcs⟩ := bind_eq_ok hcs
    obtain ⟨content, -, hcs⟩ := bind_eq_ok hcs
    exact check_of_mem_ofCandidates hu (Candidate.spoken_of_ofAnswer hcs) w
  · exact check_of_mem_byMarkers hu text _

/-- Whatever the completer answers, a detected pattern can be stored. -/
theorem check_of_mem_ofMessage (hu : checkUser user = .ok ()) (text : Option String) (w : World) :
    ∀ p ∈ (ofMessage user text w).1, PatternStore.check p = .ok () := by
  unfold ofMessage
  split
  · exact check_of_mem_byMarkers hu text w
  · exact check_of_mem_ofOutcome hu text _ _

end Detection

end TieredMemory
