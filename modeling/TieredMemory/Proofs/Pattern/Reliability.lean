import TieredMemory.Proofs.Pattern.Matching
import TieredMemory.Proofs.Regex.Counts

/-!
# When a match has an outcome

Any text is accepted as the expression of a trigger. One that is malformed scores zero, but one with a
count that is too large has no score at all, and then no match of its user has an outcome
(`matchQuery_total_iff`). A text without the digits of such a number is not of this kind
(`Trigger.not_oversized_of_tame`).
-/

namespace TieredMemory

/-! ### Scores -/

namespace Trigger

variable {t : Trigger} {query : String} {embedding : Option Embedding}

/-- The trigger is an expression that is refused for the size of a count. -/
def Oversized (t : Trigger) : Prop :=
  t.kind = .regex ∧ Regex.read t.text = .error .countTooLarge

theorem not_oversized_of_tame (h : Regex.Tame t.text.toList) : ¬ t.Oversized :=
  fun hsize => Regex.read_ne_countTooLarge h hsize.2

theorem score_of_malformed (hkind : t.kind = .regex) (h : Regex.read t.text = .error .malformed) :
    t.score query embedding = .ok 0 := by
  simp only [score, hkind, h]

/-- The size of a count is the only reason why a trigger has no score. -/
theorem exists_score_iff : (∃ x, t.score query embedding = .ok x) ↔ ¬ t.Oversized := by
  constructor
  · rintro ⟨x, hx⟩ ⟨hkind, hread⟩
    simp only [score, hkind, hread] at hx
    cases hx
  · intro h
    unfold score
    split
    · exact ⟨_, rfl⟩
    · next hkind =>
      split
      · exact ⟨_, rfl⟩
      · exact ⟨_, rfl⟩
      · next hread => exact absurd ⟨hkind, hread⟩ h
    · split <;> exact ⟨_, rfl⟩

end Trigger

theorem Pattern.scorable_iff {p : Pattern} {query : String} {embedding : Option Embedding} :
    p.Scorable query embedding ↔ (∃ b, p.boost = .ok b) ∧ ∀ t ∈ p.triggers, ¬ t.Oversized := by
  constructor
  · exact fun h => ⟨h.boost, fun t ht => Trigger.exists_score_iff.1 (h.scores t ht)⟩
  · exact fun h => ⟨h.1, fun t ht => Trigger.exists_score_iff.2 (h.2 t ht)⟩

/-! ### Matches -/

namespace PatternStore

variable {now : Time} {user query : String} {embedding : Option Embedding} {s : PatternStore}
  {w : World}

/-- The search may fail, and so may the count of a use for want of a cadence. -/
theorem exists_apply_iff :
    (∃ found, (s.apply now user query embedding).1 = .ok found) ↔
      (∀ p ∈ s.ofUser user, p.Scorable query embedding) ∧
        ((∃ p, Pattern.best? query embedding (s.ofUser user) = .ok (some p)) →
          s.consolidationEvery ≠ 0) := by
  constructor
  · rintro ⟨found, h⟩
    refine ⟨scorable_of_apply h, ?_⟩
    rintro ⟨p, hbest⟩ hzero
    rw [apply_of_zeroCadence hzero hbest] at h
    cases h
  · rintro ⟨hscorable, hpace⟩
    have hbest := Pattern.best?_eq_ok_iff.2 ⟨hscorable, rfl⟩
    generalize (((Pattern.byUse (s.ofUser user)).flatMap (Pattern.bids query embedding)).foldl
      Pattern.better none).map Prod.fst = found at hbest
    simp only [apply, hbest]
    cases found with
    | none => exact ⟨none, rfl⟩
    | some p =>
      rcases recordMatch_inv now p s with ⟨hzero, -⟩ | ⟨-, guards, guardCount, scheduled, -, hused⟩
      · exact absurd hzero (hpace ⟨p, hbest⟩)
      · dsimp only
        rw [hused]
        exact ⟨_, rfl⟩

/-- A match of an accepted query has an outcome exactly if no trigger of the user's is oversized, every
boost can be computed, and there is a cadence if a pattern is found. -/
theorem exists_matchQuery_iff (hu : checkUser user = .ok ()) (hquery : checkQuery query = .ok query) :
    (∃ found, (s.matchQuery user query w).1 = .ok found) ↔
      (∀ p ∈ s.ofUser user, (∃ b, p.boost = .ok b) ∧ ∀ t ∈ p.triggers, ¬ t.Oversized) ∧
        ((∃ p, Pattern.best? query (s.queryEmbedding user query w) (s.ofUser user) = .ok (some p)) →
          s.consolidationEvery ≠ 0) := by
  obtain ⟨w', hmatch⟩ := matchQuery_eq hu hquery s w
  rw [hmatch]
  simp only [exists_apply_iff, Pattern.scorable_iff]

/-- A trigger has a score, which is zero if its expression is malformed, unless a count in it is too
large; that takes a large number in its text. A match of an accepted query has an outcome exactly if
all triggers of the user have a score, and the uses of a pattern can be computed with. -/
theorem matchQuery_total_iff (s : PatternStore) (w : World) (user query : String)
    (hu : checkUser user = .ok ()) (hquery : checkQuery query = .ok query) :
    (∀ (t : Trigger) (embedding : Option Embedding),
      ((∃ x, t.score query embedding = .ok x) ↔ ¬ t.Oversized) ∧
      (t.kind = .regex → Regex.read t.text = .error .malformed → t.score query embedding = .ok 0) ∧
      (Regex.Tame t.text.toList → ¬ t.Oversized)) ∧
    ((∃ found, (s.matchQuery user query w).1 = .ok found) ↔
      (∀ p ∈ s.ofUser user, (∃ b, p.boost = .ok b) ∧ ∀ t ∈ p.triggers, ¬ t.Oversized) ∧
        ((∃ p, Pattern.best? query (s.queryEmbedding user query w) (s.ofUser user) = .ok (some p)) →
          s.consolidationEvery ≠ 0)) := by
  refine ⟨fun t embedding => ⟨Trigger.exists_score_iff, ?_, Trigger.not_oversized_of_tame⟩,
    exists_matchQuery_iff hu hquery⟩
  exact Trigger.score_of_malformed

/-- A pattern with a malformed expression, and one with an expression that can be read. -/
def legible : PatternStore where
  patterns := [hint "a" .regex "(", hint "b" .regex "hel+o"]

theorem matchQuery_total_legible :
    checkUser "u" = .ok () ∧ checkQuery "hello" = .ok "hello" ∧
      Trigger.score "hello" none ⟨.regex, "(", none⟩ = .ok 0 ∧
      ∃ found, (legible.matchQuery "u" "hello" {}).1 = .ok found := by
  have hu : checkUser "u" = .ok () := by decide +kernel
  have hquery : checkQuery "hello" = .ok "hello" := by decide +kernel
  have hmalformed : Regex.read "(" = .error .malformed := by rfl
  have hread : ∃ e, Regex.read "hel+o" = .ok e := ⟨_, rfl⟩
  have hof : legible.ofUser "u" = [hint "a" .regex "(", hint "b" .regex "hel+o"] := rfl
  obtain ⟨hscores, hmatch⟩ := matchQuery_total_iff legible {} "u" "hello" hu hquery
  have hpace : legible.consolidationEvery ≠ 0 := by decide
  refine ⟨hu, hquery, (hscores ⟨.regex, "(", none⟩ none).2.1 rfl hmalformed,
    hmatch.2 ⟨?_, fun _ => hpace⟩⟩
  simp only [hof, List.forall_mem_cons]
  refine ⟨⟨⟨_, boost_hint ..⟩, ?_⟩, ⟨⟨_, boost_hint ..⟩, ?_⟩, by simp⟩
  · intro t ht hsize
    obtain rfl := List.mem_singleton.1 ht
    have := hmalformed.symm.trans hsize.2
    cases this
  · intro t ht hsize
    obtain rfl := List.mem_singleton.1 ht
    obtain ⟨e, he⟩ := hread
    have := he.symm.trans hsize.2
    cases this

/-- A pattern with too large a count in its expression. -/
def excessive : Pattern := hint "a" .regex "a\x7b4294967296\x7d"

/-- A store accepts such a pattern. Then its trigger has no score, and a match has no outcome. -/
theorem no_outcome_excessive :
    ({} : PatternStore).store excessive true {} =
        .ok (excessive, { patterns := [excessive] }, {}) ∧
      checkUser "u" = .ok () ∧ checkQuery "hello" = .ok "hello" ∧
      (∃ t ∈ excessive.triggers, ¬ ∃ x, t.score "hello" none = .ok x) ∧
      ¬ ∃ found, (({ patterns := [excessive] } : PatternStore).matchQuery "u" "hello" {}).1 =
        .ok found := by
  have hu : checkUser "u" = .ok () := by decide +kernel
  have hquery : checkQuery "hello" = .ok "hello" := by decide +kernel
  have hsize : Trigger.Oversized ⟨.regex, "a\x7b4294967296\x7d", none⟩ := ⟨rfl, rfl⟩
  have hstore : ({} : PatternStore).store excessive true {} =
      .ok (excessive, { patterns := [excessive] }, {}) := by
    have hcheck : check excessive = .ok () := by decide +kernel
    have hnone : ({} : PatternStore).counterpart? excessive = none := by
      simp [counterpart?, ofUser, descending]
    have hinsert : ({} : PatternStore).insert true excessive =
        (excessive, { patterns := [excessive] }) := by
      rw [insert, if_pos rfl, hnone]
      rfl
    simp only [store, hcheck, bind, Except.bind]
    exact congrArg (fun r : Pattern × PatternStore => Except.ok (r.1, r.2, ({} : World))) hinsert
  refine ⟨hstore, hu, hquery, ⟨_, List.mem_cons_self, fun h => Trigger.exists_score_iff.1 h hsize⟩, ?_⟩
  intro h
  have hall := ((exists_matchQuery_iff hu hquery).1 h).1 excessive List.mem_cons_self
  exact hall.2 _ List.mem_cons_self hsize

end PatternStore

end TieredMemory
