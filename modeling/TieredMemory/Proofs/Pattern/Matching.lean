import TieredMemory.Proofs.Pattern.Best
import TieredMemory.Proofs.Pattern.Conservation

/-!
# A match counts a use of the pattern that applies

A match returns the pattern that applies to the query with one more use, and leaves the others as they
are; where no trigger qualifies it returns none and changes nothing (`Chosen`). There are two ways out
of this. An expression may hold a number of repetitions that is too large to be read, and a pattern a
number of uses that is too large to compute with: then the match fails, whatever other patterns there
are. And a store without a cadence fails after it has counted the use. A match of an accepted query is
as it should be exactly if neither is the case (`matchQuery_chosen_iff`).
-/

namespace TieredMemory.PatternStore

open Pattern

/-- What a match for the query has to come to at the time: none and no change, where nothing
qualifies; otherwise the pattern that applies with one more use, which it has in the store as well,
while the other patterns stay as they are. A consolidation may have been set going. -/
def Chosen (now : Time) (user query : String) (embedding : Option Embedding) (s : PatternStore)
    (out : Except Fault (Option Pattern)) (s' : PatternStore) : Prop :=
  (∀ p ∈ s.ofUser user, ∀ t v, ¬ p.Qualifies query embedding t v) ∧ out = .ok none ∧ s' = s ∨
    ∃ p, Applies query embedding (s.ofUser user) p ∧ out = .ok (some (p.recordUsage s.policy now)) ∧
      List.Forall₂ (fun q q' => q = p ∧ q' = p.recordUsage s.policy now ∨ q ≠ p ∧ q' = q)
        s.patterns s'.patterns ∧
      ∃ guards guardCount scheduled,
        s' = { s with
          patterns := s'.patterns, guards, guardCount, background := s.background ++ scheduled }

variable {now : Time} {user query : String} {embedding : Option Embedding} {s s' : PatternStore}
  {w : World}

theorem Chosen.outcome {out : Except Fault (Option Pattern)}
    (h : Chosen now user query embedding s out s') : ∃ found, out = .ok found := by
  rcases h with ⟨-, hout, -⟩ | ⟨p, -, hout, -⟩
  · exact ⟨_, hout⟩
  · exact ⟨_, hout⟩

/-- A match that has an outcome could compute with all of the user's patterns. -/
theorem scorable_of_apply {found : Option Pattern}
    (h : (s.apply now user query embedding).1 = .ok found) :
    ∀ p ∈ s.ofUser user, p.Scorable query embedding := by
  unfold apply at h
  cases hbest : best? query embedding (s.ofUser user) with
  | error why =>
    rw [hbest] at h
    cases h
  | ok best => exact (best?_eq_ok_iff.1 hbest).1

/-- Without a cadence a match that finds a pattern has no outcome. -/
theorem apply_of_zeroCadence {p : Pattern} (hzero : s.consolidationEvery = 0)
    (hbest : best? query embedding (s.ofUser user) = .ok (some p)) :
    (s.apply now user query embedding).1 = .error .zeroCadence := by
  simp only [apply, hbest]
  rcases recordMatch_inv now p s with ⟨-, hused⟩ | ⟨hpace, -⟩
  · rw [hused]
    rfl
  · exact absurd hzero hpace

/-- With a cadence the use of the pattern that is found is counted. -/
theorem chosen_apply (hn : (s.patterns.map address).Nodup) {p : Pattern}
    (hpace : s.consolidationEvery ≠ 0)
    (hbest : best? query embedding (s.ofUser user) = .ok (some p))
    (hp : Applies query embedding (s.ofUser user) p) :
    Chosen now user query embedding s (s.apply now user query embedding).1
      (s.apply now user query embedding).2 := by
  simp only [apply, hbest]
  rcases recordMatch_inv now p s with ⟨hzero, -⟩ | ⟨-, guards, guardCount, scheduled, -, hused⟩
  · exact absurd hzero hpace
  · rw [hused]
    refine .inr ⟨p, hp, rfl, ?_, guards, guardCount, scheduled.toList, rfl⟩
    have hmem : p ∈ s.patterns := (List.mem_filter.1 hp.mem).1
    exact Keyed.forall₂_update address hn (fun _ => p.recordUsage s.policy now) hmem

/-- A match is as it should be exactly if it can compute with all of the user's patterns and has a
cadence to keep to once it finds one. -/
theorem apply_chosen_iff (hn : (s.patterns.map address).Nodup)
    (hnumeric : ∀ p ∈ s.ofUser user, p.Numeric query embedding) :
    Chosen now user query embedding s (s.apply now user query embedding).1
        (s.apply now user query embedding).2 ↔
      (∀ p ∈ s.ofUser user, p.Scorable query embedding) ∧
        ((∃ p ∈ s.ofUser user, ∃ t v, p.Qualifies query embedding t v) →
          s.consolidationEvery ≠ 0) := by
  constructor
  · intro h
    obtain ⟨found, hout⟩ := h.outcome
    have hscorable := scorable_of_apply hout
    refine ⟨hscorable, ?_⟩
    rintro ⟨p, hp, t, v, hqualifies⟩ hzero
    have hbest := best?_eq_ok_iff.2 ⟨hscorable, rfl⟩
    rcases applies_of_best? hnumeric hbest with ⟨-, hnone⟩ | ⟨q, hq, -⟩
    · exact hnone p hp t v hqualifies
    · rw [hq] at hbest
      rw [apply_of_zeroCadence hzero hbest] at hout
      cases hout
  · rintro ⟨hscorable, hpace⟩
    have hbest := best?_eq_ok_iff.2 ⟨hscorable, rfl⟩
    rcases applies_of_best? hnumeric hbest with ⟨hfound, hnone⟩ | ⟨p, hfound, hp⟩
    · rw [hfound] at hbest
      exact .inl ⟨hnone, by simp [apply, hbest]⟩
    · rw [hfound] at hbest
      obtain ⟨t, v, hqualifies, -⟩ := hp.greatest
      exact chosen_apply hn (hpace ⟨p, hp.mem, t, v, hqualifies⟩) hbest hp

theorem matchQuery_eq (hu : checkUser user = .ok ()) (hquery : checkQuery query = .ok query)
    (s : PatternStore) (w : World) :
    ∃ w', s.matchQuery user query w =
      ((s.apply w.now user query (s.queryEmbedding user query w)).1,
        (s.apply w.now user query (s.queryEmbedding user query w)).2, w') := by
  obtain ⟨w', -, h⟩ := lookUp_inv user query s w
  refine ⟨w', ?_⟩
  rw [← h]
  simp only [matchQuery, hu, hquery, bind, Except.bind]

/-- A match of an accepted query returns the pattern that applies, with its use counted, or none where
nothing qualifies, exactly if every trigger of the user's can be scored, with a boost to its score,
and there is a cadence if anything qualifies. -/
theorem matchQuery_chosen_iff (hn : (s.patterns.map address).Nodup) (hu : checkUser user = .ok ())
    (hquery : checkQuery query = .ok query)
    (hnumeric : ∀ p ∈ s.ofUser user, p.Numeric query (s.queryEmbedding user query w)) :
    Chosen w.now user query (s.queryEmbedding user query w) s (s.matchQuery user query w).1
        (s.matchQuery user query w).2.1 ↔
      (∀ p ∈ s.ofUser user, p.Scorable query (s.queryEmbedding user query w)) ∧
        ((∃ p ∈ s.ofUser user, ∃ t v, p.Qualifies query (s.queryEmbedding user query w) t v) →
          s.consolidationEvery ≠ 0) := by
  obtain ⟨w', hmatch⟩ := matchQuery_eq hu hquery s w
  rw [hmatch]
  exact apply_chosen_iff hn hnumeric

/-- A pattern of one trigger, used three times. -/
def hint (id : String) (kind : TriggerKind) (text : String) : Pattern :=
  ⟨id, "u", id, "d", [⟨kind, text, none⟩], "t", 0.5, 3, 0, 0⟩

theorem boost_hint (id : String) (kind : TriggerKind) (text : String) :
    (hint id kind text).boost = .ok (least (Float.ofInt 3 * 0.01) 0.15) := by
  have hfinite : (Float.ofInt 3).isInf = false := by decide +kernel
  unfold boost hint
  simp only [hfinite]
  rfl

/-- Scores that are zero or that of a keyword leave numbers only. -/
theorem numeric_hint {id text : String} {kind : TriggerKind}
    (hscore : ∀ x, Trigger.score query embedding ⟨kind, text, none⟩ = .ok x →
      x = keywordHit ∨ x = 0) : (hint id kind text).Numeric query embedding := by
  constructor
  · show Float.isNaN 0.5 = false
    decide
  · intro t ht x hx
    obtain rfl := List.mem_singleton.1 ht
    rcases hscore x hx with rfl | rfl <;> decide

theorem numeric_hint_keyword (id text : String) :
    (hint id .keyword text).Numeric query embedding := by
  refine numeric_hint fun x h => ?_
  cases h
  unfold Trigger.textScore
  split
  · exact .inl rfl
  · exact .inr rfl

/-- Two patterns that tie. -/
def tied : PatternStore where
  patterns := [hint "a" .keyword "hello", hint "b" .keyword "hello"]

theorem matchQuery_tied :
    (tied.patterns.map address).Nodup ∧ checkUser "u" = .ok () ∧
      checkQuery "hello" = .ok "hello" ∧ (∀ p ∈ tied.ofUser "u", p.Numeric "hello" none) ∧
      Chosen 0 "u" "hello" none tied (tied.matchQuery "u" "hello" {}).1
        (tied.matchQuery "u" "hello" {}).2.1 := by
  have hn : (tied.patterns.map address).Nodup := by decide
  have hu : checkUser "u" = .ok () := by decide +kernel
  have hquery : checkQuery "hello" = .ok "hello" := by decide +kernel
  have hof : tied.ofUser "u" = [hint "a" .keyword "hello", hint "b" .keyword "hello"] := rfl
  have hnumeric : ∀ p ∈ tied.ofUser "u", p.Numeric "hello" none := by
    simp only [hof, List.forall_mem_cons]
    exact ⟨numeric_hint_keyword "a" "hello", numeric_hint_keyword "b" "hello", by simp⟩
  have hscorable : ∀ p ∈ tied.ofUser "u", p.Scorable "hello" none := by
    intro p hp
    simp only [hof, List.mem_cons, List.not_mem_nil, or_false] at hp
    rcases hp with rfl | rfl
    all_goals
      refine ⟨⟨_, boost_hint ..⟩, fun t ht => ?_⟩
      obtain rfl := List.mem_singleton.1 ht
      exact ⟨_, rfl⟩
  exact ⟨hn, hu, hquery, hnumeric,
    (matchQuery_chosen_iff hn hu hquery hnumeric).2 ⟨hscorable, fun _ => by decide⟩⟩

/-- A pattern with an expression that has too large a number in it, before one that applies. -/
def unreadable : PatternStore where
  patterns := [hint "a" .regex "a\x7b4294967296\x7d", hint "b" .keyword "hello"]

/-- Neither is the pattern that applies returned, nor is none. -/
theorem not_chosen_unreadable :
    (unreadable.patterns.map address).Nodup ∧ checkUser "u" = .ok () ∧
      checkQuery "hello" = .ok "hello" ∧ (∀ p ∈ unreadable.ofUser "u", p.Numeric "hello" none) ∧
      ¬ Chosen 0 "u" "hello" none unreadable (unreadable.matchQuery "u" "hello" {}).1
        (unreadable.matchQuery "u" "hello" {}).2.1 := by
  have hu : checkUser "u" = .ok () := by decide +kernel
  have hquery : checkQuery "hello" = .ok "hello" := by decide +kernel
  have hof : unreadable.ofUser "u" =
      [hint "a" .regex "a\x7b4294967296\x7d", hint "b" .keyword "hello"] := rfl
  have hfault : Trigger.score "hello" none ⟨.regex, "a\x7b4294967296\x7d", none⟩ =
      .error .tooLarge := by rfl
  refine ⟨by decide, hu, hquery, ?_, ?_⟩
  · simp only [hof, List.forall_mem_cons]
    refine ⟨numeric_hint fun x hx => ?_, numeric_hint_keyword "b" "hello", by simp⟩
    rw [hfault] at hx
    cases hx
  · intro h
    obtain ⟨w', hmatch⟩ := matchQuery_eq hu hquery unreadable {}
    obtain ⟨found, hout⟩ := h.outcome
    rw [hmatch] at hout
    have hscorable := scorable_of_apply hout (hint "a" .regex "a\x7b4294967296\x7d") (by simp [hof])
    obtain ⟨x, hx⟩ := hscorable.scores _ List.mem_cons_self
    rw [show unreadable.queryEmbedding "u" "hello" {} = none from rfl, hfault] at hx
    cases hx

end TieredMemory.PatternStore
