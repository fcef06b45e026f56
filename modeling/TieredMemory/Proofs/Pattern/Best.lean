import TieredMemory.Proofs.Number.Arithmetic
import TieredMemory.Proofs.Outcome
import TieredMemory.Proofs.Pattern.Search
import TieredMemory.Proofs.Selection

/-!
# The pattern that applies

A trigger that scores above the threshold of its pattern *qualifies* with its boosted score. As long
as the search can compute with all of them, it keeps the first of the greatest values, while it goes
through the patterns from the most used ones down. So it ends with a pattern that has a greatest
value, and of several ones with the most used and of those with the first in the store
(`applies_of_best?`); it ends with none if no trigger qualifies. Scores and thresholds have to be
numbers for this. A boost always is one, and a finite one, so the values are numbers then
(`Numeric.value`).
-/

namespace TieredMemory.Pattern

/-! ### What is looked for -/

/-- The trigger of the pattern scores above its threshold, and boosted it comes to the value. -/
structure Qualifies (query : String) (embedding : Option Embedding) (p : Pattern) (t : Trigger)
    (v : Float) : Prop where
  mem : t ∈ p.triggers
  value : ∃ x b, t.score query embedding = .ok x ∧ p.boost = .ok b ∧ p.threshold < x ∧ v = x + b

/-- Of two patterns with one value the first one is to be taken: it has more uses, or as many and
stands before the other one. -/
def Foremost (ps : List Pattern) (p q : Pattern) : Prop :=
  q.usage < p.usage ∨ q.usage = p.usage ∧ [p, q].Sublist ps

/-- The pattern has a greatest value, and of all those that have it is the foremost. -/
structure Applies (query : String) (embedding : Option Embedding) (ps : List Pattern) (p : Pattern) :
    Prop where
  mem : p ∈ ps
  greatest : ∃ t v, p.Qualifies query embedding t v ∧
    ∀ q ∈ ps, ∀ u w, q.Qualifies query embedding u w →
      w ≤ v ∧ (v ≤ w → q = p ∨ Foremost ps p q)

/-- The search can compute with the pattern: there is a boost, and every trigger has a score. -/
structure Scorable (query : String) (embedding : Option Embedding) (p : Pattern) : Prop where
  boost : ∃ b, p.boost = .ok b
  scores : ∀ t ∈ p.triggers, ∃ x, t.score query embedding = .ok x

/-- The threshold of the pattern and the scores of its triggers are numbers. -/
structure Numeric (query : String) (embedding : Option Embedding) (p : Pattern) : Prop where
  threshold : p.threshold.isNaN = false
  scores : ∀ t ∈ p.triggers, ∀ x, t.score query embedding = .ok x → x.isNaN = false

variable {query : String} {embedding : Option Embedding} {ps : List Pattern} {p q : Pattern}

/-! ### Values -/

theorem isFinite_boost {b : Float} (h : p.boost = .ok b) : b.isFinite = true := by
  unfold boost at h
  simp only at h
  split at h
  · cases h
  · next hinf =>
    cases h
    have huses : (Float.ofInt p.usage).isFinite = true :=
      Number.isFinite_of_isNaN_of_isInf (Number.isNaN_ofInt p.usage) (Bool.eq_false_of_not_eq_true hinf)
    unfold least
    split
    · decide
    · exact Number.isFinite_mul_hundredth huses

/-- A score that is a number comes to a number with the boost. -/
theorem Numeric.value (h : p.Numeric query embedding) {t : Trigger} {v : Float}
    (hqualifies : p.Qualifies query embedding t v) : v.isNaN = false := by
  obtain ⟨hmem, x, b, hx, hb, -, rfl⟩ := hqualifies
  exact Number.isNaN_add (h.scores t hmem x hx) (isFinite_boost hb)

/-! ### Bids -/

/-- The pattern with the value of its trigger, if that qualifies. -/
def bid? (query : String) (embedding : Option Embedding) (p : Pattern) (t : Trigger) : Best :=
  match t.score query embedding, p.boost with
  | .ok x, .ok b => if x ≤ p.threshold then none else some (p, x + b)
  | _, _ => none

/-- The values of a pattern's triggers, in their order. -/
def bids (query : String) (embedding : Option Embedding) (p : Pattern) : List (Pattern × Float) :=
  p.triggers.filterMap (bid? query embedding p)

/-- The bid with the greater value, the earlier one of equals. -/
def better (best : Best) (r : Pattern × Float) : Best :=
  match best with
  | none => some r
  | some top => some (if top.2 < r.2 then r else top)

variable {best : Best}

theorem bid?_eq_some_iff (h : p.Numeric query embedding) {t : Trigger} (ht : t ∈ p.triggers)
    {v : Float} : bid? query embedding p t = some (q, v) ↔
      q = p ∧ p.Qualifies query embedding t v := by
  constructor
  · intro hbid
    unfold bid? at hbid
    split at hbid
    · next x b hx hb =>
      split at hbid
      · cases hbid
      · next hnot =>
        cases hbid
        have habove : p.threshold < x := by
          rw [← Number.not_lt_iff_le h.threshold (h.scores t ht x hx)] at hnot
          exact Decidable.not_not.1 hnot
        exact ⟨rfl, ht, x, b, hx, hb, habove, rfl⟩
    · cases hbid
  · rintro ⟨rfl, -, x, b, hx, hb, habove, rfl⟩
    have hnot : ¬ x ≤ q.threshold := by
      rw [← Number.not_lt_iff_le h.threshold (h.scores t ht x hx)]
      exact Decidable.not_not.2 habove
    simp only [bid?, hx, hb]
    rw [if_neg hnot]

theorem mem_bids_iff (h : p.Numeric query embedding) {v : Float} :
    (q, v) ∈ bids query embedding p ↔ q = p ∧ ∃ t, p.Qualifies query embedding t v := by
  rw [bids, List.mem_filterMap]
  constructor
  · rintro ⟨t, ht, hbid⟩
    obtain ⟨hq, hqualifies⟩ := (bid?_eq_some_iff h ht).1 hbid
    exact ⟨hq, t, hqualifies⟩
  · rintro ⟨hq, t, hqualifies⟩
    exact ⟨t, hqualifies.mem, (bid?_eq_some_iff h hqualifies.mem).2 ⟨hq, hqualifies⟩⟩

/-! ### The search as a choice among bids -/

/-- A fold none of whose steps fails. -/
theorem foldlM_eq_ok {α β ε : Type} {f : β → α → Except ε β} {g : β → α → β} {xs : List α} {b : β}
    (h : ∀ a ∈ xs, ∀ c, f c a = .ok (g c a)) : xs.foldlM f b = .ok (xs.foldl g b) := by
  induction xs generalizing b with
  | nil => rfl
  | cons a r ih =>
    obtain ⟨ha, hr⟩ := List.forall_mem_cons.1 h
    rw [List.foldlM_cons, ha b]
    exact ih hr

/-- What a fold that does not fail went through. -/
theorem forall_of_foldlM {α β ε : Type} {f : β → α → Except ε β} {xs : List α} {b b' : β}
    (h : xs.foldlM f b = .ok b') : ∀ a ∈ xs, ∃ c c', f c a = .ok c' := by
  induction xs generalizing b with
  | nil => simp
  | cons a r ih =>
    rw [List.foldlM_cons] at h
    obtain ⟨c, hc, h⟩ := bind_eq_ok h
    exact List.forall_mem_cons.2 ⟨⟨b, c, hc⟩, ih h⟩

theorem consider_eq {b : Float} (hb : p.boost = .ok b) {t : Trigger} {x : Float}
    (hx : t.score query embedding = .ok x) (best : Best) :
    consider query embedding p b best t =
      .ok ((bid? query embedding p t).elim best (better best)) := by
  simp only [consider, bid?, hx, hb, bind, Except.bind, pure, Except.pure]
  by_cases hnot : x ≤ p.threshold
  · simp only [hnot, if_true, Option.elim]
  · cases best with
    | none => simp only [hnot, if_false, better, Option.elim]
    | some top =>
      simp only [hnot, if_false, better, Option.elim]
      split <;> rfl

theorem considerAll_eq (h : p.Scorable query embedding) (best : Best) :
    considerAll query embedding best p = .ok ((bids query embedding p).foldl better best) := by
  obtain ⟨b, hb⟩ := h.boost
  rw [considerAll, hb, bids, List.foldl_filterMap]
  refine foldlM_eq_ok fun t ht best => ?_
  obtain ⟨x, hx⟩ := h.scores t ht
  rw [consider_eq hb hx]
  cases bid? query embedding p t <;> rfl

theorem scorable_of_considerAll {best' : Best}
    (h : considerAll query embedding best p = .ok best') : p.Scorable query embedding := by
  obtain ⟨b, hb, h⟩ := bind_eq_ok h
  refine ⟨⟨b, hb⟩, fun t ht => ?_⟩
  obtain ⟨c, c', hc⟩ := forall_of_foldlM h t ht
  obtain ⟨x, hx, -⟩ := bind_eq_ok hc
  exact ⟨x, hx⟩

/-- The patterns in the order in which the search comes to them. -/
def byUse (ps : List Pattern) : List Pattern :=
  descending (fun a b => decide (a.usage < b.usage)) ps

theorem mem_byUse : p ∈ byUse ps ↔ p ∈ ps := (descending_perm _ ps).mem_iff

/-- The search has an outcome if it can compute with every pattern, and only then. -/
theorem best?_eq_ok_iff {found : Option Pattern} :
    best? query embedding ps = .ok found ↔
      (∀ p ∈ ps, p.Scorable query embedding) ∧
        found = (((byUse ps).flatMap (bids query embedding)).foldl better none).map Prod.fst := by
  have hfold : best? query embedding ps =
      ((byUse ps).foldlM (considerAll query embedding) none).map (Option.map Prod.fst) := rfl
  rw [hfold]
  constructor
  · intro h
    obtain ⟨best, hbest, rfl⟩ := map_eq_ok h
    have hscorable : ∀ p ∈ byUse ps, p.Scorable query embedding := by
      intro p hp
      obtain ⟨c, c', hc⟩ := forall_of_foldlM hbest p hp
      exact scorable_of_considerAll hc
    rw [foldlM_eq_ok fun p hp => considerAll_eq (hscorable p hp)] at hbest
    cases hbest
    exact ⟨fun p hp => hscorable p (mem_byUse.2 hp), by rw [List.foldl_flatMap]⟩
  · rintro ⟨hscorable, rfl⟩
    rw [foldlM_eq_ok fun p hp => considerAll_eq (hscorable p (mem_byUse.1 hp)), List.foldl_flatMap]
    rfl

/-! ### The first of the greatest bids -/

theorem foldl_better_some (r : Pattern × Float) (rs : List (Pattern × Float)) :
    rs.foldl better (some r) = some (leastFrom (fun a b => decide (b.2 < a.2)) r rs) := by
  induction rs generalizing r with
  | nil => rfl
  | cons a rs ih =>
    rw [List.foldl_cons, leastFrom]
    by_cases hlt : r.2 < a.2
    · simp only [better, hlt, if_true, decide_true]
      exact ih a
    · simp only [better, hlt, if_false, decide_false]
      exact ih r

/-- What is left after all bids: none of none, and otherwise the first of the greatest. -/
theorem foldl_better_first {rs : List (Pattern × Float)} (hrs : ∀ r ∈ rs, r.2.isNaN = false) :
    rs = [] ∧ rs.foldl better none = none ∨
      ∃ l r l', rs = l ++ r :: l' ∧ rs.foldl better none = some r ∧
        (∀ a ∈ l, a.2 < r.2) ∧ ∀ a ∈ l', a.2 ≤ r.2 := by
  cases rs with
  | nil => exact .inl ⟨rfl, rfl⟩
  | cons r rs =>
    -- the rank the other way round, since the least member is found
    let key : Pattern × Float → Number.Rankᵒᵈ := fun a => OrderDual.toDual (Number.rank a.2)
    have hkey : leastFrom (fun a b => decide (b.2 < a.2)) r rs =
        leastFrom (fun a b => decide (key a < key b)) r rs := by
      refine leastFrom_congr fun a ha b hb => decide_eq_decide.2 ?_
      rw [Number.lt_iff_rank_lt (hrs b hb) (hrs a ha)]
      exact OrderDual.toDual_lt_toDual.symm
    obtain ⟨l, l', hsplit, hl, hl'⟩ := leastFrom_first key r rs
    rw [← hkey] at hsplit hl hl'
    have hnan : (leastFrom (fun a b => decide (b.2 < a.2)) r rs).2.isNaN = false :=
      hrs _ (by rw [hsplit]; simp)
    refine .inr ⟨l, _, l', hsplit, foldl_better_some r rs, fun a ha => ?_, fun a ha => ?_⟩
    · have ha' := hrs a (by rw [hsplit]; simp [ha])
      exact (Number.lt_iff_rank_lt ha' hnan).2 (hl a ha)
    · have ha' := hrs a (by rw [hsplit]; simp [ha])
      exact (Number.le_iff_rank_le ha' hnan).2 (hl' a ha)

/-! ### The outcome of the search -/

theorem fst_of_mem_bids {r : Pattern × Float} (h : r ∈ bids query embedding p) : r.1 = p := by
  obtain ⟨t, -, hbid⟩ := List.mem_filterMap.1 h
  unfold bid? at hbid
  split at hbid
  · split at hbid <;> cases hbid
    rfl
  · cases hbid

/-- A bid is followed by others on its pattern, and by those on patterns that it is foremost to. -/
theorem pairwise_bids (query : String) (embedding : Option Embedding) (ps : List Pattern) :
    ((byUse ps).flatMap (bids query embedding)).Pairwise
      fun a b => b.1 = a.1 ∨ Foremost ps a.1 b.1 := by
  rw [List.pairwise_flatMap]
  constructor
  · intro p _
    refine List.pairwise_of_forall_mem_list fun a ha b hb => .inl ?_
    rw [fst_of_mem_bids ha, fst_of_mem_bids hb]
  · refine (pairwise_descending_or Pattern.usage ps).imp fun h a ha b hb => .inr ?_
    rw [fst_of_mem_bids ha, fst_of_mem_bids hb]
    exact h

theorem mem_bids_byUse_iff (h : ∀ p ∈ ps, p.Numeric query embedding) {v : Float} :
    (q, v) ∈ (byUse ps).flatMap (bids query embedding) ↔
      q ∈ ps ∧ ∃ t, q.Qualifies query embedding t v := by
  rw [List.mem_flatMap]
  constructor
  · rintro ⟨p, hp, hbid⟩
    have hp := mem_byUse.1 hp
    obtain ⟨rfl, hqualifies⟩ := (mem_bids_iff (h p hp)).1 hbid
    exact ⟨hp, hqualifies⟩
  · rintro ⟨hq, hqualifies⟩
    exact ⟨q, mem_byUse.2 hq, (mem_bids_iff (h q hq)).2 ⟨rfl, hqualifies⟩⟩

/-- The search finds nothing where nothing qualifies, and otherwise a pattern that applies. -/
theorem applies_of_best? (h : ∀ p ∈ ps, p.Numeric query embedding) {found : Option Pattern}
    (hfound : best? query embedding ps = .ok found) :
    found = none ∧ (∀ p ∈ ps, ∀ t v, ¬ p.Qualifies query embedding t v) ∨
      ∃ p, found = some p ∧ Applies query embedding ps p := by
  obtain ⟨-, rfl⟩ := best?_eq_ok_iff.1 hfound
  have hmem : ∀ q v, (q, v) ∈ (byUse ps).flatMap (bids query embedding) ↔
      q ∈ ps ∧ ∃ t, q.Qualifies query embedding t v := fun q v => mem_bids_byUse_iff h
  have hnumber : ∀ r ∈ (byUse ps).flatMap (bids query embedding), r.2.isNaN = false := by
    rintro ⟨q, v⟩ hr
    obtain ⟨hq, t, hqualifies⟩ := (hmem q v).1 hr
    exact (h q hq).value hqualifies
  have hpairwise := pairwise_bids query embedding ps
  generalize (byUse ps).flatMap (bids query embedding) = rs at hmem hnumber hpairwise ⊢
  rcases foldl_better_first hnumber with ⟨rfl, hnone⟩ | ⟨l, ⟨p, v⟩, l', rfl, hsome, hl, hl'⟩
  · refine .inl ⟨by rw [hnone]; rfl, fun p hp t v hqualifies => ?_⟩
    exact absurd ((hmem p v).2 ⟨hp, t, hqualifies⟩) List.not_mem_nil
  · obtain ⟨hp, t, hqualifies⟩ := (hmem p v).1 (by simp)
    have hv := hnumber (p, v) (by simp)
    refine .inr ⟨p, by rw [hsome]; rfl, hp, t, v, hqualifies, fun q hq u w hother => ?_⟩
    have hr := (hmem q w).2 ⟨hq, u, hother⟩
    have hw := hnumber (q, w) hr
    rcases List.mem_append.1 hr with hbefore | hr
    · have hlt := hl (q, w) hbefore
      exact ⟨Number.le_of_lt hw hv hlt, fun hle => absurd hlt ((Number.not_lt_iff_le hw hv).2 hle)⟩
    · rcases List.mem_cons.1 hr with heq | hafter
      · cases heq
        exact ⟨Number.le_refl hv, fun _ => .inl rfl⟩
      · refine ⟨hl' (q, w) hafter, fun _ => ?_⟩
        have htail := (List.pairwise_append.1 hpairwise).2.1
        exact (List.pairwise_cons.1 htail).1 (q, w) hafter

end TieredMemory.Pattern
