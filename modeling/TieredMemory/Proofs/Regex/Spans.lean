import TieredMemory.Regex.Matcher

/-!
# What a match goes through

A match goes through its expression from place to place: characters in sets, places of anchors, rounds
of repetitions, and pieces that groups keep (`Spans`). Whatever the order in which the ways are tried,
one that is found is a way of this kind (`spans_of_matchExpr`, `spans_of_search?`). So a match does
not go back in the text, and keeps what a group has matched until the group is opened again.
-/

namespace TieredMemory.Regex

/-- The expression leads from one place to another. A repetition may go on for any number of rounds
beyond the least, and what must not stand at a place is left open. -/
inductive Spans (text : Array Char) : Expr → Place → Place → Prop
  | set {negated : Bool} {items : List SetItem} {options : Options} {p : Place} {c : Char}
      (hc : text[p.index]? = some c) (h : setHolds negated items options c = true) :
      Spans text (.set negated items options) p { p with index := p.index + 1 }
  | any {options : Options} {p : Place} {c : Char} (hc : text[p.index]? = some c) :
      Spans text (.any options) p { p with index := p.index + 1 }
  | anchor {place : Anchor} {options : Options} {p : Place}
      (h : place.holds text options p.index = true) : Spans text (.anchor place options) p p
  | nil {p : Place} : Spans text (.seq []) p p
  | cons {e : Expr} {r : List Expr} {p q q' : Place} (first : Spans text e p q)
      (rest : Spans text (.seq r) q q') : Spans text (.seq (e :: r)) p q'
  | choice {e : Expr} {branches : List Expr} {p q : Place} (he : e ∈ branches)
      (h : Spans text e p q) : Spans text (.choice branches) p q
  | group {body : Expr} {p q : Place} (h : Spans text body p q) : Spans text (.group none body) p q
  | capture {n : Nat} {body : Expr} {p q : Place} (h : Spans text body p q) :
      Spans text (.group (some n) body) p (q.withGroup n p.index q.index)
  | stop {most : Option Nat} {greed : Greed} {body : Expr} {p : Place} :
      Spans text (.repetition 0 most greed body) p p
  | round {least : Nat} {most : Option Nat} {greed : Greed} {body : Expr} {p q q' : Place}
      (first : Spans text body p q) (rest : Spans text (.repetition (least - 1) most greed body) q q') :
      Spans text (.repetition least most greed body) p q'
  | look {behind : Option Nat} {body : Expr} {p q : Place} {i : Nat}
      (h : Spans text body { p with index := i } q) :
      Spans text (.look behind false body) p { q with index := p.index }
  | lookNot {behind : Option Nat} {body : Expr} {p : Place} : Spans text (.look behind true body) p p
  | atomic {body : Expr} {p q : Place} (h : Spans text body p q) : Spans text (.atomic body) p q
  | reference {n least first last : Nat} {most : Option Nat} {options : Options} {p : Place}
      (h : p.group? n = some (first, last)) :
      Spans text (.reference n least most options) p { p with index := p.index + (last - first) }
  | yes {n : Nat} {yes no : Expr} {p q : Place} (h : Spans text yes p q) :
      Spans text (.conditional n yes no) p q
  | no {n : Nat} {yes no : Expr} {p q : Place} (h : Spans text no p q) :
      Spans text (.conditional n yes no) p q

variable {text : Array Char} {p q : Place}

/-! ### What is found is such a way -/

/-- With the fuel, what is found goes through the expression, and then reaches the goal. -/
structure Sound (text : Array Char) (fuel : Nat) : Prop where
  expr : ∀ {e : Expr} {goal : Goal} {p q : Place}, matchExpr text fuel e goal p = some q →
    ∃ p', Spans text e p p' ∧ goal p' = some q
  seq : ∀ {parts : List Expr} {goal : Goal} {p q : Place}, matchSeq text fuel parts goal p = some q →
    ∃ p', Spans text (.seq parts) p p' ∧ goal p' = some q
  choice : ∀ {branches : List Expr} {goal : Goal} {p q : Place},
    matchChoice text fuel branches goal p = some q →
      ∃ p', Spans text (.choice branches) p p' ∧ goal p' = some q
  rounds : ∀ {least : Nat} {most : Option Nat} {greed : Greed} {body : Expr} {count : Nat}
    {latest : Option Nat} {goal : Goal} {p q : Place} (greed' : Greed),
    matchRounds text fuel least most greed body count latest goal p = some q →
      ∃ p', Spans text (.repetition (least - count) most greed' body) p p' ∧ goal p' = some q

namespace Sound

variable {fuel : Nat} {goal : Goal}

theorem spans_of_some (h : Sound text fuel) {e : Expr} (hmatch : matchExpr text fuel e some p = some q) :
    Spans text e p q := by
  obtain ⟨p', hspans, hp'⟩ := h.expr hmatch
  cases hp'
  exact hspans

theorem look {body : Expr} {negated : Bool} {behind : Option Nat} {found : Option Place}
    (hmatch : (match found, negated with
      | some q, false => goal { q with index := p.index }
      | none, true => goal p
      | _, _ => none) = some q)
    (hfound : ∀ q, found = some q → ∃ i, Spans text body { p with index := i } q) :
    ∃ p', Spans text (.look behind negated body) p p' ∧ goal p' = some q := by
  cases found with
  | none =>
    cases negated with
    | false => cases hmatch
    | true => exact ⟨p, .lookNot, hmatch⟩
  | some q' =>
    cases negated with
    | false =>
      obtain ⟨i, hspans⟩ := hfound q' rfl
      exact ⟨_, .look hspans, hmatch⟩
    | true => cases hmatch

/-- One level of the recursion, a case for each kind of expression. -/
theorem succ_expr (h : Sound text fuel) {e : Expr}
    (hmatch : matchExpr text (fuel + 1) e goal p = some q) :
    ∃ p', Spans text e p p' ∧ goal p' = some q := by
  cases e with
  | set negated items options =>
    rw [matchExpr] at hmatch
    split at hmatch
    · next c hc =>
      split at hmatch
      · next hholds => exact ⟨_, .set hc hholds, hmatch⟩
      · cases hmatch
    · cases hmatch
  | any options =>
    rw [matchExpr] at hmatch
    split at hmatch
    · next c hc =>
      split at hmatch
      · exact ⟨_, .any hc, hmatch⟩
      · cases hmatch
    · cases hmatch
  | anchor place options =>
    rw [matchExpr] at hmatch
    split at hmatch
    · next hholds => exact ⟨p, .anchor hholds, hmatch⟩
    · cases hmatch
  | seq parts =>
    rw [matchExpr] at hmatch
    exact h.seq hmatch
  | choice branches =>
    rw [matchExpr] at hmatch
    exact h.choice hmatch
  | group number body =>
    cases number with
    | none =>
      rw [matchExpr] at hmatch
      obtain ⟨p', hspans, hp'⟩ := h.expr hmatch
      exact ⟨p', .group hspans, hp'⟩
    | some n =>
      rw [matchExpr] at hmatch
      obtain ⟨p', hspans, hp'⟩ := h.expr hmatch
      exact ⟨_, .capture hspans, hp'⟩
  | repetition least most greed body =>
    cases greed with
    | possessive =>
      simp only [matchExpr] at hmatch
      split at hmatch
      · next found =>
        obtain ⟨p', hspans, hp'⟩ := h.rounds .possessive found
        cases hp'
        exact ⟨_, hspans, hmatch⟩
      · cases hmatch
    | greedy =>
      simp only [matchExpr] at hmatch
      exact h.rounds .greedy hmatch
    | lazy =>
      simp only [matchExpr] at hmatch
      exact h.rounds .lazy hmatch
  | look behind negated body =>
    cases behind with
    | none =>
      simp only [matchExpr] at hmatch
      exact look hmatch fun q hq => ⟨p.index, h.spans_of_some hq⟩
    | some width =>
      simp only [matchExpr] at hmatch
      refine look hmatch fun q hq => ?_
      split at hq
      · cases hq
      · exact ⟨_, h.spans_of_some hq⟩
  | atomic body =>
    rw [matchExpr] at hmatch
    split at hmatch
    · next found => exact ⟨_, .atomic (h.spans_of_some found), hmatch⟩
    · cases hmatch
  | reference n least most options =>
    rw [matchExpr] at hmatch
    split at hmatch
    · next hgroup =>
      split at hmatch
      · exact ⟨_, .reference hgroup, hmatch⟩
      · cases hmatch
    · cases hmatch
  | conditional n yes no =>
    rw [matchExpr] at hmatch
    split at hmatch
    · obtain ⟨p', hspans, hp'⟩ := h.expr hmatch
      exact ⟨p', .yes hspans, hp'⟩
    · obtain ⟨p', hspans, hp'⟩ := h.expr hmatch
      exact ⟨p', .no hspans, hp'⟩

theorem succ_seq (h : Sound text fuel) {parts : List Expr}
    (hmatch : matchSeq text (fuel + 1) parts goal p = some q) :
    ∃ p', Spans text (.seq parts) p p' ∧ goal p' = some q := by
  cases parts with
  | nil =>
    rw [matchSeq] at hmatch
    exact ⟨p, .nil, hmatch⟩
  | cons e r =>
    rw [matchSeq] at hmatch
    obtain ⟨m, hfirst, hm⟩ := h.expr hmatch
    obtain ⟨p', hrest, hp'⟩ := h.seq hm
    exact ⟨p', .cons hfirst hrest, hp'⟩

theorem succ_choice (h : Sound text fuel) {branches : List Expr}
    (hmatch : matchChoice text (fuel + 1) branches goal p = some q) :
    ∃ p', Spans text (.choice branches) p p' ∧ goal p' = some q := by
  cases branches with
  | nil =>
    rw [matchChoice] at hmatch
    cases hmatch
  | cons e r =>
    rw [matchChoice] at hmatch
    split at hmatch
    · next found =>
      cases hmatch
      obtain ⟨p', hspans, hp'⟩ := h.expr found
      exact ⟨p', .choice List.mem_cons_self hspans, hp'⟩
    · obtain ⟨p', hspans, hp'⟩ := h.choice hmatch
      cases hspans with
      | choice he hspans => exact ⟨p', .choice (List.mem_cons_of_mem e he) hspans, hp'⟩

theorem succ_rounds (h : Sound text fuel) {least : Nat} {most : Option Nat} {greed : Greed}
    {body : Expr} {count : Nat} {latest : Option Nat} (greed' : Greed)
    (hmatch : matchRounds text (fuel + 1) least most greed body count latest goal p = some q) :
    ∃ p', Spans text (.repetition (least - count) most greed' body) p p' ∧ goal p' = some q := by
  have hround : ∀ {latest : Option Nat}, matchExpr text fuel body
      (fun q => matchRounds text fuel least most greed body (count + 1) latest goal q) p = some q →
      ∃ p', Spans text (.repetition (least - count) most greed' body) p p' ∧ goal p' = some q := by
    intro latest hmatch
    obtain ⟨m, hfirst, hm⟩ := h.expr hmatch
    obtain ⟨p', hrest, hp'⟩ := h.rounds greed' hm
    rw [← Nat.sub_sub] at hrest
    exact ⟨p', .round hfirst hrest, hp'⟩
  have hstop : ¬ count < least → goal p = some q →
      ∃ p', Spans text (.repetition (least - count) most greed' body) p p' ∧ goal p' = some q := by
    intro hcount hgoal
    rw [Nat.sub_eq_zero_of_le (Nat.not_lt.1 hcount)]
    exact ⟨p, .stop, hgoal⟩
  rw [matchRounds] at hmatch
  dsimp only at hmatch
  split at hmatch
  · exact hround hmatch
  · next hcount =>
    split at hmatch
    · split at hmatch
      · next found =>
        cases hmatch
        exact hstop hcount found
      · split at hmatch
        · exact hround hmatch
        · cases hmatch
    · split at hmatch
      · next found =>
        cases hmatch
        split at found
        · exact hround found
        · cases found
      · exact hstop hcount hmatch

end Sound

/-- Induction on the fuel: each matcher calls those with one less. -/
theorem sound (text : Array Char) (fuel : Nat) : Sound text fuel := by
  induction fuel with
  | zero =>
    constructor
    · intro e goal p q h
      cases h
    · intro parts goal p q h
      cases h
    · intro branches goal p q h
      cases h
    · intro least most greed body count latest goal p q greed' h
      cases h
  | succ fuel ih => exact ⟨ih.succ_expr, ih.succ_seq, ih.succ_choice, ih.succ_rounds⟩

theorem spans_of_searchFrom {e : Expr} {n i j : Nat} (h : searchFrom e text n i = some (j, p)) :
    Spans text e ⟨j, []⟩ p := by
  induction n generalizing i with
  | zero => cases h
  | succ n ih =>
    rw [searchFrom] at h
    split at h
    · next found =>
      cases h
      exact (sound text _).spans_of_some found
    · exact ih h

/-- A match that is found in a text goes through the expression from where it begins. -/
theorem spans_of_search? {e : Expr} {s : String} {i : Nat} (h : search? e s = some (i, p)) :
    Spans s.toList.toArray e ⟨i, []⟩ p := spans_of_searchFrom h

/-! ### What a match does not do -/

/-- A match does not go back. -/
theorem Spans.index_le {e : Expr} (h : Spans text e p q) : p.index ≤ q.index := by
  induction h with
  | set | any => exact Nat.le_succ _
  | anchor | nil | stop | lookNot => exact Nat.le_refl _
  | cons _ _ ih ih' | round _ _ ih ih' => exact Nat.le_trans ih ih'
  | choice _ _ ih | group _ ih | capture _ ih | atomic _ ih | yes _ ih | no _ ih => exact ih
  | look => exact Nat.le_refl _
  | reference => exact Nat.le_add_right _ _

mutual

/-- A match may open the group. -/
def Expr.opens (n : Nat) : Expr → Bool
  | .set .. | .any _ | .anchor .. | .reference .. => false
  | .seq parts => opensAny n parts
  | .choice branches => opensAny n branches
  | .group number body => number == some n || body.opens n
  | .repetition _ _ _ body | .look _ _ body | .atomic body => body.opens n
  | .conditional _ yes no => yes.opens n || no.opens n

/-- A match of one of the expressions may open the group. -/
def opensAny (n : Nat) : List Expr → Bool
  | [] => false
  | e :: r => e.opens n || opensAny n r

end

theorem opens_of_mem {n : Nat} {e : Expr} {es : List Expr} (he : e ∈ es) (h : opensAny n es = false) :
    e.opens n = false := by
  induction es with
  | nil => cases he
  | cons d r ih =>
    rw [opensAny, Bool.or_eq_false_iff] at h
    rcases List.mem_cons.1 he with rfl | he
    · exact h.1
    · exact ih he h.2

theorem Place.group?_withGroup_self (p : Place) (n first last : Nat) :
    (p.withGroup n first last).group? n = some (first, last) := by
  simp [group?, withGroup]

theorem Place.group?_withGroup_of_ne {n m : Nat} (h : m ≠ n) (p : Place) (first last : Nat) :
    (p.withGroup m first last).group? n = p.group? n := by
  have hm : (m == n) = false := by simp [h]
  simp only [group?, withGroup, List.find?_cons, hm, List.find?_filter]
  congr 2
  funext g
  by_cases hg : g.1 = n
  · subst hg
    simp [Ne.symm h]
  · simp [hg]

/-- A group that is not opened keeps what it has matched. -/
theorem Spans.group?_eq {e : Expr} {n : Nat} (h : Spans text e p q) (hn : e.opens n = false) :
    q.group? n = p.group? n := by
  induction h with
  | set | any | anchor | nil | stop | lookNot | reference => rfl
  | cons _ _ ih ih' =>
    simp only [Expr.opens, opensAny, Bool.or_eq_false_iff] at hn ih'
    exact (ih' hn.2).trans (ih hn.1)
  | round _ _ ih ih' => exact (ih' hn).trans (ih hn)
  | choice he _ ih => exact ih (opens_of_mem he hn)
  | group _ ih =>
    simp only [Expr.opens, Bool.or_eq_false_iff] at hn
    exact ih hn.2
  | @capture m body p q _ ih =>
    simp only [Expr.opens, Bool.or_eq_false_iff, beq_eq_false_iff_ne, ne_eq, Option.some.injEq] at hn
    rw [Place.group?_withGroup_of_ne hn.1]
    exact ih hn.2
  | look _ ih => exact ih hn
  | atomic _ ih => exact ih hn
  | yes _ ih =>
    simp only [Expr.opens, Bool.or_eq_false_iff] at hn
    exact ih hn.1
  | no _ ih =>
    simp only [Expr.opens, Bool.or_eq_false_iff] at hn
    exact ih hn.2

end TieredMemory.Regex
