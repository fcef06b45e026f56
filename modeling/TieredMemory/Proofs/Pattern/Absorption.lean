import TieredMemory.Proofs.Pattern.Threshold

/-!
# Merging several patterns into one

Patterns are merged into another one in any order: the uses add up, the threshold relaxes once for
every use, the latest use is the latest of those that were counted, and the keys of the triggers are
united. None of this depends on the order (`absorb_perm`), although the triggers themselves stand in
the order in which they came. A trigger is taken over only if its key is not there yet
(`extends_absorb`).
-/

namespace TieredMemory.Pattern

variable {policy : ReinforcementPolicy} {target : Pattern} {ps qs : List Pattern}

/-- A pattern with others merged into it, one after another. -/
def absorb (policy : ReinforcementPolicy) (target : Pattern) (sources : List Pattern) : Pattern :=
  sources.foldl (merge policy) target

@[simp] theorem absorb_nil : absorb policy target [] = target := rfl

@[simp] theorem absorb_cons (p : Pattern) :
    absorb policy target (p :: ps) = absorb policy (target.merge policy p) ps := rfl

/-! ### Uses -/

/-- How many uses the patterns bring with them. -/
def replayed (ps : List Pattern) : Nat := (ps.map fun p => p.usage.toNat).sum

@[simp] theorem replayed_cons (p : Pattern) : replayed (p :: ps) = p.usage.toNat + replayed ps := by
  simp [replayed]

theorem absorb_eq_reinforce (policy : ReinforcementPolicy) (target : Pattern) (ps : List Pattern) :
    absorb policy target ps = (ps.map Reinforcement.takeOver).foldl (reinforce policy) target := by
  rw [List.foldl_map]
  rfl

theorem absorb_usage (ps : List Pattern) :
    (absorb policy target ps).usage = target.usage + replayed ps := by
  induction ps generalizing target with
  | nil => exact (Int.add_zero _).symm
  | cons p ps ih =>
    have hmerge : (target.merge policy p).usage = target.usage + p.usage.toNat :=
      recordUsages_usage ..
    rw [absorb_cons, ih, hmerge, replayed_cons]
    omega

/-- Only the number of uses counts for the threshold. -/
theorem absorb_threshold (ps : List Pattern) :
    (absorb policy target ps).threshold =
      relaxedBy policy (replayed ps) target.usage target.threshold := by
  rw [absorb_eq_reinforce, reinforced_threshold, List.map_map]
  rfl

theorem recordUsages_lastUsed (time : Time) (n : Nat) (p : Pattern) :
    (recordUsages policy time n p).lastUsed = if n = 0 then p.lastUsed else time := by
  induction n generalizing p with
  | zero => rfl
  | succ n ih =>
    rw [recordUsages, ih]
    split <;> rfl

/-- The time of the latest use after a pattern has been merged into one last used at the given time;
one that has not been used brings none with it. -/
def latestUse (time : Time) (source : Pattern) : Time :=
  if 0 < source.usage then max time source.lastUsed else time

theorem merge_lastUsed (target source : Pattern) :
    (target.merge policy source).lastUsed = latestUse target.lastUsed source := by
  rw [merge, recordUsages_lastUsed, latestUse]
  by_cases hused : 0 < source.usage
  · rw [if_neg (by omega), if_pos hused]
  · rw [if_pos (by omega), if_neg hused]

instance : RightCommutative latestUse where
  right_comm time p q := by
    unfold latestUse
    split
    · split
      · exact max_right_comm ..
      · rfl
    · rfl

theorem absorb_lastUsed (ps : List Pattern) :
    (absorb policy target ps).lastUsed = ps.foldl latestUse target.lastUsed := by
  induction ps generalizing target with
  | nil => rfl
  | cons p ps ih => rw [absorb_cons, ih, merge_lastUsed, List.foldl_cons]

/-! ### Triggers -/

theorem mem_triggerKeys_absorb {k : String} :
    k ∈ (absorb policy target ps).triggerKeys ↔ k ∈ target.triggerKeys ∨ k ∈ keys ps := by
  induction ps generalizing target with
  | nil => simp [keys]
  | cons p ps ih => rw [absorb_cons, ih, mem_triggerKeys_merge, mem_keys_cons, or_assoc]

/-- The list is another one with some of the given triggers behind it, one for each key that is not
there yet. -/
def Extends (own given all : List Trigger) : Prop :=
  ∃ added, all = own ++ added ∧ added.Sublist given ∧ (added.map Trigger.key).Nodup ∧
    ∀ t ∈ added, t.key ∉ own.map Trigger.key

theorem Extends.trans {own given given' mid all : List Trigger} (h : Extends own given mid)
    (h' : Extends mid given' all) : Extends own (given ++ given') all := by
  obtain ⟨added, rfl, hgiven, hnodup, hnew⟩ := h
  obtain ⟨added', rfl, hgiven', hnodup', hnew'⟩ := h'
  rw [List.map_append] at hnew'
  refine ⟨added ++ added', List.append_assoc .., hgiven.append hgiven', ?_, ?_⟩
  · rw [List.map_append, List.nodup_append]
    refine ⟨hnodup, hnodup', fun k hk k' hk' he => ?_⟩
    obtain ⟨t, ht, rfl⟩ := List.mem_map.1 hk'
    exact hnew' t ht (List.mem_append_right _ (he ▸ hk))
  · refine List.forall_mem_append.2 ⟨hnew, fun t ht hown => ?_⟩
    exact hnew' t ht (List.mem_append_left _ hown)

theorem extends_withTriggers (own ts : List Trigger) : Extends own ts (withTriggers own ts) := by
  induction ts generalizing own with
  | nil => exact ⟨[], (List.append_nil own).symm, .slnil, .nil, by simp⟩
  | cons t r ih =>
    rw [withTriggers]
    split
    · obtain ⟨added, hall, hgiven, hnodup, hnew⟩ := ih own
      exact ⟨added, hall, hgiven.cons t, hnodup, hnew⟩
    · next hown =>
      have hone : Extends own [t] (own ++ [t]) := by
        refine ⟨[t], rfl, .refl _, List.nodup_singleton _, ?_⟩
        simpa [List.forall_mem_cons] using hown
      exact hone.trans (ih (own ++ [t]))

theorem extends_absorb (policy : ReinforcementPolicy) (target : Pattern) (ps : List Pattern) :
    Extends target.triggers (ps.flatMap triggers) (absorb policy target ps).triggers := by
  induction ps generalizing target with
  | nil => exact extends_withTriggers target.triggers []
  | cons p ps ih =>
    have hmerge : (target.merge policy p).triggers = withTriggers target.triggers p.triggers :=
      recordUsages_triggers ..
    exact Extends.trans (hmerge ▸ extends_withTriggers target.triggers p.triggers)
      (ih (target.merge policy p))

/-! ### The order of merges -/

/-- Two patterns with the same uses, the same threshold and triggers with the same keys. -/
structure EquallyReinforced (p q : Pattern) : Prop where
  usage : p.usage = q.usage
  threshold : p.threshold = q.threshold
  lastUsed : p.lastUsed = q.lastUsed
  keys : ∀ k, k ∈ p.triggerKeys ↔ k ∈ q.triggerKeys

/-- The order in which patterns are merged into another one makes no difference to it. -/
theorem absorb_perm (policy : ReinforcementPolicy) (target : Pattern) (h : ps.Perm qs) :
    EquallyReinforced (absorb policy target ps) (absorb policy target qs) := by
  have hreplayed : replayed ps = replayed qs := (h.map _).sum_nat
  refine ⟨?_, ?_, ?_, fun k => ?_⟩
  · rw [absorb_usage, absorb_usage, hreplayed]
  · rw [absorb_threshold, absorb_threshold, hreplayed]
  · rw [absorb_lastUsed, absorb_lastUsed, h.foldl_eq]
  · rw [mem_triggerKeys_absorb, mem_triggerKeys_absorb, Perm.mem_keys h]

/-- Of two patterns that are merged into a third one it makes no difference which comes first. The
uses are those of all three, the keys of the triggers are those of all three, and none is added that
was there or added twice. -/
theorem merge_merge (policy : ReinforcementPolicy) (target a b : Pattern) (ha : 0 ≤ a.usage)
    (hb : 0 ≤ b.usage) :
    EquallyReinforced ((target.merge policy a).merge policy b)
        ((target.merge policy b).merge policy a) ∧
      ((target.merge policy a).merge policy b).usage = target.usage + a.usage + b.usage ∧
      (∀ k, k ∈ ((target.merge policy a).merge policy b).triggerKeys ↔
        k ∈ target.triggerKeys ∨ k ∈ a.triggerKeys ∨ k ∈ b.triggerKeys) ∧
      Extends target.triggers (a.triggers ++ b.triggers)
        ((target.merge policy a).merge policy b).triggers := by
  refine ⟨absorb_perm policy target (.swap b a []), ?_, fun k => ?_, ?_⟩
  · rw [merge_usage policy hb, merge_usage policy ha]
  · rw [mem_triggerKeys_merge, mem_triggerKeys_merge, or_assoc]
  · simpa using extends_absorb policy target [a, b]

open PatternStore (greeting)

/-- A greeting that others are merged into. -/
def evening : Pattern := { greeting "b" "evening" "bye" with usage := 9, lastUsed := 4 }

/-- A greeting that has been used since. -/
def morning : Pattern := { greeting "a" "morning" "hello" with usage := 2, lastUsed := 5 }

/-- A greeting that has not been used, with the keyword of the one before. -/
def noon : Pattern := { greeting "c" "noon" "Hello" with lastUsed := 9 }

theorem merge_merge_greetings :
    (0 ≤ morning.usage ∧ 0 ≤ noon.usage) ∧
      EquallyReinforced ((evening.merge {} morning).merge {} noon)
        ((evening.merge {} noon).merge {} morning) ∧
      ((evening.merge {} morning).merge {} noon).usage =
        evening.usage + morning.usage + noon.usage ∧
      (∀ k, k ∈ ((evening.merge {} morning).merge {} noon).triggerKeys ↔
        k ∈ evening.triggerKeys ∨ k ∈ morning.triggerKeys ∨ k ∈ noon.triggerKeys) ∧
      Extends evening.triggers (morning.triggers ++ noon.triggers)
        ((evening.merge {} morning).merge {} noon).triggers :=
  ⟨⟨by decide, by decide⟩, merge_merge {} evening morning noon (by decide) (by decide)⟩

end TieredMemory.Pattern
