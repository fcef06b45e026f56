import Mathlib
import TieredMemory.Proofs.Number.Difference
import TieredMemory.Proofs.Pattern.Merging
import TieredMemory.Proofs.Settings

/-!
# How a threshold relaxes

A pattern lives through uses and merges, and a merge replays the uses of the other pattern. A
threshold that is not below the floor never falls below it. Whether a threshold only ever falls
depends on how the ceiling and the floor are set, since a use is kept from relaxing it by the
ceiling and is brought back to the floor: a threshold between a lower ceiling and the floor rises to
the floor, and every other one never rises (`threshold_reinforced`). Settings check each of the
numbers by itself and do not rule this out.
-/

namespace TieredMemory

/-- The numbers of a policy are between zero and one. -/
structure ReinforcementPolicy.InUnit (policy : ReinforcementPolicy) : Prop where
  step : Number.InUnit policy.step
  ceiling : Number.InUnit policy.ceiling
  floor : Number.InUnit policy.floor

/-! ### Settings -/

namespace Settings

theorem inUnit_of_isUnit {x : Float} (h : isUnit x = true) (hx : x.isNaN = false) :
    Number.InUnit x := by
  simp only [isUnit, Bool.not_eq_true', Bool.or_eq_false_iff, decide_eq_false_iff_not] at h
  exact ⟨(Number.not_lt_iff_le hx rfl).1 h.1, (Number.not_lt_iff_le rfl hx).1 h.2⟩

/-- The policy of settings that were accepted. -/
theorem policy_of_ofValues {v : Values} {s : Settings} (h : ofValues v = .ok s) :
    0 ≤ s.policy.decayAfterUses ∧ isUnit s.policy.step = true ∧ isUnit s.policy.ceiling = true ∧
      isUnit s.policy.floor = true := by
  obtain ⟨unknown, rfl⟩ := ofValues_eq_ok h
  refine ⟨?_, ?_, ?_, ?_⟩
  · exact takeWhole_holds (by decide) v _ _
  · exact takeNumber_holds (by decide +kernel) v _ _
  · exact takeNumber_holds (by decide +kernel) v _ _
  · exact takeNumber_holds (by decide +kernel) v _ _

theorem inUnit_policy {v : Values} {s : Settings} (h : ofValues v = .ok s)
    (hstep : s.policy.step.isNaN = false) (hceiling : s.policy.ceiling.isNaN = false)
    (hfloor : s.policy.floor.isNaN = false) : s.policy.InUnit := by
  obtain ⟨-, hstep', hceiling', hfloor'⟩ := policy_of_ofValues h
  exact ⟨inUnit_of_isUnit hstep' hstep, inUnit_of_isUnit hceiling' hceiling,
    inUnit_of_isUnit hfloor' hfloor⟩

end Settings

/-! ### One use -/

namespace Pattern

section

variable {policy : ReinforcementPolicy} {t : Float} {n : Int}

/-- The ceiling lets the threshold be relaxed, but the floor is above it. -/
def IsStuck (policy : ReinforcementPolicy) (t : Float) : Prop :=
  policy.ceiling < t ∧ t < policy.floor

instance (policy : ReinforcementPolicy) (t : Float) : Decidable (IsStuck policy t) :=
  inferInstanceAs (Decidable (policy.ceiling < t ∧ t < policy.floor))

theorem relaxed_eq_or (policy : ReinforcementPolicy) (n : Int) (t : Float) :
    relaxed policy n t = t ∨
      policy.ceiling < t ∧ relaxed policy n t = greatest policy.floor (t - policy.step) := by
  unfold relaxed
  split
  · exact .inr ⟨‹_ ∧ _›.2, rfl⟩
  · exact .inl rfl

variable (hpolicy : policy.InUnit) (ht : Number.InUnit t)

include hpolicy ht

theorem inUnit_relaxed : Number.InUnit (relaxed policy n t) := by
  rcases relaxed_eq_or policy n t with h | ⟨-, h⟩ <;> rw [h]
  · exact ht
  · have hsub := ht.sub_le hpolicy.step
    have hfloor := Number.le_greatest_left hpolicy.floor.isNaN (Number.isNaN_eq_false_of_le hsub).1
    exact ⟨Number.le_trans hpolicy.floor.1 hfloor,
      Number.greatest_le hpolicy.floor.2 (Number.le_trans hsub ht.2)⟩

/-- A threshold that is relaxed does not come below the floor. -/
theorem relaxed_eq_or_floor_le : relaxed policy n t = t ∨ policy.floor ≤ relaxed policy n t := by
  rcases relaxed_eq_or policy n t with h | ⟨-, h⟩
  · exact .inl h
  · have hsub := ht.sub_le hpolicy.step
    rw [h]
    exact .inr (Number.le_greatest_left hpolicy.floor.isNaN (Number.isNaN_eq_false_of_le hsub).1)

theorem floor_le_relaxed (hfloor : policy.floor ≤ t) : policy.floor ≤ relaxed policy n t := by
  rcases relaxed_eq_or_floor_le hpolicy ht with h | h
  · exact h.symm ▸ hfloor
  · exact h

theorem relaxed_le (hstuck : ¬ IsStuck policy t) : relaxed policy n t ≤ t := by
  rcases relaxed_eq_or policy n t with h | ⟨hceiling, h⟩ <;> rw [h]
  · exact Number.le_refl ht.isNaN
  · have hfloor : policy.floor ≤ t :=
      (Number.not_lt_iff_le ht.isNaN hpolicy.floor.isNaN).1 fun hlt => hstuck ⟨hceiling, hlt⟩
    exact Number.greatest_le hfloor (ht.sub_le hpolicy.step)

theorem not_isStuck_relaxed (hstuck : ¬ IsStuck policy t) :
    ¬ IsStuck policy (relaxed policy n t) := by
  rcases relaxed_eq_or_floor_le hpolicy ht with h | h
  · rwa [h]
  · have hnan := (inUnit_relaxed (n := n) hpolicy ht).isNaN
    exact fun hlt => (Number.not_lt_iff_le hnan hpolicy.floor.isNaN).2 h hlt.2

/-- A use relaxes a stuck threshold to the floor if it comes after the others. -/
theorem relaxed_of_isStuck (hstuck : IsStuck policy t) :
    relaxed policy n t = if policy.decayAfterUses < n then policy.floor else t := by
  unfold relaxed
  by_cases hn : policy.decayAfterUses < n
  · rw [if_pos ⟨hn, hstuck.1⟩, if_pos hn]
    have hle := Number.le_of_lt ht.isNaN hpolicy.floor.isNaN hstuck.2
    exact Number.greatest_eq_left (Number.le_trans (ht.sub_le hpolicy.step) hle)
  · rw [if_neg fun h => hn h.1, if_neg hn]

omit ht in
/-- The floor is not relaxed any more. -/
theorem relaxed_floor : relaxed policy n policy.floor = policy.floor := by
  rcases relaxed_eq_or policy n policy.floor with h | ⟨-, h⟩
  · exact h
  · rw [h]
    exact Number.greatest_eq_left (hpolicy.floor.sub_le hpolicy.step)

end

/-! ### Uses and merges -/

/-- The threshold after `k` uses that follow on `n` others. -/
def relaxedBy (policy : ReinforcementPolicy) : Nat → Int → Float → Float
  | 0, _, t => t
  | k + 1, n, t => relaxedBy policy k (n + 1) (relaxed policy (n + 1) t)

section

variable {policy : ReinforcementPolicy}

/-- What every use preserves. -/
theorem relaxedBy_induction {motive : Float → Prop}
    (step : ∀ n t, motive t → motive (relaxed policy n t)) (k : Nat) (n : Int) {t : Float}
    (ht : motive t) : motive (relaxedBy policy k n t) := by
  induction k generalizing n t with
  | zero => exact ht
  | succ k ih => exact ih (n + 1) (step _ _ ht)

variable (hpolicy : policy.InUnit)

include hpolicy

theorem relaxedBy_le {t : Float} (ht : Number.InUnit t) (hstuck : ¬ IsStuck policy t) (k : Nat)
    (n : Int) : relaxedBy policy k n t ≤ t := by
  refine (relaxedBy_induction (motive := fun u => u ≤ t ∧ Number.InUnit u ∧ ¬ IsStuck policy u)
    ?_ k n ⟨Number.le_refl ht.isNaN, ht, hstuck⟩).1
  rintro n u ⟨hle, hu, hstuck⟩
  exact ⟨Number.le_trans (relaxed_le hpolicy hu hstuck) hle, inUnit_relaxed hpolicy hu,
    not_isStuck_relaxed hpolicy hu hstuck⟩

/-- A stuck threshold stays until a use brings it to the floor, where it stays. -/
theorem relaxedBy_of_isStuck {t : Float} (ht : Number.InUnit t) (hstuck : IsStuck policy t) (k : Nat)
    (n : Int) :
    relaxedBy policy k n t = if 0 < k ∧ policy.decayAfterUses < n + k then policy.floor else t := by
  have hfloor (k : Nat) (n : Int) : relaxedBy policy k n policy.floor = policy.floor :=
    relaxedBy_induction (motive := (· = policy.floor))
      (fun n t ht => ht.symm ▸ relaxed_floor hpolicy) k n rfl
  induction k generalizing n with
  | zero => simp [relaxedBy]
  | succ k ih =>
    rw [relaxedBy, relaxed_of_isStuck hpolicy ht hstuck]
    split
    · rw [hfloor, if_pos (by omega)]
    · rw [ih]
      congr 1
      simp only [eq_iff_iff]
      omega

end

/-- What happens to a pattern: it is used, or it takes over another one. -/
inductive Reinforcement where
  | use (time : Time)
  | takeOver (source : Pattern)

/-- How many uses are counted. -/
def Reinforcement.uses : Reinforcement → Nat
  | use _ => 1
  | takeOver source => source.usage.toNat

/-- The pattern after what happens to it. -/
def reinforce (policy : ReinforcementPolicy) (p : Pattern) : Reinforcement → Pattern
  | .use time => p.recordUsage policy time
  | .takeOver source => p.merge policy source

section

variable (policy : ReinforcementPolicy) (p : Pattern)

theorem recordUsages_threshold (time : Time) (k : Nat) :
    (recordUsages policy time k p).threshold = relaxedBy policy k p.usage p.threshold := by
  induction k generalizing p with
  | zero => rfl
  | succ k ih => exact ih (p.recordUsage policy time)

theorem reinforce_threshold (r : Reinforcement) :
    (p.reinforce policy r).usage = p.usage + r.uses ∧
      (p.reinforce policy r).threshold = relaxedBy policy r.uses p.usage p.threshold := by
  cases r with
  | use time => exact ⟨rfl, rfl⟩
  | takeOver source => exact ⟨recordUsages_usage .., recordUsages_threshold ..⟩

theorem relaxedBy_add (j k : Nat) (n : Int) (t : Float) :
    relaxedBy policy (j + k) n t = relaxedBy policy k (n + j) (relaxedBy policy j n t) := by
  induction j generalizing n t with
  | zero => simp [relaxedBy]
  | succ j ih =>
    rw [Nat.succ_add, relaxedBy, relaxedBy, ih]
    congr 1
    omega

/-- Only the number of uses counts, whether they are the pattern's own or come by merges. -/
theorem reinforced_threshold (rs : List Reinforcement) :
    (rs.foldl (reinforce policy) p).threshold =
      relaxedBy policy (rs.map Reinforcement.uses).sum p.usage p.threshold := by
  induction rs generalizing p with
  | nil => rfl
  | cons r rs ih =>
    obtain ⟨husage, hthreshold⟩ := reinforce_threshold policy p r
    rw [List.foldl_cons, ih, husage, hthreshold, List.map_cons, List.sum_cons, relaxedBy_add]

end

/-- A threshold that is not below the floor never falls below it. One that is stuck rises to the
floor with the first use that counts, and any other one never rises. -/
theorem threshold_reinforced {policy : ReinforcementPolicy} {p : Pattern} (hpolicy : policy.InUnit)
    (ht : Number.InUnit p.threshold) :
    (policy.floor ≤ p.threshold →
      ∀ rs : List Reinforcement, policy.floor ≤ (rs.foldl (reinforce policy) p).threshold) ∧
    (¬ IsStuck policy p.threshold →
      ∀ (rs : List Reinforcement) (r : Reinforcement),
        ((rs ++ [r]).foldl (reinforce policy) p).threshold ≤
          (rs.foldl (reinforce policy) p).threshold) ∧
    (IsStuck policy p.threshold →
      ∀ rs : List Reinforcement, (rs.foldl (reinforce policy) p).threshold =
        if 0 < (rs.map Reinforcement.uses).sum ∧
            policy.decayAfterUses < p.usage + (rs.map Reinforcement.uses).sum then
          policy.floor
        else p.threshold) := by
  refine ⟨fun hfloor rs => ?_, fun hstuck rs r => ?_, fun hstuck rs => ?_⟩
  · rw [reinforced_threshold]
    refine (relaxedBy_induction (motive := fun u => Number.InUnit u ∧ policy.floor ≤ u)
      ?_ _ _ ⟨ht, hfloor⟩).2
    exact fun n u hu => ⟨inUnit_relaxed hpolicy hu.1, floor_le_relaxed hpolicy hu.1 hu.2⟩
  · have hbefore : Number.InUnit (rs.foldl (reinforce policy) p).threshold ∧
        ¬ IsStuck policy (rs.foldl (reinforce policy) p).threshold := by
      rw [reinforced_threshold]
      refine relaxedBy_induction (motive := fun u => Number.InUnit u ∧ ¬ IsStuck policy u)
        ?_ _ _ ⟨ht, hstuck⟩
      exact fun n u hu => ⟨inUnit_relaxed hpolicy hu.1, not_isStuck_relaxed hpolicy hu.1 hu.2⟩
    rw [List.foldl_append, List.foldl_cons, List.foldl_nil, (reinforce_threshold policy _ r).2]
    exact relaxedBy_le hpolicy hbefore.1 hbefore.2 _ _
  · rw [reinforced_threshold]
    exact relaxedBy_of_isStuck hpolicy ht hstuck _ _

/-- A policy with a floor above the ceiling. -/
def raisingPolicy : ReinforcementPolicy where
  decayAfterUses := 0
  step := 0.05
  ceiling := 0.5
  floor := 0.9

theorem raisingPolicy_inUnit : raisingPolicy.InUnit where
  step := by decide +kernel
  ceiling := by decide +kernel
  floor := by decide +kernel

/-- A pattern that is used for the first time. -/
def fresh (threshold : Float) : Pattern where
  id := "p"
  user := "u1"
  name := "p"
  description := ""
  triggers := [⟨.keyword, "x", none⟩]
  template := "t"
  threshold := threshold
  usage := 0
  createdAt := 0
  lastUsed := 0

/-- A threshold at the floor stays there, and a stuck one is raised to it. -/
theorem threshold_fresh :
    (raisingPolicy.floor ≤ ((fresh 0.9).reinforce raisingPolicy (.use 0)).threshold ∧
      ((fresh 0.9).reinforce raisingPolicy (.use 0)).threshold ≤ (fresh 0.9).threshold) ∧
    IsStuck raisingPolicy (fresh 0.8).threshold ∧
      ((fresh 0.8).reinforce raisingPolicy (.use 0)).threshold = raisingPolicy.floor := by
  obtain ⟨hfloor, hfalls, -⟩ :=
    threshold_reinforced (p := fresh 0.9) raisingPolicy_inUnit (by decide +kernel)
  obtain ⟨-, -, hstuck⟩ :=
    threshold_reinforced (p := fresh 0.8) raisingPolicy_inUnit (by decide +kernel)
  have hbelow : IsStuck raisingPolicy (fresh 0.8).threshold := by decide +kernel
  refine ⟨⟨hfloor (by decide +kernel) [.use 0], hfalls (by decide +kernel) [] (.use 0)⟩, hbelow, ?_⟩
  exact (hstuck hbelow [.use 0]).trans (if_pos (by decide))

/-- Settings accept such a policy, and the first use raises the threshold. -/
theorem threshold_rises :
    (∃ settings, Settings.ofValues [("threshold_decay_after_uses", .int 0),
        ("threshold_decay_ceiling", .real 0.5), ("threshold_floor", .real 0.9)] = .ok settings ∧
      settings.policy = raisingPolicy) ∧
    0 ≤ raisingPolicy.decayAfterUses ∧ raisingPolicy.InUnit ∧
      Number.InUnit (fresh 0.8).threshold ∧
      ¬ ((fresh 0.8).reinforce raisingPolicy (.use 0)).threshold ≤ (fresh 0.8).threshold := by
  refine ⟨⟨_, rfl, rfl⟩, by decide, raisingPolicy_inUnit, ?_, ?_⟩
  · decide +kernel
  · decide +kernel

end Pattern

end TieredMemory
