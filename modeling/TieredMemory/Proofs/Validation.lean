import TieredMemory.Validation

/-!
# Arguments that pass their checks

A check hands on what it was given, so that what passed it passes it again.
-/

namespace TieredMemory

theorem checkLimit_of_nonneg {n : Int} (h : 0 ≤ n) (field : String) :
    checkLimit field n = .ok n.toNat := by
  rw [checkLimit, if_neg (by omega)]

theorem checkText_eq_ok {field s s' : String} {limit : Int}
    (h : checkText field limit s = .ok s') : s' = s := by
  unfold checkText at h
  split at h
  · cases h
  · split at h <;> cases h
    rfl

/-- A place that passed its check is made of the arguments, and the user passes alone. -/
theorem checkPlace_inv {user conversation : String} {p : Place}
    (h : checkPlace user conversation = .ok p) :
    p = ⟨user, conversation⟩ ∧ checkUser user = .ok () := by
  unfold checkPlace checkIdentifier at h
  unfold checkUser checkIdentifier
  by_cases hu : isIdentifier user = true
  · by_cases hc : isIdentifier conversation = true
    · simp only [hu, hc, if_true] at h ⊢
      cases h
      exact ⟨rfl, rfl⟩
    · simp only [hu, hc, if_true] at h
      cases h
  · simp only [hu] at h
    cases h

/-- A place that passed its check passes it again. -/
theorem checkPlace_again {user conversation : String} {p : Place}
    (h : checkPlace user conversation = .ok p) : checkPlace p.user p.conversation = .ok p := by
  obtain ⟨rfl, -⟩ := checkPlace_inv h
  exact h

end TieredMemory
