import TieredMemory.Pattern.Score
import TieredMemory.Proofs.Pattern.Consolidation
import TieredMemory.Proofs.Ranking

/-!
# The search for the pattern that applies

The search goes through all triggers of all patterns and stops at the first one that cannot be
scored. So it comes to one of the patterns, to none, or to too large a number, in an expression or of
uses (`best?_inv`).
-/

namespace TieredMemory.Pattern

/-- What a fold over a list that may fail preserves. -/
theorem foldlM_induction {α β ε : Type} {f : β → α → Except ε β} {motive : Except ε β → Prop}
    {xs : List α} {b : β} (hb : motive (.ok b))
    (step : ∀ b, motive (.ok b) → ∀ a ∈ xs, motive (f b a)) : motive (xs.foldlM f b) := by
  induction xs generalizing b with
  | nil => exact hb
  | cons a r ih =>
    rw [List.foldlM_cons]
    have hfirst := step b hb a List.mem_cons_self
    cases h : f b a with
    | error why =>
      rw [h] at hfirst
      exact hfirst
    | ok b' =>
      rw [h] at hfirst
      exact ih hfirst fun b hb a ha => step b hb a (List.mem_cons_of_mem _ ha)

/-- What a search for the best of some patterns can come to: none of another list, and no failure
but one. -/
def Searched (ps : List Pattern) : Except Fault Best → Prop
  | .ok best => ∀ r ∈ best, r.1 ∈ ps
  | .error why => why = .tooLarge

variable {query : String} {embedding : Option Embedding} {ps : List Pattern} {p : Pattern}
  {best : Best}

theorem searched_consider (hp : p ∈ ps) (hbest : Searched ps (.ok best)) (boost : Float)
    (t : Trigger) : Searched ps (consider query embedding p boost best t) := by
  have hscore : ∀ why, t.score query embedding = .error why → why = .tooLarge := by
    intro why h
    unfold Trigger.score at h
    split at h
    · cases h
    · split at h <;> cases h
      rfl
    · split at h <;> cases h
  unfold consider
  cases h : t.score query embedding with
  | error why => exact hscore why h
  | ok x =>
    show Searched ps (if x ≤ p.threshold then _ else _)
    split
    · exact hbest
    · split
      · rintro r ⟨⟩
        exact hp
      · next top =>
        show Searched ps (.ok (if _ then _ else _))
        split
        · rintro r ⟨⟩
          exact hp
        · exact hbest

theorem searched_considerAll (hp : p ∈ ps) (hbest : Searched ps (.ok best)) :
    Searched ps (considerAll query embedding best p) := by
  unfold considerAll
  cases h : p.boost with
  | error why =>
    unfold boost at h
    simp only at h
    split at h <;> cases h
    rfl
  | ok boost =>
    exact foldlM_induction hbest fun best hbest t _ => searched_consider hp hbest boost t

theorem best?_inv (query : String) (embedding : Option Embedding) (ps : List Pattern) :
    (∃ p ∈ ps, best? query embedding ps = .ok (some p)) ∨ best? query embedding ps = .ok none ∨
      best? query embedding ps = .error .tooLarge := by
  have hperm := descending_perm (fun a b : Pattern => decide (a.usage < b.usage)) ps
  unfold best?
  have hsearched : Searched ps
      ((descending (fun a b : Pattern => decide (a.usage < b.usage)) ps).foldlM
        (considerAll query embedding) none) := by
    refine foldlM_induction (by simp [Searched]) fun best hbest p hp => ?_
    exact searched_considerAll (hperm.mem_iff.1 hp) hbest
  cases h : (descending (fun a b : Pattern => decide (a.usage < b.usage)) ps).foldlM
      (considerAll query embedding) none with
  | error why =>
    rw [h] at hsearched
    obtain rfl : why = .tooLarge := hsearched
    exact .inr (.inr (by simp [h]))
  | ok best =>
    rw [h] at hsearched
    cases best with
    | none => exact .inr (.inl (by simp [h]))
    | some r => exact .inl ⟨r.1, hsearched r rfl, by simp [h]⟩

end TieredMemory.Pattern
