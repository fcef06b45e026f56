import TieredMemory.Pattern.Basic
import TieredMemory.Similarity
import TieredMemory.Text.EditDistance

/-!
# Near-duplicate patterns

Two patterns are alike when their names are, or when they share most of their triggers. Of two alike
patterns the more used one survives, the older one of equally used ones. It takes over the triggers
that it lacks and every use of the other, so that the threshold relaxes as if all uses had been its
own.
-/

namespace TieredMemory.Pattern

/-- Names at least this similar are alike. -/
def nameLikeness : Float := 0.8

/-- Patterns that share more than this part of their triggers are alike. -/
def triggerOverlap : Float := 0.6

/-- The names are alike, or the triggers overlap. -/
def isAlike (a b : Pattern) : Bool :=
  nameLikeness ≤ Text.similarity (Text.lower a.name) (Text.lower b.name)
    || triggerOverlap < jaccard a.triggerKeys b.triggerKeys

/-- The surviving one of two patterns, then the other. -/
def ranked (a b : Pattern) : Pattern × Pattern :=
  if a.usage ≠ b.usage then (if a.usage > b.usage then (a, b) else (b, a))
  else if a.createdAt ≤ b.createdAt then (a, b) else (b, a)

/-- Append the triggers whose keys are not there yet. -/
def withTriggers (own : List Trigger) : List Trigger → List Trigger
  | [] => own
  | t :: r =>
    if own.any fun o => o.key == t.key then withTriggers own r else withTriggers (own ++ [t]) r

/-- The pattern with the triggers and the uses of another one. -/
def merge (policy : ReinforcementPolicy) (target source : Pattern) : Pattern :=
  recordUsages policy (max target.lastUsed source.lastUsed) source.usage.toNat
    { target with triggers := withTriggers target.triggers source.triggers }

/-- The first alike pair of a list. -/
def alikePair? : List Pattern → Option (Pattern × Pattern)
  | [] => none
  | a :: r =>
    match r.find? (isAlike a) with
    | some b => some (a, b)
    | none => alikePair? r

theorem ranked_eq_or (a b : Pattern) : ranked a b = (a, b) ∨ ranked a b = (b, a) := by
  unfold ranked
  split
  · split <;> simp
  · split <;> simp

theorem sublist_of_alikePair? {ps : List Pattern} {a b : Pattern}
    (h : alikePair? ps = some (a, b)) : [a, b].Sublist ps := by
  induction ps with
  | nil => cases h
  | cons p r ih =>
    rw [alikePair?] at h
    split at h
    · rename_i q hq
      obtain ⟨rfl, rfl⟩ : p = a ∧ q = b := by simpa using h
      exact (List.singleton_sublist.2 (List.mem_of_find?_eq_some hq)).cons_cons p
    · exact (ih h).cons p

end TieredMemory.Pattern
