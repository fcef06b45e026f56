import TieredMemory.Proofs.Memory.Sound

/-!
# A memory and its tasks

A memory takes steps, and so do the enrichments that have begun and wait for a collaborator. A
*system* is a memory with these tasks, each of which is what is left of an enrichment of some user.
The steps come in any order: of the memory, of any task, the beginning of an enrichment that waits
in the background, and the giving up of a task wherever it waits. The memory of a reachable system
is sound, and in every run a user who brings in nothing keeps out of the system (`Runs.lacks`).
-/

namespace TieredMemory

/-- An enrichment that has begun. -/
structure Task where
  user : String
  rest : Activity
  confined : rest.Confined user

namespace Task

/-- The enrichment from where it is in the background. -/
def ofEnrichment (e : Enrichment) : Task where
  user := e.turn.user
  rest :=
    match e.progress with
    | .waiting => .starting e.work e.turn
    | .underway _ (some outcome) => .fromOutcome e.work e.turn outcome
    | .underway _ none => .done
  confined := by
    split
    · exact Activity.confined_starting e.work e.turn
    · exact Activity.confined_fromOutcome e.work e.turn _
    · exact .done

/-- The task after its next piece. -/
def resumed (t : Task) (m : Memory) : Task :=
  ⟨t.user, (t.rest.resume m).2, (t.confined.resume m).2⟩

end Task

/-- A memory and the enrichments that have begun. -/
structure System where
  memory : Memory
  tasks : List Task := []

namespace System

variable {L : Licence} {s s' : System}

/-- One step. -/
inductive Step (L : Licence) (s : System) : System → Prop where
  | memory {m : Memory} (h : s.memory.Step L m) : Step L s { s with memory := m }
  /-- An enrichment in the background begins. -/
  | begin {before after : List Enrichment} {e : Enrichment}
    (h : s.memory.background = before ++ e :: after) :
    Step L s {
      memory := { s.memory with background := before ++ after }
      tasks := s.tasks ++ [.ofEnrichment e] }
  /-- A task does its next piece. -/
  | resume {before after : List Task} {t : Task} (h : s.tasks = before ++ t :: after) :
    Step L s {
      memory := (t.rest.resume s.memory).1
      tasks := before ++ t.resumed s.memory :: after }
  /-- A task is over, or it is given up: it failed, its time has run out, or it was cancelled. -/
  | stop {before after : List Task} {t : Task} (h : s.tasks = before ++ t :: after) :
    Step L s { s with tasks := before ++ after }

/-- Any number of steps in any order. -/
def Runs (L : Licence) : System → System → Prop := Relation.ReflTransGen (Step L)

namespace Runs

theorem refl (L : Licence) (s : System) : Runs L s s := Relation.ReflTransGen.refl

/-- What the memory does by itself, whatever the tasks. -/
theorem of_reach {m m' : Memory} (h : m.Reach L m') (tasks : List Task) :
    Runs L ⟨m, tasks⟩ ⟨m', tasks⟩ := by
  induction h with
  | refl => exact .refl L _
  | tail _ hs ih => exact Relation.ReflTransGen.tail ih (.memory hs)

/-- What every step preserves. -/
theorem induction {motive : System → Prop} (step : ∀ s s', Step L s s' → motive s → motive s')
    (hr : Runs L s s') (h : motive s) : motive s' := by
  induction hr with
  | refl => exact h
  | tail _ hs ih => exact step _ _ hs ih

end Runs

/-! ### Reachable systems -/

/-- A system that a run leads to from a new memory without tasks. -/
def Reachable (s : System) : Prop := ∃ m₀ : Memory, m₀.IsNew ∧ Runs .free ⟨m₀, []⟩ s

theorem Step.reach (hs : Step L s s') : s.memory.Reach .free s'.memory := by
  have hfree : ∀ L : Licence, L.Le .free := fun L => ⟨fun _ _ => trivial, fun _ _ => trivial⟩
  cases hs with
  | memory h => exact .step (h.mono (hfree L))
  | begin h => exact .step (.background _ fun _ _ => trivial)
  | @resume before after t h => exact (t.confined.resume s.memory).1.mono (hfree _)
  | stop h => exact .refl _ _

theorem Runs.reach (hr : Runs L s s') : s.memory.Reach .free s'.memory := by
  induction hr with
  | refl => exact .refl _ _
  | tail _ hs ih => exact ih.trans hs.reach

theorem Runs.sound (hr : Runs L s s') (h : s.memory.Sound) : s'.memory.Sound := hr.reach.sound h

theorem Reachable.sound (h : s.Reachable) : s.memory.Sound := by
  obtain ⟨m₀, hnew, hr⟩ := h
  exact hr.sound hnew.sound

/-! ### Without a user -/

/-- Nothing of the user is in these parts of the memory, and no task is the user's. -/
structure Lacks (user : String) (parts : Part → Prop) (s : System) : Prop where
  owned : s.memory.Owned fun part v => parts part → v ≠ user
  tasks : ∀ t ∈ s.tasks, t.user ≠ user

variable {user : String} {parts : Part → Prop}

theorem forall_mem_append_cons {α : Type} {p : α → Prop} {a : α} {before after : List α} :
    (∀ x ∈ before ++ a :: after, p x) ↔ (∀ x ∈ before, p x) ∧ p a ∧ ∀ x ∈ after, p x := by
  rw [List.forall_mem_append, List.forall_mem_cons]

theorem Step.lacks (hu : ¬ L.user user) (hback : parts .background) (hs : Step L s s')
    (h : s.Lacks user parts) : s'.Lacks user parts := by
  have hne : ∀ {L : Licence}, ¬ L.user user → ∀ v, L.user v → ∀ part, parts part → v ≠ user :=
    fun hL v hv _ _ e => hL (e ▸ hv)
  cases hs with
  | memory hm => exact ⟨hm.owned (hne hu) h.owned, h.tasks⟩
  | @begin before after e hb =>
    have hwaiting := h.owned.enrichments
    rw [hb] at hwaiting
    obtain ⟨hbefore, he, hafter⟩ := forall_mem_append_cons.1 hwaiting
    refine ⟨{ h.owned with enrichments := List.forall_mem_append.2 ⟨hbefore, hafter⟩ }, ?_⟩
    exact List.forall_mem_append.2 ⟨h.tasks, List.forall_mem_singleton.2 (he hback)⟩
  | @resume before after t ht =>
    have htasks := h.tasks
    rw [ht] at htasks
    obtain ⟨hbefore, htu, hafter⟩ := forall_mem_append_cons.1 htasks
    have hchange := (t.confined.resume s.memory).1
    exact ⟨hchange.owned (hne (L := .only t.user) htu.symm) h.owned,
      forall_mem_append_cons.2 ⟨hbefore, htu, hafter⟩⟩
  | @stop before after t ht =>
    have htasks := h.tasks
    rw [ht] at htasks
    obtain ⟨hbefore, -, hafter⟩ := forall_mem_append_cons.1 htasks
    exact ⟨h.owned, List.forall_mem_append.2 ⟨hbefore, hafter⟩⟩

/-- In every run that brings in nothing of a user, the parts that lack the user still do. -/
theorem Runs.lacks (hu : ¬ L.user user) (hback : parts .background) (hr : Runs L s s')
    (h : s.Lacks user parts) : s'.Lacks user parts :=
  hr.induction (fun _ _ => Step.lacks hu hback) h

end System

end TieredMemory
