import TieredMemory.Proofs.Scheduler.Table
import TieredMemory.Scheduler.Scripted

/-!
# Changes to the table while calls go on

Jobs are added and removed at any time, also while a call goes on and by the call itself. Whatever is
done with a scheduler comes down to a row of acts (`leads_operate`): a job is added or removed, a call
begins, ends or is given up, or the loop goes on to something else. No order of the acts is excluded,
so a row of them is any interleaving of calls with changes to the table.

The end of a call of a job that runs once frees the place of its *identifier*, whoever holds it by
then. So a job that has been added is still in the table if and only if, since then, no act has
vacated the place of its identifier (`Given.holds_performAll_iff`). As long as its identifier is
neither removed nor added again, and it is not executed itself as a job that runs once, it stays if
and only if no call of *another* job of its identifier that runs once has ended (`added_stays_iff`).
Such calls do end: a job that a call of a job that runs once adds in the name of that job is gone when
the call has ended (`pass_drops_renewed`).
-/

namespace TieredMemory.Scheduler

variable {κ : Type} {s s' s'' : Scheduler κ} {j k : Job κ}

/-- One thing that is done to a scheduler. -/
inductive Act (κ : Type) where
  | add (now : Time) (spec : JobSpec κ)
  | remove (id : String)
  /-- A call of the job begins. -/
  | begin (j : Job κ)
  /-- A call of the job has ended. -/
  | finish (now : Time) (j : Job κ) (ending : Ending)
  /-- A call of the job is given up. -/
  | giveUp (now : Time) (j : Job κ)
  /-- The loop goes on to something else. -/
  | turn (loop : Loop κ)

/-- The scheduler after an act. -/
def perform (s : Scheduler κ) : Act κ → Scheduler κ
  | .add now spec => s.add now spec
  | .remove id => (s.remove id).2
  | .begin j => s.enter j.serial fun j => { j with isRunning := true }
  | .finish now j ending => s.finish now j ending
  | .giveUp now j => s.enter j.serial fun j =>
      { j with isRunning := false, runs := j.runs + 1, lastRun := some now }
  | .turn loop => { s with loop := loop }

/-- The scheduler after acts. -/
def performAll (acts : List (Act κ)) (s : Scheduler κ) : Scheduler κ := acts.foldl perform s

/-! ### What is done comes down to acts -/

/-- The second scheduler is the first one after some acts. -/
def Leads (s s' : Scheduler κ) : Prop := ∃ acts, s' = performAll acts s

namespace Leads

theorem refl (s : Scheduler κ) : Leads s s := ⟨[], rfl⟩

theorem trans (h : Leads s s') (h' : Leads s' s'') : Leads s s'' := by
  obtain ⟨acts, rfl⟩ := h
  obtain ⟨acts', rfl⟩ := h'
  exact ⟨acts ++ acts', (List.foldl_append ..).symm⟩

theorem act (s : Scheduler κ) (a : Act κ) : Leads s (s.perform a) := ⟨[a], rfl⟩

end Leads

theorem leads_changes (now : Time) (changes : List (TableChange κ)) (s : Scheduler κ) :
    Leads s (changes.foldl (apply now) s) := by
  induction changes generalizing s with
  | nil => exact .refl s
  | cons change r ih =>
    cases change with
    | add spec => exact (Leads.act s (.add now spec)).trans (ih _)
    | remove id => exact (Leads.act s (.remove id)).trans (ih _)

theorem leads_complete (now : Time) (e : Execution κ) (s : Scheduler κ) :
    Leads s (s.complete now e).2 := .act s (.finish now e.job e.ending)

section Calls

variable [Callable κ]

theorem leads_call (now : Time) (j : Job κ) (s : Scheduler κ) : Leads s (s.call now j).2.2 := by
  have hbegun := (Leads.act s (.begin j)).trans (leads_changes now (Callable.course j.call).changes _)
  unfold call
  dsimp only
  split
  · exact hbegun.trans (.act _ (.finish _ j _))
  · exact hbegun

theorem leads_callAll (now : Time) (js : List (Job κ)) (s : Scheduler κ) :
    Leads s (s.callAll now js).2.2 := by
  induction js generalizing now s with
  | nil => exact .act s (.turn _)
  | cons j r ih =>
    have hcalled := leads_call now j s
    unfold callAll
    split
    · next heq =>
      rw [heq] at hcalled
      exact hcalled.trans (ih _ _)
    · next e shown s' heq =>
      rw [heq] at hcalled
      split
      · exact hcalled.trans ((leads_complete now e s').trans (ih _ _))
      · exact hcalled.trans (.act s' (.turn _))

theorem leads_wake (now : Time) (s : Scheduler κ) : Leads s (s.wake now).2.2 := by
  unfold wake
  split
  · exact .refl s
  · exact leads_callAll now _ s
  · split
    · exact leads_callAll now _ s
    · exact .refl s
  · next e waiting _ =>
    split
    · exact (leads_complete now e s).trans (leads_callAll now waiting _)
    · exact .refl s

theorem leads_runSteps (limit : Time) (n : Nat) (now : Time) (s : Scheduler κ) :
    Leads s (runSteps limit n now s).2.2 := by
  induction n generalizing now s with
  | zero => exact .refl s
  | succ n ih =>
    unfold runSteps
    split
    · exact .refl s
    · split
      · exact (leads_wake _ s).trans (ih _ _)
      · exact .refl s

theorem leads_runThrough (now limit : Time) (s : Scheduler κ) :
    Leads s (s.runThrough now limit).2.2 :=
  (leads_wake now s).trans (leads_runSteps limit (stepsBetween now limit) _ _)

theorem leads_callInTurn (now : Time) (js : List (Job κ)) (s : Scheduler κ) :
    Leads s (s.callInTurn now js).2.2 := by
  induction js generalizing now s with
  | nil => exact .refl s
  | cons j r ih =>
    have hcalled := leads_call now j s
    unfold callInTurn
    split
    · next heq =>
      rw [heq] at hcalled
      exact hcalled.trans (ih _ _)
    · next e shown s' heq =>
      rw [heq] at hcalled
      exact hcalled.trans ((leads_runThrough now _ s').trans
        ((leads_complete _ e _).trans (ih _ _)))

end Calls

/-- What is done with a scheduler. What can be called may behave in another way each time. -/
inductive Operation (κ : Type) where
  | add (now : Time) (spec : JobSpec κ)
  | remove (id : String)
  | start
  | stop (now : Time)
  | wake (behaviour : Callable κ) (now : Time)
  | runPending (behaviour : Callable κ) (now : Time)

/-- The scheduler after an operation. -/
def operate (s : Scheduler κ) : Operation κ → Scheduler κ
  | .add now spec => s.add now spec
  | .remove id => (s.remove id).2
  | .start => s.start
  | .stop now => s.stop now
  | .wake behaviour now => (@wake κ behaviour now s).2.2
  | .runPending behaviour now => (@runPending κ behaviour now s).2.2.2

theorem leads_start (s : Scheduler κ) : Leads s s.start := by
  unfold start
  split
  · exact .refl s
  · exact .act s (.turn .starting)

theorem leads_stop (now : Time) (s : Scheduler κ) : Leads s (s.stop now) := by
  unfold stop
  split
  · next e _ _ => exact (Leads.act s (.giveUp now e.job)).trans (.act _ (.turn .stopped))
  · exact .act s (.turn .stopped)

/-- Every operation is a row of acts. -/
theorem leads_operate (s : Scheduler κ) : ∀ op, Leads s (s.operate op)
  | .add now spec => .act s (.add now spec)
  | .remove id => .act s (.remove id)
  | .start => leads_start s
  | .stop now => leads_stop now s
  | .wake _ now => leads_wake now s
  | .runPending _ now => leads_callInTurn now (s.due now) s

theorem leads_operations (s : Scheduler κ) (ops : List (Operation κ)) :
    Leads s (ops.foldl operate s) := by
  induction ops generalizing s with
  | nil => exact .refl s
  | cons op r ih => exact (leads_operate s op).trans (ih _)

/-! ### Who holds a place -/

/-- The act takes whoever has the identifier out of the table. -/
def Act.Vacates (id : String) : Act κ → Prop
  | .add _ spec => spec.id = id
  | .remove id' => id' = id
  | .finish _ j _ => j.interval = none ∧ j.id = id
  | _ => False

/-- The job with the serial number is in the table. -/
def Holds (serial : Nat) (s : Scheduler κ) : Prop := ∃ j ∈ s.jobs, j.serial = serial

/-- The serial number has been given to a job with the identifier. -/
structure Given (serial : Nat) (id : String) (s : Scheduler κ) : Prop where
  sound : s.Sound
  lt_serials : serial < s.serials
  id_eq : ∀ j ∈ s.jobs, j.serial = serial → j.id = id

theorem Sound.perform (h : s.Sound) : ∀ a, (s.perform a).Sound
  | .add now spec => h.add now spec
  | .remove id => h.remove id
  | .begin j => h.enter j.serial (fun _ => rfl) fun _ => rfl
  | .finish now j ending => h.finish now j ending
  | .giveUp _ j => h.enter j.serial (fun _ => rfl) fun _ => rfl
  | .turn _ => ⟨h.ids, h.serials, h.serial_lt⟩

theorem Sound.performAll (h : s.Sound) (acts : List (Act κ)) : (performAll acts s).Sound := by
  induction acts generalizing s with
  | nil => exact h
  | cons a r ih => exact ih (h.perform a)

namespace Given

variable {n : Nat} {id : String}

theorem of_add (h : s.Sound) (now : Time) (spec : JobSpec κ) :
    Given s.serials spec.id (s.add now spec) where
  sound := h.add now spec
  lt_serials := Nat.lt_succ_self _
  id_eq j hj hserial := by
    rcases Keyed.mem_put Job.id hj with rfl | hj
    · rfl
    · exact absurd hserial (Nat.ne_of_lt (h.serial_lt j hj))

theorem remove (h : Given n id s) (id' : String) : Given n id (s.remove id').2 where
  sound := h.sound.remove id'
  lt_serials := h.lt_serials
  id_eq j hj := h.id_eq j (List.mem_filter.1 hj).1

theorem enter (h : Given n id s) (serial : Nat) {f : Job κ → Job κ} (hid : ∀ j, (f j).id = j.id)
    (hserial : ∀ j, (f j).serial = j.serial) : Given n id (s.enter serial f) where
  sound := h.sound.enter serial hid hserial
  lt_serials := h.lt_serials
  id_eq j hj hj' := by
    obtain ⟨a, ha, rfl | rfl⟩ := Keyed.eq_or_eq_of_mem_update Job.serial hj
    · rw [hid]
      exact h.id_eq a ha ((hserial a).symm.trans hj')
    · exact h.id_eq j ha hj'

theorem perform (h : Given n id s) : ∀ a, Given n id (s.perform a)
  | .add now spec => {
    sound := h.sound.add now spec
    lt_serials := Nat.lt_succ_of_lt h.lt_serials
    id_eq j hj hserial := by
      rcases Keyed.mem_put Job.id hj with rfl | hj
      · exact absurd hserial (Nat.ne_of_gt h.lt_serials)
      · exact h.id_eq j hj hserial }
  | .remove id' => h.remove id'
  | .begin j => h.enter j.serial (fun _ => rfl) fun _ => rfl
  | .finish now j ending => by
    have hentered := h.enter j.serial (f := Job.afterCall now ending) (fun _ => rfl) fun _ => rfl
    rw [Scheduler.perform, finish]
    split
    · exact hentered
    · exact hentered.remove j.id
  | .giveUp _ j => h.enter j.serial (fun _ => rfl) fun _ => rfl
  | .turn _ => ⟨h.sound.perform (.turn _), h.lt_serials, h.id_eq⟩

/-- A removal takes out the job with the serial number exactly if it is of its identifier. -/
theorem holds_remove_iff (h : Given n id s) (id' : String) :
    Holds n (s.remove id').2 ↔ Holds n s ∧ id' ≠ id := by
  constructor
  · rintro ⟨j, hj, hserial⟩
    obtain ⟨hj, hne⟩ := List.mem_filter.1 hj
    exact ⟨⟨j, hj, hserial⟩, fun e => of_decide_eq_true hne ((h.id_eq j hj hserial).trans e.symm)⟩
  · rintro ⟨⟨j, hj, hserial⟩, hne⟩
    refine ⟨j, List.mem_filter.2 ⟨hj, decide_eq_true ?_⟩, hserial⟩
    rw [h.id_eq j hj hserial]
    exact hne.symm

/-- A new job takes out the job with the serial number exactly if it is of its identifier. -/
theorem holds_add_iff (h : Given n id s) (now : Time) (spec : JobSpec κ) :
    Holds n (s.add now spec) ↔ Holds n s ∧ spec.id ≠ id := by
  have hperm := Keyed.put_perm Job.id h.sound.ids (s.newJob now spec)
  rw [← h.holds_remove_iff]
  constructor
  · rintro ⟨j, hj, hserial⟩
    rcases List.mem_cons.1 (hperm.mem_iff.1 hj) with rfl | hj
    · exact absurd hserial (Nat.ne_of_gt h.lt_serials)
    · exact ⟨j, hj, hserial⟩
  · rintro ⟨j, hj, hserial⟩
    exact ⟨j, hperm.mem_iff.2 (List.mem_cons_of_mem _ hj), hserial⟩

end Given

theorem holds_enter_iff (n serial : Nat) {f : Job κ → Job κ}
    (hserial : ∀ j, (f j).serial = j.serial) (s : Scheduler κ) :
    Holds n (s.enter serial f) ↔ Holds n s := by
  have hsame := Keyed.map_update Job.serial hserial serial s.jobs
  unfold Holds
  rw [jobs_enter, ← List.mem_map, hsame, List.mem_map]

theorem Given.holds_finish_iff {n : Nat} {id : String} (h : Given n id s) (now : Time) (j : Job κ)
    (ending : Ending) :
    Holds n (s.finish now j ending) ↔ Holds n s ∧ ¬(j.interval = none ∧ j.id = id) := by
  have hentered := h.enter j.serial (f := Job.afterCall now ending) (fun _ => rfl) fun _ => rfl
  have hholds := holds_enter_iff n j.serial (f := Job.afterCall now ending) (fun _ => rfl) s
  unfold finish
  cases hinterval : j.interval with
  | some i => simp [hholds]
  | none => simp [hentered.holds_remove_iff, hholds]

/-- A job stays in the table through an act exactly if the act does not vacate its place. -/
theorem Given.holds_perform_iff {n : Nat} {id : String} (h : Given n id s) (a : Act κ) :
    Holds n (s.perform a) ↔ Holds n s ∧ ¬a.Vacates id := by
  cases a with
  | add now spec => exact h.holds_add_iff now spec
  | remove id' => exact h.holds_remove_iff id'
  | finish now j ending => exact h.holds_finish_iff now j ending
  | begin j => simp [Scheduler.perform, Act.Vacates, holds_enter_iff]
  | giveUp now j => simp [Scheduler.perform, Act.Vacates, holds_enter_iff]
  | turn loop => simp [Scheduler.perform, Act.Vacates, Holds]

/-- A job stays in the table exactly as long as no act vacates its place. -/
theorem Given.holds_performAll_iff {n : Nat} {id : String} (h : Given n id s) (acts : List (Act κ)) :
    Holds n (performAll acts s) ↔ Holds n s ∧ ∀ a ∈ acts, ¬a.Vacates id := by
  induction acts generalizing s with
  | nil => simp [Scheduler.performAll]
  | cons a r ih =>
    have hstep : Scheduler.performAll (a :: r) s = Scheduler.performAll r (s.perform a) := rfl
    rw [hstep, ih (h.perform a), h.holds_perform_iff, List.forall_mem_cons, and_assoc]

/-- A new scheduler leads to it. -/
def Reached (s : Scheduler κ) : Prop := ∃ tick, Leads { tick := tick } s

theorem Reached.sound (h : s.Reached) : s.Sound := by
  obtain ⟨tick, acts, rfl⟩ := h
  exact (Sound.new tick).performAll acts

/-- A job is added, and since then its identifier has been neither removed nor added again, and it has
not been executed itself as a job that runs once. Then it is still in the table if and only if no call
of another job of its identifier that runs once has ended. -/
theorem added_stays_iff (hs : s.Reached) (now : Time) (spec : JobSpec κ) (acts : List (Act κ))
    (hremove : .remove spec.id ∉ acts)
    (hreplace : ∀ t spec', .add t spec' ∈ acts → spec'.id ≠ spec.id)
    (hown : ∀ t j ending, .finish t j ending ∈ acts → j.serial = s.serials → j.interval ≠ none) :
    Holds s.serials (performAll acts (s.add now spec)) ↔
      ∀ t j ending, .finish t j ending ∈ acts → j.serial ≠ s.serials → j.id = spec.id →
        j.interval ≠ none := by
  have hgiven := Given.of_add hs.sound now spec
  have hadded : Holds s.serials (s.add now spec) :=
    ⟨s.newJob now spec, (Keyed.put_perm Job.id hs.sound.ids _).mem_iff.2 List.mem_cons_self, rfl⟩
  -- What is left of the acts that vacate a place are calls of jobs that run once, its own set aside.
  rw [hgiven.holds_performAll_iff, and_iff_right hadded]
  constructor
  · intro hkeep t j ending hmem _ hid hinterval
    exact hkeep _ hmem ⟨hinterval, hid⟩
  · intro hother a hmem hvacates
    cases a with
    | add t spec' => exact hreplace t spec' hmem hvacates
    | remove id => exact hremove (hvacates ▸ hmem)
    | finish t j ending =>
      obtain ⟨hinterval, hid⟩ := hvacates
      by_cases hserial : j.serial = s.serials
      · exact hown t j ending hmem hserial hinterval
      · exact hother t j ending hmem hserial hid hinterval
    | begin | giveUp | turn => exact hvacates

/-- A job that runs once, and in its call adds a job in its own name. -/
def renewing : JobSpec ScriptedCall := { id := "a", name := "a", call := ⟨"a", .addAgain⟩ }

/-- What it adds. -/
def renewed : JobSpec ScriptedCall :=
  { id := "a", name := "again", call := ⟨"a", .succeed⟩, interval := some (60 * second) }

/-- A new scheduler with the job that renews itself. -/
def renewal : Scheduler ScriptedCall := ({} : Scheduler ScriptedCall).add 0 renewing

/-- The job that renews itself, in the table. -/
def renewer : Job ScriptedCall := newJob 0 renewing {}

/-- A job of another name. -/
def bystanding : JobSpec ScriptedCall := { renewed with id := "b" }

/-- The job of another name, added while the call of the first job goes on. -/
def bystander : Job ScriptedCall := newJob 0 bystanding (renewal.perform (.begin renewer))

/-- A job of another name stays through the end of the call that was going on when it was added, and
through the end of its own. -/
theorem added_stays_bystander :
    let s := renewal.perform (.begin renewer)
    let acts := [.add 0 renewed, .finish 0 renewer .done, .begin bystander,
      .finish 5 bystander .timedOut]
    s.Reached ∧ .remove bystanding.id ∉ acts ∧
      (∀ t spec, .add t spec ∈ acts → spec.id ≠ bystanding.id) ∧
      (∀ t j ending, .finish t j ending ∈ acts → j.serial = s.serials → j.interval ≠ none) ∧
      Holds s.serials (performAll acts (s.add 0 bystanding)) := by
  intro s acts
  have hs : s.Reached := ⟨second, [.add 0 renewing, .begin renewer], rfl⟩
  have hremove : .remove bystanding.id ∉ acts := by simp [acts]
  have hreplace : ∀ t spec, .add t spec ∈ acts → spec.id ≠ bystanding.id := by
    intro t spec hmem
    obtain ⟨-, rfl⟩ : t = 0 ∧ spec = renewed := by simpa [acts] using hmem
    decide
  have hfinish : ∀ t j ending, .finish t j ending ∈ acts → j = renewer ∨ j = bystander := by
    intro t j ending hmem
    have hmem : t = 0 ∧ j = renewer ∧ ending = .done ∨
        t = 5 ∧ j = bystander ∧ ending = .timedOut := by simpa [acts] using hmem
    exact hmem.imp (·.2.1) (·.2.1)
  have hown : ∀ t j ending, .finish t j ending ∈ acts → j.serial = s.serials →
      j.interval ≠ none := by
    intro t j ending hmem hserial
    rcases hfinish t j ending hmem with rfl | rfl
    · exact absurd hserial (by decide)
    · exact Option.some_ne_none _
  refine ⟨hs, hremove, hreplace, hown,
    (added_stays_iff hs 0 bystanding acts hremove hreplace hown).2 fun t j ending hmem hserial hid => ?_⟩
  rcases hfinish t j ending hmem with rfl | rfl
  · exact absurd hid (by decide)
  · exact absurd rfl hserial

/-- A pass calls the job with the serial number 0, which adds another one in its name. That job is in
the table until the call ends, and not afterwards, though it has been neither removed nor replaced
nor called. -/
theorem pass_drops_renewed :
    (renewal.runPending 0).2.2 = ([.called ⟨"a", .addAgain⟩ 0],
      performAll [.begin renewer, .add 0 renewed, .finish 0 renewer .done] renewal) ∧
    renewer.serial = 0 ∧ (performAll [.begin renewer] renewal).serials = 1 ∧
    Holds 1 (performAll [.begin renewer, .add 0 renewed] renewal) ∧
    (performAll [.begin renewer, .add 0 renewed, .finish 0 renewer .done] renewal).jobs = [] := by
  have hdue : renewal.due 0 = [renewer] := List.mergeSort_singleton _
  refine ⟨?_, rfl, rfl, ⟨newJob 0 renewed (performAll [.begin renewer] renewal), ?_, rfl⟩, rfl⟩
  · unfold runPending
    rw [hdue]
    rfl
  · exact List.mem_singleton.2 rfl

end TieredMemory.Scheduler
