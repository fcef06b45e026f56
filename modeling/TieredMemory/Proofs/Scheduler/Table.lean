import TieredMemory.Proofs.Keyed
import TieredMemory.Scheduler

/-!
# The table of jobs

No two jobs in the table have the same identifier or the same serial number, and new serial numbers
are above all that have been given (`Sound`). Adding, removing and entering something for a job keep
this. What is entered for a job at the end of a call is the same whether or not the job was marked as
running before.
-/

namespace TieredMemory.Scheduler

variable {κ : Type} {s : Scheduler κ} {j k : Job κ}

/-- Jobs are told apart by their identifiers and by their serial numbers. -/
structure Sound (s : Scheduler κ) : Prop where
  ids : (s.jobs.map Job.id).Nodup
  serials : (s.jobs.map Job.serial).Nodup
  serial_lt : ∀ j ∈ s.jobs, j.serial < s.serials

/-- The job that is put into the table when a job is added. -/
def newJob (now : Time) (spec : JobSpec κ) (s : Scheduler κ) : Job κ where
  serial := s.serials
  id := spec.id
  name := spec.name
  call := spec.call
  interval := spec.interval
  priority := spec.priority
  timeout := spec.timeout
  nextRun := now + spec.delay

theorem jobs_add (now : Time) (spec : JobSpec κ) (s : Scheduler κ) :
    (s.add now spec).jobs = Keyed.put Job.id (s.newJob now spec) s.jobs := rfl

theorem jobs_remove (id : String) (s : Scheduler κ) :
    (s.remove id).2.jobs = Keyed.remove Job.id id s.jobs := rfl

theorem jobs_enter (serial : Nat) (f : Job κ → Job κ) (s : Scheduler κ) :
    (s.enter serial f).jobs = Keyed.update Job.serial serial f s.jobs := rfl

theorem loop_finish (now : Time) (j : Job κ) (ending : Ending) (s : Scheduler κ) :
    (s.finish now j ending).loop = s.loop := by
  unfold finish
  split <;> rfl

/-- Whether a job was marked as running makes no difference to the end of its call. -/
theorem finish_enter_running (now : Time) (j : Job κ) (ending : Ending) (s : Scheduler κ) :
    (s.enter j.serial fun j => { j with isRunning := true }).finish now j ending =
      s.finish now j ending := by
  have hentered : (s.enter j.serial fun j => { j with isRunning := true }).enter j.serial
      (Job.afterCall now ending) = s.enter j.serial (Job.afterCall now ending) := by
    simp only [enter, Keyed.update, List.map_map]
    congr 2
    funext k
    simp only [Function.comp]
    by_cases hk : k.serial = j.serial
    · simp only [if_pos hk]
      rfl
    · simp only [if_neg hk]
  unfold finish
  rw [hentered]

namespace Sound

theorem new (tick : Duration) : ({ tick := tick } : Scheduler κ).Sound where
  ids := List.nodup_nil
  serials := List.nodup_nil
  serial_lt _ h := nomatch h

theorem eq_of_id (h : s.Sound) (hj : j ∈ s.jobs) (hk : k ∈ s.jobs) (hid : j.id = k.id) : j = k :=
  List.inj_on_of_nodup_map h.ids hj hk hid

theorem eq_of_serial (h : s.Sound) (hj : j ∈ s.jobs) (hk : k ∈ s.jobs)
    (hserial : j.serial = k.serial) : j = k :=
  List.inj_on_of_nodup_map h.serials hj hk hserial

theorem add (h : s.Sound) (now : Time) (spec : JobSpec κ) : (s.add now spec).Sound where
  ids := Keyed.nodup_put Job.id h.ids _
  serials := by
    have hperm := (Keyed.put_perm Job.id h.ids (s.newJob now spec)).map Job.serial
    rw [jobs_add, hperm.nodup_iff, List.map_cons, List.nodup_cons]
    constructor
    · intro hmem
      obtain ⟨k, hk, hserial⟩ := List.mem_map.1 hmem
      have hlt := h.serial_lt k (List.mem_filter.1 hk).1
      rw [hserial] at hlt
      exact absurd hlt (Nat.lt_irrefl _)
    · exact h.serials.sublist (List.filter_sublist.map Job.serial)
  serial_lt k hk := by
    rcases Keyed.mem_put Job.id hk with rfl | hk
    · exact Nat.lt_succ_self _
    · exact Nat.lt_succ_of_lt (h.serial_lt k hk)

theorem remove (h : s.Sound) (id : String) : (s.remove id).2.Sound where
  ids := Keyed.nodup_remove Job.id id h.ids
  serials := h.serials.sublist (List.filter_sublist.map Job.serial)
  serial_lt k hk := h.serial_lt k (List.mem_filter.1 hk).1

theorem enter (h : s.Sound) (serial : Nat) {f : Job κ → Job κ} (hid : ∀ j, (f j).id = j.id)
    (hserial : ∀ j, (f j).serial = j.serial) : (s.enter serial f).Sound where
  ids := by
    have hsame : (s.enter serial f).jobs.map Job.id = s.jobs.map Job.id := by
      rw [jobs_enter, Keyed.update, List.map_map]
      refine List.map_congr_left fun k _ => ?_
      simp only [Function.comp]
      split
      · exact hid k
      · rfl
    exact hsame ▸ h.ids
  serials := (Keyed.map_update Job.serial hserial serial s.jobs) ▸ h.serials
  serial_lt k hk := by
    obtain ⟨a, ha, rfl | rfl⟩ := Keyed.eq_or_eq_of_mem_update Job.serial hk
    · rw [hserial]
      exact h.serial_lt a ha
    · exact h.serial_lt k ha

theorem finish (h : s.Sound) (now : Time) (j : Job κ) (ending : Ending) :
    (s.finish now j ending).Sound := by
  have hentered := h.enter j.serial (f := Job.afterCall now ending) (fun _ => rfl) fun _ => rfl
  unfold Scheduler.finish
  split
  · exact hentered
  · exact hentered.remove j.id

end Sound

end TieredMemory.Scheduler
