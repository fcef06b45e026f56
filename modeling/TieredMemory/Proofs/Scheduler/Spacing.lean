import TieredMemory.Proofs.Scheduler.Pass

/-!
# The time between executions

A scheduler whose loop is stopped is used over any time: jobs are added and removed, time passes, and
passes are made on request, in which calls end well or badly or run out of time (`Session.run`).
Between the events no job is marked as running, and a job that has been executed and is still in the
table is not due before its interval has passed since the end of its last execution
(`Session.Orderly`). Every event keeps this. So every pass serves the jobs that are due when it
begins, and between the end of an execution of a job and the beginning of its next one there is at
least the interval of the job (`run_serves_spaced`).
-/

namespace TieredMemory.Scheduler

variable {κ : Type}

/-- What happens to a scheduler that makes passes on request. -/
inductive Event (κ : Type) where
  | add (spec : JobSpec κ)
  | remove (id : String)
  | wait (d : Nat)
  /-- A pass in which calls take the given courses. -/
  | pass (conduct : κ → Conduct)

/-- A scheduler at a time, with the executions of its jobs so far. -/
structure Session (κ : Type) where
  now : Time
  scheduler : Scheduler κ
  log : List (Stint κ) := []

/-- The second execution is not of the job of the first one, or begins when the interval of the job
has passed since the end of the first one. -/
def Spaced (x y : Stint κ) : Prop :=
  x.job.serial = y.job.serial → ∀ i, x.job.interval = some i → x.endsAt + i ≤ y.startsAt

namespace Session

/-- The session after an event. -/
def step (t : Session κ) : Event κ → Session κ
  | .add spec => { t with scheduler := t.scheduler.add t.now spec }
  | .remove id => { t with scheduler := (t.scheduler.remove id).2 }
  | .wait d => { t with now := t.now + d }
  | .pass conduct => {
    now := (t.scheduler.pass conduct t.now).2.1
    scheduler := (t.scheduler.pass conduct t.now).2.2.2
    log := t.log ++ t.scheduler.stintsOfPass conduct t.now }

/-- A session with a new scheduler. -/
def new (tick : Duration) (now : Time) : Session κ := { now := now, scheduler := { tick := tick } }

/-- The session after events. -/
def run (t : Session κ) (evs : List (Event κ)) : Session κ := evs.foldl step t

/-- The state of a session between two events. -/
structure Orderly (t : Session κ) : Prop where
  sound : t.scheduler.Sound
  stopped : t.scheduler.loop = .stopped
  idle : ∀ j ∈ t.scheduler.jobs, j.isRunning = false
  /-- What has been executed had been added. -/
  serial_lt : ∀ x ∈ t.log, x.job.serial < t.scheduler.serials
  /-- What has been executed has ended. -/
  past : ∀ x ∈ t.log, x.endsAt ≤ t.now
  /-- A job that has been executed rests for its interval. -/
  rests : ∀ x ∈ t.log, ∀ j ∈ t.scheduler.jobs, x.job.serial = j.serial →
    x.job.interval = j.interval ∧ ∀ i, j.interval = some i → x.endsAt + i ≤ j.nextRun
  spaced : t.log.Pairwise Spaced

namespace Orderly

variable {t : Session κ}

theorem new (tick : Duration) (now : Time) : (Session.new tick now : Session κ).Orderly where
  sound := .new tick
  stopped := rfl
  idle _ h := nomatch h
  serial_lt _ h := nomatch h
  past _ h := nomatch h
  rests _ h := nomatch h
  spaced := .nil

/-- An added job has a serial number that has not been executed. -/
theorem add (h : t.Orderly) (spec : JobSpec κ) : (t.step (.add spec)).Orderly where
  sound := h.sound.add t.now spec
  stopped := h.stopped
  idle j hj := by
    rcases Keyed.mem_put Job.id hj with rfl | hj
    · rfl
    · exact h.idle j hj
  serial_lt x hx := Nat.lt_succ_of_lt (h.serial_lt x hx)
  past := h.past
  rests x hx j hj hserial := by
    rcases Keyed.mem_put Job.id hj with rfl | hj
    · exact absurd hserial (Nat.ne_of_lt (h.serial_lt x hx))
    · exact h.rests x hx j hj hserial
  spaced := h.spaced

theorem remove (h : t.Orderly) (id : String) : (t.step (.remove id)).Orderly where
  sound := h.sound.remove id
  stopped := h.stopped
  idle j hj := h.idle j (List.mem_filter.1 hj).1
  serial_lt := h.serial_lt
  past := h.past
  rests x hx j hj := h.rests x hx j (List.mem_filter.1 hj).1
  spaced := h.spaced

theorem wait (h : t.Orderly) (d : Nat) : (t.step (.wait d)).Orderly where
  sound := h.sound
  stopped := h.stopped
  idle := h.idle
  serial_lt := h.serial_lt
  past x hx := Int.le_trans (h.past x hx) (Int.le_add_of_nonneg_right (Int.natCast_nonneg d))
  rests := h.rests
  spaced := h.spaced

theorem serves (h : t.Orderly) (conduct : κ → Conduct) :
    Serves conduct t.now t.scheduler (t.scheduler.stintsOfPass conduct t.now)
      (t.scheduler.pass conduct t.now) :=
  pass_serves h.sound h.stopped h.idle conduct t.now

/-- A job that has been executed is in the table after a pass only if it runs again and again, and then
its time comes when it has rested. -/
theorem rests_pass (h : t.Orderly) (conduct : κ → Conduct) {x : Stint κ} {k : Job κ}
    (hx : x ∈ (t.step (.pass conduct)).log) (hk : k ∈ (t.step (.pass conduct)).scheduler.jobs)
    (hserial : x.job.serial = k.serial) :
    x.job.interval = k.interval ∧ ∀ i, k.interval = some i → x.endsAt + i ≤ k.nextRun := by
  have hserves := h.serves conduct
  obtain ⟨j, hj, ⟨hnotCalled, rfl⟩ | ⟨y, hy, hcalled, hsettle⟩⟩ := hserves.table_cases hk
  · rcases List.mem_append.1 hx with hx | hx
    · exact h.rests x hx k hj hserial
    · exact absurd (List.mem_map.2 ⟨x, hx, hserial⟩) hnotCalled
  · obtain ⟨i, hinterval, rfl⟩ := Option.map_eq_some_iff.1 hsettle
    obtain ⟨hfrom, hspan, -⟩ := hserves.chained.bounds hy
    -- The execution that settled the job is this one or a later one, so it ended no earlier.
    have hrest : x.job.interval = j.interval ∧ x.endsAt ≤ y.endsAt := by
      rcases List.mem_append.1 hx with hx | hx
      · exact ⟨(h.rests x hx j hj hserial).1,
          Int.le_trans (h.past x hx) (Int.le_trans hfrom hspan)⟩
      · obtain rfl := hserves.eq_of_serial hx hy (hserial.trans hcalled.symm)
        rw [h.sound.eq_of_serial (hserves.mem_jobs hx).1 hj hserial]
        exact ⟨rfl, Int.le_refl _⟩
    refine ⟨hrest.1, fun i' hi' => ?_⟩
    obtain rfl : i = i' := Option.some.inj (hinterval.symm.trans hi')
    exact Int.add_le_add_right hrest.2 i

/-- What a pass executes has rested since its last execution. -/
theorem spaced_pass (h : t.Orderly) (conduct : κ → Conduct) :
    (t.step (.pass conduct)).log.Pairwise Spaced := by
  have hserves := h.serves conduct
  refine List.pairwise_append.2 ⟨h.spaced, ?_, fun x hx y hy hserial i hi => ?_⟩
  -- No job is executed twice in one pass, so only earlier passes are left to look at.
  · exact (List.pairwise_map.1 hserves.once).imp fun hne hserial => absurd hserial hne
  · obtain ⟨hjob, hdue⟩ := hserves.mem_jobs hy
    obtain ⟨hinterval, hrests⟩ := h.rests x hx y.job hjob hserial
    exact Int.le_trans (hrests i (hinterval ▸ hi)) hdue

theorem pass (h : t.Orderly) (conduct : κ → Conduct) : (t.step (.pass conduct)).Orderly := by
  have hserves := h.serves conduct
  have hscheduler : (t.step (.pass conduct)).scheduler =
      settleAll (t.scheduler.stintsOfPass conduct t.now) t.scheduler := by
    rw [step, pass_eq h.stopped]
  have hserials : (t.step (.pass conduct)).scheduler.serials = t.scheduler.serials := by
    rw [hscheduler, serials_settleAll]
  have hnow : (t.step (.pass conduct)).now =
      close t.now (t.scheduler.stintsOfPass conduct t.now) := hserves.closed
  exact {
    sound := hscheduler ▸ h.sound.settleAll _
    stopped := by rw [hscheduler, loop_settleAll, h.stopped]
    idle k hk := by
      obtain ⟨j, hj, ⟨-, rfl⟩ | ⟨y, -, -, hsettle⟩⟩ := hserves.table_cases hk
      · exact h.idle k hj
      · obtain ⟨i, -, rfl⟩ := Option.map_eq_some_iff.1 hsettle
        rfl
    serial_lt x hx := by
      rw [hserials]
      rcases List.mem_append.1 hx with hx | hx
      · exact h.serial_lt x hx
      · exact h.sound.serial_lt _ (hserves.mem_jobs hx).1
    past x hx := by
      rw [hnow]
      rcases List.mem_append.1 hx with hx | hx
      · exact Int.le_trans (h.past x hx) hserves.chained.le_close
      · exact (hserves.chained.bounds hx).2.2
    rests _ hx _ hk := h.rests_pass conduct hx hk
    spaced := h.spaced_pass conduct }

theorem step (h : t.Orderly) : ∀ ev, (t.step ev).Orderly
  | .add spec => h.add spec
  | .remove id => h.remove id
  | .wait d => h.wait d
  | .pass conduct => h.pass conduct

theorem run (h : t.Orderly) (evs : List (Event κ)) : (t.run evs).Orderly := by
  induction evs generalizing t with
  | nil => exact h
  | cons ev r ih => exact ih (h.step ev)

end Orderly

end Session

/-- However a scheduler with a stopped loop has been used, a pass calls every job that is due when it
begins once, the more urgent ones first and equally urgent ones in the order of the table, whatever
the other calls do, and settles each of them by its own execution (`Serves`); and from the end of an
execution of a job to the beginning of its next one there is at least the interval of the job
(`Spaced`). -/
theorem run_serves_spaced (tick : Duration) (start : Time) (evs : List (Event κ)) :
    let t := (Session.new tick start).run evs
    (∀ conduct, Serves conduct t.now t.scheduler (t.scheduler.stintsOfPass conduct t.now)
      (t.scheduler.pass conduct t.now)) ∧
      t.log.Pairwise Spaced := by
  intro t
  have horderly : t.Orderly := (Session.Orderly.new tick start).run evs
  exact ⟨horderly.serves, horderly.spaced⟩

end TieredMemory.Scheduler
