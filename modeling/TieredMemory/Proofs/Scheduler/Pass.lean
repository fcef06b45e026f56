import Mathlib.Data.Nat.Basic
import TieredMemory.Proofs.Ranking
import TieredMemory.Proofs.Scheduler.Table

/-!
# A pass over the table

The calls of a pass leave the table alone, but each of them may end well or badly, at once or after
any time, awaited or not (`Conduct`). While the loop of the scheduler is stopped, a pass is a row of
executions, each from the end of the one before (`stints`), and what it does to the table is to enter
their ends (`callInTurn_eq`). The entries concern different jobs, so each job that was called is
settled by its own execution and every other job stays as it is (`jobs_settleAll`).

`pass_serves` puts this together. The jobs called are the jobs that are due when the pass begins, each
once, the more urgent ones first and those of one urgency in the order of the table; no ending of one
of them keeps another from its call.
-/

namespace TieredMemory.Scheduler

variable {κ : Type} {s : Scheduler κ} {j k : Job κ}

/-- The course of a call that leaves the table alone. -/
structure Conduct where
  pace : Pace := .blocking 0
  ending : Ending := .done

/-- What is called leaves the table alone. -/
@[reducible] def callable (conduct : κ → Conduct) : Callable κ where
  course call := { pace := (conduct call).pace, ending := (conduct call).ending }

@[simp] theorem course_callable (conduct : κ → Conduct) (call : κ) :
    (callable conduct).course call =
      { pace := (conduct call).pace, ending := (conduct call).ending } := rfl

/-- A pass on request. -/
def pass (conduct : κ → Conduct) (now : Time) (s : Scheduler κ) :
    Nat × Time × List (Happening κ) × Scheduler κ :=
  @runPending κ (callable conduct) now s

/-! ### Executions one after another -/

/-- An execution of a job from its beginning to its end. -/
structure Stint (κ : Type) where
  job : Job κ
  startsAt : Time
  endsAt : Time
  ending : Ending

/-- The execution of a job that begins at a time. -/
def stint (conduct : κ → Conduct) (now : Time) (j : Job κ) : Stint κ :=
  let c := conduct j.call
  match c.pace with
  | .blocking d => ⟨j, now, now + max d 0, c.ending⟩
  | .awaited d => ⟨j, now, (j.outcome now d c.ending).1, (j.outcome now d c.ending).2⟩

/-- The executions of jobs one after another. -/
def stints (conduct : κ → Conduct) : Time → List (Job κ) → List (Stint κ)
  | _, [] => []
  | now, j :: r => stint conduct now j :: stints conduct (stint conduct now j).endsAt r

/-- The time at which the last of the executions has ended. -/
def close : Time → List (Stint κ) → Time
  | now, [] => now
  | _, x :: r => close x.endsAt r

namespace Stint

/-- The call is awaited, and it takes at least the time that its job allows it. -/
def Overruns (conduct : κ → Conduct) (x : Stint κ) : Prop :=
  ∃ d, (conduct x.job.call).pace = .awaited d ∧
    ∃ limit, x.job.timeout.bind Decimal.Amount.timer? = some limit ∧ limit ≤ d

/-- What an execution shows. -/
def shows (conduct : κ → Conduct) (x : Stint κ) : List (Happening κ) :=
  .called x.job.call x.startsAt ::
    endHappenings x.endsAt x.job (conduct x.job.call).pace.isAwaited x.ending

/-- What becomes of the job: if it runs again and again, it has run once more, and the time to its
next run counts from the end of this one. -/
def settle (x : Stint κ) (j : Job κ) : Option (Job κ) :=
  j.interval.map fun i => { j with
    isRunning := false
    runs := j.runs + 1
    lastRun := some x.endsAt
    failures := if x.ending = .done then j.failures else j.failures + 1
    nextRun := x.endsAt + i }

end Stint

section Conduct

variable {conduct : κ → Conduct} {now : Time}

@[simp] theorem job_stint : (stint conduct now j).job = j := by
  unfold stint
  dsimp only
  split <;> rfl

@[simp] theorem startsAt_stint : (stint conduct now j).startsAt = now := by
  unfold stint
  dsimp only
  split <;> rfl

theorem le_later (now : Time) (d : Duration) : now ≤ now + max d 0 :=
  Int.le_add_of_nonneg_right (Int.le_max_right d 0)

theorem le_outcome (now : Time) (d : Duration) (ending : Ending) (j : Job κ) :
    now ≤ (j.outcome now d ending).1 := by
  unfold Job.outcome
  split
  · split <;> exact le_later now _
  · exact le_later now _

theorem le_endsAt_stint : now ≤ (stint conduct now j).endsAt := by
  unfold stint
  dsimp only
  split
  · exact le_later now _
  · exact le_outcome ..

/-- An execution ends well exactly if its call does and keeps to its time. -/
theorem ending_stint_eq_done_iff : (stint conduct now j).ending = .done ↔
    (conduct j.call).ending = .done ∧ ¬(stint conduct now j).Overruns conduct := by
  unfold Stint.Overruns
  rw [job_stint]
  unfold stint
  dsimp only
  cases hpace : (conduct j.call).pace with
  | blocking d => simp
  | awaited d =>
    unfold Job.outcome
    cases hlimit : j.timeout.bind Decimal.Amount.timer? with
    | none => simp
    | some limit => by_cases hle : limit ≤ d <;> simp [hle]

theorem map_job_stints (js : List (Job κ)) : (stints conduct now js).map Stint.job = js := by
  induction js generalizing now with
  | nil => rfl
  | cons j r ih => rw [stints, List.map_cons, job_stint, ih]

/-- Every execution is that of its job from its beginning on. -/
theorem eq_stint_of_mem {js : List (Job κ)} {x : Stint κ} (hx : x ∈ stints conduct now js) :
    x = stint conduct x.startsAt x.job := by
  induction js generalizing now with
  | nil => cases hx
  | cons j r ih =>
    rcases List.mem_cons.1 hx with rfl | hx
    · rw [startsAt_stint, job_stint]
    · exact ih hx

end Conduct

/-! ### The times of a pass -/

/-- Executions follow one another without a break: the first one begins at a time, each other one at
the end of the one before. -/
def Chained : Time → List (Stint κ) → Prop
  | _, [] => True
  | now, x :: r => x.startsAt = now ∧ now ≤ x.endsAt ∧ Chained x.endsAt r

theorem chained_stints (conduct : κ → Conduct) (now : Time) (js : List (Job κ)) :
    Chained now (stints conduct now js) := by
  induction js generalizing now with
  | nil => trivial
  | cons j r ih => exact ⟨startsAt_stint, le_endsAt_stint, ih _⟩

namespace Chained

variable {now : Time} {xs : List (Stint κ)} {x : Stint κ}

theorem le_close (h : Chained now xs) : now ≤ close now xs := by
  induction xs generalizing now with
  | nil => exact Int.le_refl _
  | cons y r ih => exact Int.le_trans h.2.1 (ih h.2.2)

/-- Every execution lies between the beginning and the end of all. -/
theorem bounds (h : Chained now xs) (hx : x ∈ xs) :
    now ≤ x.startsAt ∧ x.startsAt ≤ x.endsAt ∧ x.endsAt ≤ close now xs := by
  induction xs generalizing now with
  | nil => cases hx
  | cons y r ih =>
    obtain ⟨hstart, hle, hrest⟩ := h
    rcases List.mem_cons.1 hx with rfl | hx
    · exact ⟨Int.le_of_eq hstart.symm, hstart ▸ hle, hrest.le_close⟩
    · obtain ⟨hfrom, hspan, hto⟩ := ih hrest hx
      exact ⟨Int.le_trans hle hfrom, hspan, hto⟩

end Chained

/-! ### The effect of a pass -/

/-- Enter the ends of executions. -/
def settleAll (xs : List (Stint κ)) (s : Scheduler κ) : Scheduler κ :=
  xs.foldl (fun s x => s.finish x.endsAt x.job x.ending) s

theorem loop_settleAll (xs : List (Stint κ)) (s : Scheduler κ) : (settleAll xs s).loop = s.loop := by
  induction xs generalizing s with
  | nil => rfl
  | cons x r ih => exact (ih _).trans (loop_finish ..)

theorem serials_finish (now : Time) (j : Job κ) (ending : Ending) (s : Scheduler κ) :
    (s.finish now j ending).serials = s.serials := by
  unfold finish
  split <;> rfl

theorem serials_settleAll (xs : List (Stint κ)) (s : Scheduler κ) :
    (settleAll xs s).serials = s.serials := by
  induction xs generalizing s with
  | nil => rfl
  | cons x r ih => exact (ih _).trans (serials_finish ..)

theorem Sound.settleAll (h : s.Sound) (xs : List (Stint κ)) : (settleAll xs s).Sound := by
  induction xs generalizing s with
  | nil => exact h
  | cons x r ih => exact ih (h.finish ..)

/-- A stopped loop does nothing while time passes. -/
theorem runThrough_stopped {_ : Callable κ} (h : s.loop = .stopped) (now limit : Time) :
    s.runThrough now limit = (max now limit, [], s) := by
  simp [runThrough, wake, stepsBetween, runSteps, wakeTime?, h]

/-- A call that is not awaited is over with its end entered. -/
theorem call_of_blocking {conduct : κ → Conduct} {d : Duration}
    (h : (conduct j.call).pace = .blocking d) (now : Time) (s : Scheduler κ) :
    @call κ (callable conduct) now j s =
      (.over (stint conduct now j).endsAt, (stint conduct now j).shows conduct,
        s.finish (stint conduct now j).endsAt j (stint conduct now j).ending) := by
  have hstint : stint conduct now j = ⟨j, now, now + max d 0, (conduct j.call).ending⟩ := by
    simp [stint, h]
  simp [call, h, hstint, Stint.shows, finish_enter_running, Pace.isAwaited]

/-- An awaited call goes on with the job marked as running. -/
theorem call_of_awaited {conduct : κ → Conduct} {d : Duration}
    (h : (conduct j.call).pace = .awaited d) (now : Time) (s : Scheduler κ) :
    @call κ (callable conduct) now j s =
      (.underway ⟨j, (stint conduct now j).endsAt, (stint conduct now j).ending⟩,
        [.called j.call now], s.enter j.serial fun j => { j with isRunning := true }) := by
  simp [call, stint, h]

/-- A pass is a row of executions, and their ends are entered one after another. -/
theorem callInTurn_eq (conduct : κ → Conduct) (now : Time) (js : List (Job κ))
    (h : s.loop = .stopped) :
    @callInTurn κ (callable conduct) now js s =
      (close now (stints conduct now js),
        (stints conduct now js).flatMap (Stint.shows conduct),
        settleAll (stints conduct now js) s) := by
  induction js generalizing now s with
  | nil => rfl
  | cons j r ih =>
    -- The rest of the pass begins where this execution ends, with its end entered.
    have hrest := ih (stint conduct now j).endsAt (s := s.finish (stint conduct now j).endsAt j
      (stint conduct now j).ending) ((loop_finish ..).trans h)
    cases hpace : (conduct j.call).pace with
    | blocking d =>
      unfold callInTurn
      rw [call_of_blocking hpace]
      dsimp only
      rw [hrest]
      simp [stints, close, settleAll]
    | awaited d =>
      unfold callInTurn
      rw [call_of_awaited hpace]
      dsimp only
      rw [Int.max_eq_right le_endsAt_stint, runThrough_stopped (by exact h),
        Int.max_eq_right le_endsAt_stint]
      simp only [complete, finish_enter_running]
      rw [hrest]
      simp [stints, close, settleAll, Stint.shows, hpace, Pace.isAwaited]

/-! ### The table after a pass -/

/-- What a pass makes of a job: its own execution settles it, if it was called. -/
def settled (xs : List (Stint κ)) (j : Job κ) : Option (Job κ) :=
  match Keyed.find? (fun x : Stint κ => x.job.serial) j.serial xs with
  | none => some j
  | some x => x.settle j

theorem settled_cons (x : Stint κ) (xs : List (Stint κ)) (j : Job κ) :
    settled (x :: xs) j = if x.job.serial = j.serial then x.settle j else settled xs j := by
  unfold settled Keyed.find?
  by_cases hx : x.job.serial = j.serial <;> simp [hx]

theorem settled_of_notMem {xs : List (Stint κ)} (h : j.serial ∉ xs.map fun x => x.job.serial) :
    settled xs j = some j := by
  unfold settled
  rw [(Keyed.find?_eq_none_iff _).2 h]

/-- A job after a pass is as it was and has not been called, or one of the executions settles it. -/
theorem eq_or_settle_of_settled {xs : List (Stint κ)} (h : settled xs j = some k) :
    (j.serial ∉ xs.map fun x => x.job.serial) ∧ k = j ∨
      ∃ x ∈ xs, x.job.serial = j.serial ∧ x.settle j = some k := by
  by_cases hmem : j.serial ∈ xs.map fun x => x.job.serial
  · unfold settled at h
    split at h
    · next hnone => exact absurd hmem ((Keyed.find?_eq_none_iff _).1 hnone)
    · next x hx =>
      exact .inr ⟨x, List.mem_of_find?_eq_some hx, by simpa using List.find?_some hx, h⟩
  · rw [settled_of_notMem hmem] at h
    exact .inl ⟨hmem, (Option.some.inj h).symm⟩

theorem Stint.serial_of_settle {x : Stint κ} (h : x.settle j = some k) : k.serial = j.serial := by
  obtain ⟨i, -, rfl⟩ := Option.map_eq_some_iff.1 h
  rfl

theorem settled_singleton (x : Stint κ) (j : Job κ) :
    settled [x] j = if x.job.serial = j.serial then x.settle j else some j := by
  rw [settled_cons, settled_of_notMem (by simp)]

/-- The end of an execution settles its job and no other one. -/
theorem jobs_finish (h : s.Sound) {x : Stint κ} (hx : x.job ∈ s.jobs) :
    (s.finish x.endsAt x.job x.ending).jobs = s.jobs.filterMap (settled [x]) := by
  obtain ⟨j, start, now, ending⟩ := x
  unfold finish
  cases hinterval : j.interval with
  | some i =>
    rw [jobs_enter, Keyed.update, ← List.filterMap_eq_map]
    refine List.filterMap_congr fun k hk => ?_
    rw [settled_singleton]
    by_cases he : k.serial = j.serial
    · obtain rfl := h.eq_of_serial hk hx he
      simp [Stint.settle, Job.afterCall, hinterval]
    · simp [he, Ne.symm he]
  | none =>
    rw [jobs_remove, Keyed.remove, jobs_enter, Keyed.update, ← List.filterMap_eq_map,
      List.filter_filterMap]
    refine List.filterMap_congr fun k hk => ?_
    rw [settled_singleton]
    by_cases he : k.serial = j.serial
    · obtain rfl := h.eq_of_serial hk hx he
      simp [Stint.settle, Job.afterCall, hinterval, Option.filter]
    · have hid : k.id ≠ j.id := fun e => he (congrArg Job.serial (h.eq_of_id hk hx e))
      simp [he, Ne.symm he, hid, Option.filter]

/-- Every job that was called is settled by its own execution, and every other one stays. -/
theorem jobs_settleAll {xs : List (Stint κ)} (h : s.Sound) (hmem : ∀ x ∈ xs, x.job ∈ s.jobs)
    (honce : (xs.map fun x => x.job.serial).Nodup) :
    (settleAll xs s).jobs = s.jobs.filterMap (settled xs) := by
  induction xs generalizing s with
  | nil => exact List.filterMap_some.symm
  | cons x r ih =>
    obtain ⟨hx, hr⟩ := List.forall_mem_cons.1 hmem
    obtain ⟨hnew, honce⟩ := List.nodup_cons.1 honce
    have hrest : ∀ y ∈ r, y.job ∈ (s.finish x.endsAt x.job x.ending).jobs := by
      intro y hy
      have hne : x.job.serial ≠ y.job.serial := fun e => hnew (List.mem_map.2 ⟨y, hy, e.symm⟩)
      rw [jobs_finish h hx]
      refine List.mem_filterMap.2 ⟨y.job, hr y hy, ?_⟩
      rw [settled_cons, if_neg hne, settled_of_notMem (by simp)]
    have hstep : settleAll (x :: r) s = settleAll r (s.finish x.endsAt x.job x.ending) := rfl
    rw [hstep, ih (h.finish ..) hrest honce, jobs_finish h hx, List.filterMap_filterMap]
    refine List.filterMap_congr fun j _ => ?_
    rw [settled_cons, settled_cons]
    by_cases he : x.job.serial = j.serial
    · rw [if_pos he, if_pos he]
      cases hsettle : x.settle j with
      | none => rfl
      | some k =>
        rw [Option.bind_some]
        refine settled_of_notMem ?_
        rwa [Stint.serial_of_settle hsettle, ← he]
    · rw [if_neg he, if_neg he, settled_of_notMem (by simp), Option.bind_some]

/-! ### What a pass serves -/

/-- A pass that begins at a time calls the jobs that are due then, and has some executions. -/
structure Serves (conduct : κ → Conduct) (now : Time) (s : Scheduler κ) (xs : List (Stint κ))
    (result : Nat × Time × List (Happening κ) × Scheduler κ) : Prop where
  /-- The jobs called are those whose time has come. -/
  due : (xs.map Stint.job).Perm (s.jobs.filter fun j => j.nextRun ≤ now)
  /-- None of them is called twice. -/
  once : (xs.map fun x => x.job.serial).Nodup
  urgency : (xs.map Stint.job).Pairwise fun j k => k.priority.rank ≤ j.priority.rank
  /-- Jobs of one urgency are called in the order in which they stand in the table. -/
  ties : ∀ n, (xs.map Stint.job).filter (fun j => j.priority.rank = n) =
    (s.jobs.filter fun j => j.nextRun ≤ now).filter fun j => j.priority.rank = n
  count : result.1 = (s.jobs.filter fun j => j.nextRun ≤ now).length
  shown : result.2.2.1 = xs.flatMap (Stint.shows conduct)
  chained : Chained now xs
  closed : result.2.1 = close now xs
  /-- Every execution takes its own course. -/
  course : ∀ x ∈ xs, x = stint conduct x.startsAt x.job
  /-- An execution does well exactly if its call does and keeps to its time. -/
  done : ∀ x ∈ xs, x.ending = .done ↔
    (conduct x.job.call).ending = .done ∧ ¬x.Overruns conduct
  /-- A job that was called is settled by its own execution; the others stay as they are. -/
  table : result.2.2.2.jobs = s.jobs.filterMap (settled xs)

namespace Serves

variable {conduct : κ → Conduct} {now : Time} {xs : List (Stint κ)}
  {result : Nat × Time × List (Happening κ) × Scheduler κ}

/-- What is executed stands in the table, and its time has come when it begins. -/
theorem mem_jobs (h : Serves conduct now s xs result) {x : Stint κ} (hx : x ∈ xs) :
    x.job ∈ s.jobs ∧ x.job.nextRun ≤ x.startsAt := by
  obtain ⟨hjob, hdue⟩ := List.mem_filter.1 (h.due.mem_iff.1 (List.mem_map_of_mem hx))
  exact ⟨hjob, Int.le_trans (of_decide_eq_true hdue) (h.chained.bounds hx).1⟩

theorem eq_of_serial (h : Serves conduct now s xs result) {x y : Stint κ} (hx : x ∈ xs)
    (hy : y ∈ xs) (hserial : x.job.serial = y.job.serial) : x = y :=
  List.inj_on_of_nodup_map h.once hx hy hserial

/-- A job that is in the table after a pass was there before. It is as it was and has not been called,
or one of the executions settles it. -/
theorem table_cases (h : Serves conduct now s xs result) (hk : k ∈ result.2.2.2.jobs) :
    ∃ j ∈ s.jobs, (j.serial ∉ xs.map fun x => x.job.serial) ∧ k = j ∨
      ∃ x ∈ xs, x.job.serial = j.serial ∧ x.settle j = some k := by
  rw [h.table] at hk
  obtain ⟨j, hj, hsettled⟩ := List.mem_filterMap.1 hk
  exact ⟨j, hj, eq_or_settle_of_settled hsettled⟩

end Serves

/-- The executions of a pass. -/
def stintsOfPass (conduct : κ → Conduct) (now : Time) (s : Scheduler κ) : List (Stint κ) :=
  stints conduct now (s.due now)

theorem pass_eq (h : s.loop = .stopped) (conduct : κ → Conduct) (now : Time) :
    s.pass conduct now = ((s.due now).length, close now (s.stintsOfPass conduct now),
      (s.stintsOfPass conduct now).flatMap (Stint.shows conduct),
      settleAll (s.stintsOfPass conduct now) s) := by
  unfold pass runPending
  dsimp only
  rw [callInTurn_eq conduct now _ h]
  rfl

theorem pass_serves (h : s.Sound) (hloop : s.loop = .stopped)
    (hidle : ∀ j ∈ s.jobs, j.isRunning = false) (conduct : κ → Conduct) (now : Time) :
    Serves conduct now s (s.stintsOfPass conduct now) (s.pass conduct now) := by
  have hdue : s.jobs.filter (Job.isDue now) = s.jobs.filter fun j => j.nextRun ≤ now :=
    List.filter_congr fun j hj => by simp [Job.isDue, hidle j hj]
  have hjobs : (s.stintsOfPass conduct now).map Stint.job = s.due now := map_job_stints _
  have hperm : (s.due now).Perm (s.jobs.filter fun j => j.nextRun ≤ now) :=
    hdue ▸ descending_perm _ _
  have hserials : (s.stintsOfPass conduct now).map (fun x => x.job.serial) =
      (s.due now).map Job.serial := by rw [← hjobs, List.map_map]; rfl
  have honce : ((s.stintsOfPass conduct now).map fun x => x.job.serial).Nodup := by
    rw [hserials, (hperm.map _).nodup_iff]
    exact h.serials.sublist (List.filter_sublist.map _)
  have hmem : ∀ x ∈ s.stintsOfPass conduct now, x.job ∈ s.jobs := by
    intro x hx
    have hjob : x.job ∈ s.due now := hjobs ▸ List.mem_map_of_mem hx
    exact (List.mem_filter.1 (hperm.mem_iff.1 hjob)).1
  rw [pass_eq hloop]
  exact {
    due := hjobs ▸ hperm
    once := honce
    urgency := hjobs ▸ pairwise_descending (fun j : Job κ => j.priority.rank) _
    ties n := by
      rw [hjobs, ← hdue]
      exact filter_descending (fun j : Job κ => j.priority.rank) n _
    count := hperm.length_eq
    shown := rfl
    chained := chained_stints ..
    closed := rfl
    course _ := eq_stint_of_mem
    done x hx := by
      rw [eq_stint_of_mem hx, job_stint]
      exact ending_stint_eq_done_iff
    table := jobs_settleAll h hmem honce }

end TieredMemory.Scheduler
