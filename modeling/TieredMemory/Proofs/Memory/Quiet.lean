import Mathlib.Data.List.Basic
import TieredMemory.Memory.Operations
import TieredMemory.Proofs.Pattern.Background

/-!
# While the background has nothing to do

The background is *quiet* until a time if it has nothing to do up to then, that time included: all
consolidations have started, and whatever goes on in the background wakes later. A call that waits
no longer finds everything as it was but the clock (`awaitReply_of_quiet`). When its parts are done
and nothing is due, nothing follows but the consolidations that the parts have set going
(`afterParts_of_idle`); with a debounce to wait for, these only start (`consolidateDue_of_idle`).
-/

namespace TieredMemory

/-! ### Parts of the background -/

theorem Scheduler.wake_of_lt {κ : Type} [Callable κ] {now : Time} {s : Scheduler κ}
    (h : ∀ t ∈ s.wakeTime? now, now < t) : s.wake now = (now, [], s) := by
  unfold wakeTime? at h
  unfold wake
  cases hloop : s.loop with
  | stopped => rfl
  | starting =>
    rw [hloop] at h
    exact absurd (h now rfl) (Int.lt_irrefl now)
  | sleeping t =>
    rw [hloop] at h
    exact if_neg (Int.not_le.2 (h t rfl))
  | calling e waiting =>
    rw [hloop] at h
    exact if_neg (Int.not_le.2 (h e.endsAt rfl))

namespace Memory

variable {m m' : Memory} {limit : Time}

/-! ### Nothing is due -/

/-- Nothing in the background is due now. -/
def Idle (m : Memory) : Prop := ∀ t ∈ m.wakeTimes, m.now < t

theorem advanceAll_of_idle (h : m.Idle) : m.advanceAll = m := by
  -- the enrichments gone through are in the background again, in their order
  have hfold : ∀ (es done : List Enrichment), (∀ e ∈ es, m.now < Enrichment.wakeTime m.now e) →
      es.foldl advance { m with background := done } = { m with background := done ++ es } := by
    intro es
    induction es with
    | nil => intro done _; simp
    | cons e es ih =>
      intro done hes
      obtain ⟨he, hes⟩ := List.forall_mem_cons.1 hes
      have hadvance : advance { m with background := done } e =
          { m with background := done ++ [e] } := by
        unfold advance
        unfold Enrichment.wakeTime at he
        cases hp : e.progress with
        | waiting =>
          rw [hp] at he
          exact absurd he (Int.lt_irrefl m.now)
        | underway endsAt outcome =>
          rw [hp] at he
          exact if_neg (Int.not_le.2 he)
      rw [List.foldl_cons, hadvance, ih (done ++ [e]) hes, List.append_assoc,
        List.singleton_append]
  refine hfold m.background [] fun e he => h _ ?_
  exact List.mem_append_left _ (List.mem_append_left _ (List.mem_map_of_mem he))

theorem now_consolidateDue (m : Memory) : m.consolidateDue.now = m.now :=
  PatternStore.now_advance

/-- What is left to do are the consolidations. -/
theorem afterParts_of_idle (h : m.Idle) : m.afterParts [] = m.consolidateDue := by
  have hscheduler : m.scheduler.wake m.now = (m.now, [], m.scheduler) :=
    Scheduler.wake_of_lt fun t ht =>
      h t (List.mem_append_right _ (Option.mem_toList.2 ht))
  have hsame : m.consolidateDue.scheduler = m.scheduler := rfl
  unfold afterParts
  simp only [List.foldl_nil, advanceAll_of_idle h, wakeScheduler, hsame, now_consolidateDue,
    hscheduler]
  rfl

/-- The memory when the consolidations have started that have been set going. -/
def begun (m : Memory) : Memory := { m with patterns := m.patterns.startAll m.now }

/-- The consolidations that have been set going have a debounce to wait for. -/
def Debounced (m : Memory) : Prop :=
  (∃ c ∈ m.patterns.background, c.wakeAt = none) → m.now < m.patterns.wakeTime m.now

theorem Idle.begun (h : m.Idle) (hdebounced : m.Debounced) : m.begun.Idle := by
  intro t ht
  unfold wakeTimes at ht
  rcases List.mem_append.1 ht with ht | ht
  · rcases List.mem_append.1 ht with ht | ht
    · exact h t (List.mem_append_left _ (List.mem_append_left _ ht))
    · rcases PatternStore.mem_wakeTimes_startAll ht with ht | ⟨rfl, hwaiting⟩
      · exact h t (List.mem_append_left _ (List.mem_append_right _ ht))
      · exact hdebounced hwaiting
  · exact h t (List.mem_append_right _ ht)

theorem consolidateDue_of_idle (h : m.begun.Idle) : m.consolidateDue = m.begun := by
  have hnone : (m.patterns.startAll m.now).finishDue m.now m.world =
      (m.patterns.startAll m.now, m.world) :=
    PatternStore.finishDue_of_lt
      (fun t ht => h t (List.mem_append_left _ (List.mem_append_right _ ht))) m.world
  have hadvance : m.patterns.advance m.world = (m.patterns.startAll m.now, m.world) := hnone
  unfold consolidateDue
  simp only [hadvance]
  rfl

theorem begun_of_started (h : ∀ c ∈ m.patterns.background, c.wakeAt.isSome) : m.begun = m := by
  unfold begun
  rw [PatternStore.startAll_of_started h]

/-! ### Nothing is due for a while -/

/-- All consolidations have started, and whatever goes on in the background wakes after the time. -/
structure QuietUntil (limit : Time) (m : Memory) : Prop where
  started : ∀ c ∈ m.patterns.background, c.wakeAt.isSome
  later : ∀ t ∈ m.wakeTimes, limit < t

namespace QuietUntil

theorem idle (h : m.QuietUntil limit) (hnow : m.now ≤ limit) : m.Idle :=
  fun t ht => Int.lt_of_le_of_lt hnow (h.later t ht)

theorem congr (h : m.QuietUntil limit) (hbackground : m'.background = m.background)
    (hpatterns : m'.patterns = m.patterns) (hscheduler : m'.scheduler = m.scheduler)
    (hnow : m'.now = m.now) : m'.QuietUntil limit := by
  refine ⟨?_, ?_⟩
  · rw [hpatterns]
    exact h.started
  · unfold wakeTimes
    rw [hbackground, hpatterns, hscheduler, hnow]
    exact h.later

/-- Neither an enrichment nor the scheduler waits to be started, so the clock does not matter. -/
theorem atTime (h : m.QuietUntil limit) (hnow : m.now ≤ limit) (t : Time) :
    (m.atTime t).QuietUntil limit := by
  refine ⟨h.started, fun w hw => ?_⟩
  have hstarted : m.now ∉ m.wakeTimes := fun hmem =>
    absurd (h.later _ hmem) (Int.not_lt.2 hnow)
  refine h.later w ?_
  unfold wakeTimes at hw hstarted ⊢
  simp only [List.mem_append, not_or] at hw hstarted ⊢
  obtain ⟨⟨henrichments, -⟩, hscheduler⟩ := hstarted
  refine hw.imp (Or.imp_left fun hw => ?_) fun hw => ?_
  · obtain ⟨e, he, rfl⟩ := List.mem_map.1 hw
    refine List.mem_map.2 ⟨e, he, ?_⟩
    unfold Enrichment.wakeTime at henrichments ⊢
    cases hp : e.progress with
    | waiting => exact absurd (List.mem_map.2 ⟨e, he, by rw [hp]⟩) henrichments
    | underway endsAt outcome => rfl
  · have hsame : (m.atTime t).scheduler.loop = m.scheduler.loop := rfl
    unfold Scheduler.wakeTime? at hscheduler hw ⊢
    rw [hsame] at hw
    cases hloop : m.scheduler.loop with
    | starting => simp [hloop] at hscheduler
    | _ =>
      rw [hloop] at hw
      exact hw

theorem beforeParts (h : m.QuietUntil limit) (hnow : m.now ≤ limit) : m.beforeParts = ([], m) := by
  have hstarted : { m with patterns := m.patterns.startAll m.now } = m :=
    begun_of_started h.started
  unfold Memory.beforeParts
  simp only [hstarted]
  split
  · next hloop =>
    have hwake : m.now ∈ m.wakeTimes := by
      unfold wakeTimes Scheduler.wakeTime?
      simp [hloop]
    exact absurd (h.later _ hwake) (Int.not_lt.2 hnow)
  · rfl

/-- The parts of a call are all that is done before the background may have its turn. -/
theorem amid {α : Type} (h : m.QuietUntil limit) (hnow : m.now ≤ limit)
    (parts : Memory → α × Memory) :
    m.amid parts = ((parts m).1, (parts m).2.afterParts []) := by
  unfold Memory.amid
  simp only [h.beforeParts hnow]

theorem settle (h : m.QuietUntil limit) (hnow : m.now ≤ limit) : m.settle = m := by
  have hidle := h.idle hnow
  have hbegun : m.begun = m := begun_of_started h.started
  unfold Memory.settle
  rw [h.amid hnow]
  calc m.afterParts [] = m.consolidateDue := afterParts_of_idle hidle
    _ = m.begun := consolidateDue_of_idle (hbegun.symm ▸ hidle)
    _ = m := hbegun

theorem runUntil (h : m.QuietUntil limit) : m.runUntil limit = m := by
  unfold Memory.runUntil runSteps
  split
  · rfl
  · next t ht =>
    have hlater := h.later t (List.min?_mem ht)
    exact if_neg (Int.not_lt.2 (Int.le_of_lt hlater))

theorem wait {d : Duration} (h : m.QuietUntil (m.now + d)) (hd : 0 ≤ d) :
    m.wait d = m.atTime (m.now + d) := by
  have hnow : m.now ≤ m.now + d := Int.le_add_of_nonneg_right hd
  unfold Memory.wait
  simp only [h.settle hnow, h.runUntil]

end QuietUntil

theorem awaitReply_of_quiet {delay : Duration} (h : m.QuietUntil (m.now + max delay 0)) :
    m.awaitReply delay = m.atTime (m.now + max delay 0) := by
  unfold awaitReply
  by_cases hdelay : 0 < delay
  · have hpositive := Int.le_of_lt hdelay
    rw [Int.max_eq_left hpositive] at h ⊢
    rw [if_pos hdelay]
    exact h.wait hpositive
  · rw [if_neg hdelay, Int.max_eq_right (Int.not_lt.1 hdelay), Int.add_zero]
    rfl

end Memory

end TieredMemory
