import Mathlib.Data.List.Basic
import TieredMemory.PatternStore

/-!
# The background of a pattern store

Consolidations are set going, start, wait and go to work one after another. One that is set going
waits to be started (`schedule_inv`); starting changes nothing but the guards that are held and the
background (`startAll_eq`), one that has started does not start again (`startAll_of_started`), the
others wake after the debounce (`mem_wakeTimes_startAll`), and none goes to work before its time
(`finishDue_of_lt`). Whatever the background does, it does by starting and by consolidating, and so
it keeps what these two keep (`Abides`).
-/

namespace TieredMemory.PatternStore

variable {s : PatternStore} {now : Time} {w : World}

/-! ### Setting going -/

/-- At most one consolidation is set going, and it waits to be started. -/
theorem schedule_inv (user : String) (s : PatternStore) :
    ∃ guards guardCount, ∃ scheduled : Option Consolidation,
      (∀ c ∈ scheduled, c.user = user ∧ c.wakeAt = none) ∧
      s.schedule user =
        { s with guards, guardCount, background := s.background ++ scheduled.toList } := by
  have hguard : ∃ guards guardCount,
      (s.guardOf user).2 = { s with guards, guardCount } := by
    unfold guardOf
    split
    · exact ⟨_, _, rfl⟩
    · exact ⟨_, _, rfl⟩
  obtain ⟨guards, guardCount, hguard⟩ := hguard
  unfold schedule
  simp only [hguard]
  split
  · exact ⟨guards, guardCount, none, by simp, by simp⟩
  · exact ⟨guards, guardCount, some ⟨user, (s.guardOf user).1, none⟩, by simp, rfl⟩

/-! ### Starting -/

/-- A consolidation starts, unless its guard is held or it has started. -/
def start (now : Time) (s : PatternStore) (c : Consolidation) : PatternStore :=
  match c.wakeAt with
  | some _ => { s with background := s.background ++ [c] }
  | none =>
    if c.guard ∈ s.held then s
    else
      { s with
        held := s.held ++ [c.guard]
        background := s.background ++ [{ c with wakeAt := some (s.wakeTime now) }] }

theorem startAll_eq_foldl (now : Time) (s : PatternStore) :
    s.startAll now = s.background.foldl (start now) { s with background := [] } := rfl

theorem start_eq (now : Time) (s : PatternStore) (c : Consolidation) :
    ∃ held background, s.start now c = { s with held, background } := by
  unfold start
  split
  · exact ⟨_, _, rfl⟩
  · split <;> exact ⟨_, _, rfl⟩

theorem startAll_eq (now : Time) (s : PatternStore) :
    ∃ held background, s.startAll now = { s with held, background } := by
  rw [startAll_eq_foldl]
  refine List.foldlRecOn
    (motive := fun r : PatternStore => ∃ held background, r = { s with held, background })
    _ _ ⟨_, _, rfl⟩ ?_
  rintro r ⟨held, background, rfl⟩ c -
  exact start_eq now _ c

/-- Whatever is left after a start has started. -/
theorem isSome_of_mem_startAll :
    ∀ c ∈ (s.startAll now).background, c.wakeAt.isSome := by
  rw [startAll_eq_foldl]
  refine List.foldlRecOn (motive := fun r : PatternStore => ∀ c ∈ r.background, c.wakeAt.isSome)
    _ _ (by simp) fun r hr c _ => ?_
  unfold start
  split
  · next hwake => exact List.forall_mem_append.2 ⟨hr, by simp [hwake]⟩
  · split
    · exact hr
    · exact List.forall_mem_append.2 ⟨hr, by simp⟩

/-- The consolidations that have started are in the background again, in their order. -/
theorem foldl_start_of_started {l : List Consolidation} (hl : ∀ c ∈ l, c.wakeAt.isSome)
    (r : PatternStore) : l.foldl (start now) r = { r with background := r.background ++ l } := by
  induction l generalizing r with
  | nil => simp
  | cons c l ih =>
    obtain ⟨hc, hl⟩ := List.forall_mem_cons.1 hl
    obtain ⟨time, htime⟩ := Option.isSome_iff_exists.1 hc
    rw [List.foldl_cons, ih hl]
    simp [start, htime]

/-- What has started does not start again. -/
theorem startAll_of_started (h : ∀ c ∈ s.background, c.wakeAt.isSome) : s.startAll now = s := by
  rw [startAll_eq_foldl, foldl_start_of_started h]
  rfl

/-- Where all others have started, only the last one may start. It does so, unless its guard is
held. -/
theorem startAll_concat_cases (now : Time) {l : List Consolidation} {c : Consolidation}
    (hl : ∀ c ∈ l, c.wakeAt.isSome) (hs : s.background = l ++ [c]) (hc : c.wakeAt = none) :
    s.startAll now = { s with background := l } ∨
      s.startAll now = { s with
        held := s.held ++ [c.guard]
        background := l ++ [{ c with wakeAt := some (s.wakeTime now) }] } := by
  have hlast : s.startAll now = start now { s with background := l } c := by
    rw [startAll_eq_foldl, hs, List.foldl_append, foldl_start_of_started hl]
    rfl
  rw [hlast]
  unfold start
  simp only [hc]
  split
  · exact .inl rfl
  · exact .inr rfl

/-- What is in the background after a start was there before, or it has started now and waits for
the debounce. -/
theorem mem_startAll {c : Consolidation} (hc : c ∈ (s.startAll now).background) :
    c ∈ s.background ∨
      ∃ c₀ ∈ s.background, c₀.wakeAt = none ∧ c.wakeAt = some (s.wakeTime now) := by
  have hall : (s.startAll now).consolidationDebounce = s.consolidationDebounce ∧
      ∀ c ∈ (s.startAll now).background, c ∈ s.background ∨
        ∃ c₀ ∈ s.background, c₀.wakeAt = none ∧ c.wakeAt = some (s.wakeTime now) := by
    rw [startAll_eq_foldl]
    refine List.foldlRecOn (motive := fun r : PatternStore =>
      r.consolidationDebounce = s.consolidationDebounce ∧
        ∀ c ∈ r.background, c ∈ s.background ∨
          ∃ c₀ ∈ s.background, c₀.wakeAt = none ∧ c.wakeAt = some (s.wakeTime now))
      _ _ ⟨rfl, by simp⟩ ?_
    rintro r ⟨hdebounce, hr⟩ c₀ hc₀
    unfold start
    split
    · exact ⟨hdebounce, List.forall_mem_append.2 ⟨hr, List.forall_mem_singleton.2 (.inl hc₀)⟩⟩
    · next hwake =>
      split
      · exact ⟨hdebounce, hr⟩
      · have htime : r.wakeTime now = s.wakeTime now := by
          unfold wakeTime
          rw [hdebounce]
        refine ⟨hdebounce, List.forall_mem_append.2 ⟨hr, List.forall_mem_singleton.2 (.inr ?_)⟩⟩
        exact ⟨c₀, hc₀, hwake, congrArg some htime⟩
  exact hall.2 c hc

/-- What starts wakes after the debounce. -/
theorem mem_wakeTimes_startAll {t : Time} (ht : t ∈ (s.startAll now).wakeTimes) :
    t ∈ s.wakeTimes ∨ t = s.wakeTime now ∧ ∃ c ∈ s.background, c.wakeAt = none := by
  obtain ⟨c, hc, hwake⟩ := List.mem_filterMap.1 ht
  rcases mem_startAll hc with hc | ⟨c₀, hc₀, hnone, hstarted⟩
  · exact .inl (List.mem_filterMap.2 ⟨c, hc, hwake⟩)
  · exact .inr ⟨Option.some.inj (hwake.symm.trans hstarted), c₀, hc₀, hnone⟩

/-! ### Going to work -/

theorem background_finish (c : Consolidation) (s : PatternStore) (w : World) :
    (s.finish c w).1.background = s.background := by
  unfold finish
  simp only
  split <;> rfl

theorem now_finish (c : Consolidation) (s : PatternStore) (w : World) :
    (s.finish c w).2.now = w.now := by
  unfold finish
  simp only
  split <;> rfl

theorem background_finishDue :
    (s.finishDue now w).1.background =
      s.background.filter fun c => !Consolidation.isDue now c := by
  unfold finishDue
  exact List.foldlRecOn (motive := fun r : PatternStore × World => r.1.background =
    s.background.filter fun c => !Consolidation.isDue now c) _ _ rfl
    fun r hr c _ => (background_finish c r.1 r.2).trans hr

theorem now_advance : (s.advance w).2.now = w.now := by
  unfold advance finishDue
  exact List.foldlRecOn (motive := fun r : PatternStore × World => r.2.now = w.now) _ _ rfl
    fun r hr c _ => (now_finish c r.1 r.2).trans hr

/-- None goes to work before its time. -/
theorem finishDue_of_lt (h : ∀ t ∈ s.wakeTimes, now < t) (w : World) :
    s.finishDue now w = (s, w) := by
  have hdue : ∀ c ∈ s.background, Consolidation.isDue now c = false := by
    intro c hc
    unfold Consolidation.isDue
    cases ht : c.wakeAt with
    | none => rfl
    | some t =>
      have hlater := h t (List.mem_filterMap.2 ⟨c, hc, ht⟩)
      simpa using hlater
  have hnone : s.background.filter (Consolidation.isDue now) = [] :=
    List.filter_eq_nil_iff.2 fun c hc => by simp [hdue c hc]
  have hall : s.background.filter (fun c => !Consolidation.isDue now c) = s.background :=
    List.filter_eq_self.2 fun c hc => by simp [hdue c hc]
  unfold finishDue
  simp only [hnone, hall, List.foldl_nil]

/-! ### What the background keeps -/

/-- What holds between a store and a later one whatever has been done in the background: it holds
across consolidations, and what is held and what is in the background has no part in it. -/
structure Abides (R : PatternStore → PatternStore → Prop) : Prop where
  idle : ∀ s held background, R s { s with held, background }
  consolidate : ∀ s user, R s (s.consolidate user).2
  trans : ∀ {s s' s''}, R s s' → R s' s'' → R s s''

namespace Abides

variable {R : PatternStore → PatternStore → Prop} (h : Abides R) (s : PatternStore) (w : World)

include h

theorem refl : R s s := h.idle s s.held s.background

theorem startAll (now : Time) : R s (s.startAll now) := by
  obtain ⟨held, background, heq⟩ := s.startAll_eq now
  rw [heq]
  exact h.idle s held background

theorem finish (c : Consolidation) : R s (s.finish c w).1 := by
  have hreleased : R s { s with held := s.held.filter (· ≠ c.guard) } :=
    h.idle s _ s.background
  unfold PatternStore.finish
  simp only
  split
  · exact hreleased
  · exact h.trans hreleased (h.consolidate _ c.user)

theorem finishDue (now : Time) : R s (s.finishDue now w).1 := by
  refine List.foldlRecOn (motive := fun r : PatternStore × World => R s r.1) _ _
    (h.idle s s.held _) ?_
  exact fun r hr c _ => h.trans hr (h.finish r.1 r.2 c)

theorem advance : R s (s.advance w).1 := h.trans (h.startAll s w.now) (h.finishDue _ w w.now)

theorem runSteps (p : Time → Bool) (n : Nat) : R s (s.runSteps p n w).1 := by
  induction n generalizing s w with
  | zero => exact h.refl s
  | succ n ih =>
    rw [PatternStore.runSteps]
    split
    · exact h.refl s
    · split
      · exact h.trans (h.advance s _) (ih _ _)
      · exact h.refl s

theorem wait (d : Duration) : R s (s.wait d w).1 :=
  h.trans (h.advance s w) (h.runSteps _ _ _ _)

theorem waitAll : R s (s.waitAll w).1 := h.trans (h.advance s w) (h.runSteps _ _ _ _)

end Abides

end TieredMemory.PatternStore
