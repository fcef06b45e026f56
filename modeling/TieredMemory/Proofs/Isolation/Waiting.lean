import TieredMemory.Proofs.Isolation.Guards

/-!
# Users of a pattern store: waiting

A store that waits goes from one wake time to the next. Without the consolidations of other users it
stops at fewer of them, but where it does not stop nothing of the user's is due, so the user finds
the same afterwards (`MirrorsBy.wait`, `MirrorsBy.waitAll`). What carries this is that after every
stop all consolidations are asleep: they have started and go to work later.
-/

namespace TieredMemory.PatternStore

variable {u : String} {ρ : Nat → Nat} {s s' : PatternStore} {w w' : World} {now time : Time}

/-! ### Stops -/

/-- Every consolidation in the background has started and goes to work later. -/
def Asleep (now : Time) (s : PatternStore) : Prop :=
  ∀ c ∈ s.background, ∃ time, c.wakeAt = some time ∧ now < time

theorem asleep_advance (s : PatternStore) (w : World) :
    (s.advance w).1.Asleep (s.advance w).2.now := by
  rw [now_advance]
  unfold advance
  intro c hc
  rw [background_finishDue] at hc
  obtain ⟨hmem, hdue⟩ := List.mem_filter.1 hc
  obtain ⟨time, htime⟩ := Option.isSome_iff_exists.1 (isSome_of_mem_startAll c hmem)
  refine ⟨time, htime, ?_⟩
  simpa [Consolidation.isDue, htime] using hdue

theorem Asleep.isSome (h : s.Asleep now) : ∀ c ∈ s.background, c.wakeAt.isSome := by
  intro c hc
  obtain ⟨time, htime, -⟩ := h c hc
  simp [htime]

/-- While all are asleep, nothing happens. -/
theorem Asleep.advance (h : s.Asleep w.now) : (s.advance w).1 = s := by
  have hlater : ∀ t ∈ s.wakeTimes, w.now < t := by
    intro t ht
    obtain ⟨c, hc, hwake⟩ := List.mem_filterMap.1 ht
    obtain ⟨time, htime, hlt⟩ := h c hc
    obtain rfl : t = time := Option.some.inj (hwake.symm.trans htime)
    exact hlt
  unfold PatternStore.advance
  rw [startAll_of_started h.isSome, finishDue_of_lt hlater]

/-- Where some consolidation is due, there are fewer afterwards. -/
theorem Asleep.length_lt (h : s.Asleep now) (htime : time ∈ s.wakeTimes) :
    (s.advance { w with now := time }).1.background.length < s.background.length := by
  unfold PatternStore.advance
  rw [background_finishDue, startAll_of_started h.isSome]
  obtain ⟨c, hc, hwake⟩ := List.mem_filterMap.1 htime
  exact List.length_filter_lt_length_iff_exists.2 ⟨c, hc, by simp [Consolidation.isDue, hwake]⟩

theorem runSteps_of_forall {p : Time → Bool} (h : ∀ time ∈ s.wakeTimes, p time = false) (n : Nat) :
    s.runSteps p n w = (s, w) := by
  cases n with
  | zero => rfl
  | succ n =>
    rw [runSteps]
    split
    · rfl
    · next time htime =>
      have hstop := h time (List.min?_eq_some_iff.1 htime).1
      simp [hstop]

/-- The next stop is made at the time when the first consolidation wakes. -/
theorem Asleep.runSteps {p : Time → Bool} (h : s.Asleep w.now)
    (htime : s.wakeTimes.min? = some time) (hp : p time = true) (n : Nat) :
    s.runSteps p (n + 1) w =
      (s.advance { w with now := time }).1.runSteps p n (s.advance { w with now := time }).2 := by
  obtain ⟨c, hc, hwake⟩ := List.mem_filterMap.1 (List.min?_eq_some_iff.1 htime).1
  obtain ⟨time', htime', hlt⟩ := h c hc
  obtain rfl : time = time' := Option.some.inj (hwake.symm.trans htime')
  rw [PatternStore.runSteps, htime]
  simp only [hp, if_true, max_eq_right hlt.le]

namespace MirrorsBy

theorem advance (h : MirrorsBy u ρ s s') (hnow : w.now = w'.now) :
    MirrorsBy u ρ (s.advance w).1 (s'.advance w').1 := by
  unfold PatternStore.advance
  rw [hnow]
  exact (h.startAll w'.now).finishDue w'.now w w'

theorem wakeTimes_subset (h : MirrorsBy u ρ s s') : s'.wakeTimes ⊆ s.wakeTimes := by
  intro time htime
  obtain ⟨c, hc, hwake⟩ := List.mem_filterMap.1 htime
  have hmem : renumbered ρ c ∈ s.background.filter fun c => c.user == u :=
    h.background ▸ List.mem_map_of_mem hc
  exact List.mem_filterMap.2 ⟨renumbered ρ c, (List.mem_filter.1 hmem).1, hwake⟩

/-- The second store stops wherever something of the user's is due. -/
theorem runSteps {p : Time → Bool} (hp : ∀ t t', t ≤ t' → p t' = true → p t = true) {n n' : Nat}
    (h : MirrorsBy u ρ s s') (hs : s.Asleep w.now) (hs' : s'.Asleep w'.now)
    (hn : s.background.length ≤ n) (hn' : s'.background.length ≤ n') :
    MirrorsBy u ρ (s.runSteps p n w).1 (s'.runSteps p n' w').1 := by
  induction n generalizing s s' w w' n' with
  | zero =>
    have hnil : s.background = [] := List.length_eq_zero_iff.1 (Nat.le_zero.1 hn)
    have hstop : ∀ time ∈ s.wakeTimes, p time = false := by simp [wakeTimes, hnil]
    rw [runSteps_of_forall hstop, runSteps_of_forall fun t ht => hstop t (h.wakeTimes_subset ht)]
    exact h
  | succ n ih =>
    by_cases hstop : ∀ time ∈ s.wakeTimes, p time = false
    · rw [runSteps_of_forall hstop, runSteps_of_forall fun t ht => hstop t (h.wakeTimes_subset ht)]
      exact h
    · obtain ⟨time, htime, hptime⟩ : ∃ time, s.wakeTimes.min? = some time ∧ p time = true := by
        obtain ⟨t, ht, hpt⟩ : ∃ t ∈ s.wakeTimes, p t = true := by simpa using hstop
        obtain ⟨time, htime⟩ := Option.ne_none_iff_exists'.1
          fun hnone => List.ne_nil_of_mem ht (List.min?_eq_none_iff.1 hnone)
        exact ⟨time, htime, hp time t ((List.min?_eq_some_iff.1 htime).2 t ht) hpt⟩
      obtain ⟨hmem, hleast⟩ := List.min?_eq_some_iff.1 htime
      have hlength := hs.length_lt hmem (w := w)
      have hadvance : MirrorsBy u ρ (s.advance { w with now := time }).1
          (s'.advance { w' with now := time }).1 := h.advance rfl
      rw [hs.runSteps htime hptime]
      by_cases hdue : time ∈ s'.wakeTimes
      · -- Both stop at this time.
        have htime' : s'.wakeTimes.min? = some time :=
          List.min?_eq_some_iff.2 ⟨hdue, fun t ht => hleast t (h.wakeTimes_subset ht)⟩
        have hlength' := hs'.length_lt hdue (w := w')
        obtain ⟨m, rfl⟩ : ∃ m, n' = m + 1 := ⟨n' - 1, by omega⟩
        rw [hs'.runSteps htime' hptime]
        exact ih hadvance (asleep_advance _ _) (asleep_advance _ _) (by omega) (by omega)
      · -- Only others are due, and the second store does not stop.
        have hlater : s'.Asleep time := by
          intro c hc
          obtain ⟨t, ht, -⟩ := hs' c hc
          have hmem : t ∈ s'.wakeTimes := List.mem_filterMap.2 ⟨c, hc, ht⟩
          have hne : time ≠ t := fun e => hdue (e ▸ hmem)
          exact ⟨t, ht, lt_of_le_of_ne (hleast t (h.wakeTimes_subset hmem)) hne⟩
        rw [Asleep.advance (w := { w' with now := time }) hlater] at hadvance
        exact ih hadvance (asleep_advance _ _) hs' (by omega) hn'

theorem wait (h : MirrorsBy u ρ s s') (d : Duration) (hnow : w.now = w'.now) :
    MirrorsBy u ρ (s.wait d w).1 (s'.wait d w').1 := by
  unfold PatternStore.wait
  simp only [hnow]
  refine (h.advance hnow).runSteps (fun t t' hle ht' => ?_) (asleep_advance s w)
    (asleep_advance s' w') le_rfl le_rfl
  have hlt : t' < w'.now + max d 0 := by simpa using ht'
  simpa using lt_of_le_of_lt hle hlt

theorem waitAll (h : MirrorsBy u ρ s s') (hnow : w.now = w'.now) :
    MirrorsBy u ρ (s.waitAll w).1 (s'.waitAll w').1 := by
  unfold PatternStore.waitAll
  exact (h.advance hnow).runSteps (fun _ _ _ _ => rfl) (asleep_advance s w) (asleep_advance s' w')
    le_rfl le_rfl

end MirrorsBy

end TieredMemory.PatternStore
