import TieredMemory.Memory.Background

/-!
# What the background leaves alone

The background does its work in a few ways: consolidations start and end, enrichments go on, the
scheduler calls its chores, and time passes. A property that none of these takes from a memory is
*lasting*: it is still there after every turn of the background and after any time for which a call
waits (`Lasting.settle`, `Lasting.wait`, `Lasting.drain`).
-/

namespace TieredMemory.Memory

/-- The chore does not take the property from a memory. -/
def Harmless (P : Memory → Prop) (c : Chore) : Prop := ∀ m, P m → P (m.doChore c)

/-- Nothing in the background takes the property from a memory. -/
structure Lasting (P : Memory → Prop) : Prop where
  clock : ∀ m t, P m → P (m.atTime t)
  start : ∀ m now, P m → P { m with patterns := m.patterns.startAll now }
  finish : ∀ m now, P m → P { m with
    patterns := (m.patterns.finishDue now m.world).1
    world := (m.patterns.finishDue now m.world).2 }
  enrich : ∀ m, P m → P m.advanceAll
  wake : ∀ m, P m → P m.wakeScheduler.2 ∧ ∀ c ∈ m.wakeScheduler.1, Harmless P c

namespace Lasting

variable {P : Memory → Prop} {m : Memory}

theorem doChores {cs : List Chore} (hcs : ∀ c ∈ cs, Harmless P c) (h : P m) :
    P (cs.foldl doChore m) :=
  List.foldlRecOn (motive := P) cs doChore h fun m h c hc => hcs c hc m h

/-! ### Turns of the background -/

theorem beforeParts (hP : Lasting P) (h : P m) :
    P m.beforeParts.2 ∧ ∀ c ∈ m.beforeParts.1, Harmless P c := by
  unfold Memory.beforeParts
  have hstarted := hP.start m m.now h
  simp only
  split
  · obtain ⟨hwoken, hcalled⟩ := hP.wake _ hstarted
    simp only [List.partition_eq_filter_filter]
    exact ⟨doChores (fun c hc => hcalled c (List.mem_filter.1 hc).1) hwoken,
      fun c hc => hcalled c (List.mem_filter.1 hc).1⟩
  · exact ⟨hstarted, by simp⟩

theorem consolidateDue (hP : Lasting P) (h : P m) : P m.consolidateDue :=
  hP.finish _ m.now (hP.start m m.now h)

theorem afterParts (hP : Lasting P) {chores : List Chore} (hchores : ∀ c ∈ chores, Harmless P c)
    (h : P m) : P (m.afterParts chores) := by
  have henriched := hP.enrich _ (doChores hchores h)
  obtain ⟨hwoken, hcalled⟩ := hP.wake _ (hP.consolidateDue henriched)
  exact doChores hcalled hwoken

/-- The parts of a call come between two turns of the background. -/
theorem amid (hP : Lasting P) {α : Type} {parts : Memory → α × Memory}
    (hparts : ∀ m, P m → P (parts m).2) (h : P m) : P (m.amid parts).2 := by
  obtain ⟨hbegun, hchores⟩ := hP.beforeParts h
  exact hP.afterParts hchores (hparts _ hbegun)

theorem settle (hP : Lasting P) (h : P m) : P m.settle := hP.amid (fun _ h => h) h

/-- What the enrichments bring about is there after a turn of the background, if it lasts. -/
theorem settle_then {Q : Memory → Prop} (hP : Lasting P) (hQ : Lasting Q)
    (henrich : ∀ m, P m → Q m.advanceAll) (h : P m) : Q m.settle := by
  obtain ⟨hbegun, hchores⟩ := hP.beforeParts h
  have henriched := henrich _ (doChores hchores hbegun)
  obtain ⟨hwoken, hcalled⟩ := hQ.wake _ (hQ.consolidateDue henriched)
  exact doChores hcalled hwoken

/-! ### Waiting -/

theorem runSteps (hP : Lasting P) (limit : Time) (n : Nat) (h : P m) :
    P (Memory.runSteps limit n m) := by
  induction n generalizing m with
  | zero => exact h
  | succ n ih =>
    rw [Memory.runSteps]
    split
    · exact h
    · split
      · exact ih (hP.settle (hP.clock m _ h))
      · exact h

theorem runUntil (hP : Lasting P) (limit : Time) (h : P m) : P (m.runUntil limit) :=
  hP.runSteps limit _ h

theorem wait (hP : Lasting P) (d : Duration) (h : P m) : P (m.wait d) :=
  hP.clock _ _ (hP.runUntil _ (hP.settle h))

theorem waitThrough (hP : Lasting P) (limit : Time) (h : P m) : P (m.waitThrough limit) :=
  hP.settle (hP.clock _ _ (hP.runUntil limit h))

theorem awaitReply (hP : Lasting P) (delay : Duration) (h : P m) : P (m.awaitReply delay) := by
  unfold Memory.awaitReply
  split
  · exact hP.wait delay h
  · exact h

theorem drainEnrichments (hP : Lasting P) (h : P m) : P m.drainEnrichments := by
  unfold Memory.drainEnrichments
  split
  · exact h
  · simp only
    split
    · exact hP.settle h
    · exact hP.waitThrough _ (hP.settle h)

theorem drainConsolidations (hP : Lasting P) (h : P m) : P m.drainConsolidations := by
  unfold Memory.drainConsolidations
  split
  · exact h
  · simp only
    split
    · exact hP.settle h
    · exact hP.waitThrough _ (hP.settle h)

theorem drain (hP : Lasting P) (h : P m) : P m.drain :=
  hP.drainConsolidations (hP.drainEnrichments h)

end Lasting

end TieredMemory.Memory
