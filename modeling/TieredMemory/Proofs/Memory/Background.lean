import Mathlib.Data.List.Basic
import TieredMemory.Proofs.Memory.Activity
import TieredMemory.Proofs.Memory.Lasting
import TieredMemory.Proofs.Pattern.Background

/-!
# The background takes steps

The chores, the enrichments and the consolidations do their work in steps, and an enrichment brings
in nothing but what belongs to the user of its turn. So whatever the background does while a call
waits is a number of steps that respect every licence under which its enrichments stand
(`reach_settle`, `reach_wait`).
-/

namespace TieredMemory.Memory

variable {L : Licence} {m : Memory}

/-! ### Consolidations -/

theorem reach_startAll (now : Time) :
    Reach L m { m with patterns := m.patterns.startAll now } := by
  obtain ⟨held, background, h⟩ := m.patterns.startAll_eq now
  rw [h]
  exact .step (.consolidations _ held _ background)

theorem reach_finish (c : Consolidation) (s : PatternStore) (w : World) :
    Reach L { m with patterns := s, world := w }
      { m with patterns := (s.finish c w).1, world := (s.finish c w).2 } := by
  unfold PatternStore.finish
  simp only
  refine .trans (.step (.consolidations s.guards (s.held.filter (· ≠ c.guard)) s.guardCount
    s.background)) ?_
  split
  · exact .step (.world _)
  · exact .step (.consolidate c.user)

theorem reach_finishDue (now : Time) (s : PatternStore) (w : World) :
    Reach L { m with patterns := s, world := w }
      { m with patterns := (s.finishDue now w).1, world := (s.finishDue now w).2 } := by
  unfold PatternStore.finishDue
  simp only
  refine List.foldlRecOn (motive := fun r : PatternStore × World =>
    Reach L { m with patterns := s, world := w } { m with patterns := r.1, world := r.2 }) _ _ ?_ ?_
  · exact .step (.consolidations s.guards s.held s.guardCount _)
  · exact fun r h c _ => h.trans (reach_finish c r.1 r.2)

/-! ### Chores -/

theorem reach_tidy (user : String) : Reach L m (m.tidy user).2.2 :=
  .trans (.step (.prune m.now user)) (.step (.consolidate user))

theorem reach_tidyAll : Reach L m m.tidyAll :=
  List.foldlRecOn (motive := Reach L m) _ _ (.refl L m) fun _ h user _ => h.trans (reach_tidy user)

theorem reach_doChore (c : Chore) : Reach L m (m.doChore c) := by
  cases c with
  | sweep => exact .step (.sweep m.now)
  | maintain => exact reach_tidyAll

theorem reach_doChores (cs : List Chore) : Reach L m (cs.foldl doChore m) :=
  List.foldlRecOn (motive := Reach L m) _ _ (.refl L m) fun _ h c _ => h.trans (reach_doChore c)

theorem reach_wakeScheduler : Reach L m m.wakeScheduler.2 := .step (.scheduler _)

/-! ### Enrichments -/

theorem reach_finishActivity {user : String} (hu : L.user user) {a : Activity}
    (ha : a.Confined user) : Reach L m (a.finish m) :=
  (ha.finish m).mono (Licence.only_le hu)

theorem reach_enrichByRules {t : Turn} (hu : L.user t.user) (work : Work) :
    Reach L m (m.enrichByRules work t) := by
  rw [← Activity.finish_byRules]
  exact reach_finishActivity hu (Activity.confined_byRules work t)

theorem reach_enrichFromOutcome {t : Turn} (hu : L.user t.user) (work : Work)
    (outcome : Except Fault Json.Value) : Reach L m (m.enrichFromOutcome work t outcome) := by
  rw [← Activity.finish_fromOutcome]
  exact reach_finishActivity hu (Activity.confined_fromOutcome work t outcome)

theorem reach_append (hq : Queued L m) {e : Enrichment} (hu : L.user e.turn.user) :
    Reach L m { m with background := m.background ++ [e] } := by
  refine .step (.background _ fun e' he' => ?_)
  rcases List.mem_append.1 he' with he' | he'
  · exact hq e' he'
  · obtain rfl := List.mem_singleton.1 he'
    exact hu

theorem reach_startEnrichment (hq : Queued L m) {e : Enrichment} (hu : L.user e.turn.user) :
    Reach L m (m.startEnrichment e) := by
  unfold startEnrichment
  split
  · exact .step (.world _)
  · split
    · exact reach_enrichByRules hu e.work
    · next reply w _ =>
      have hworld : Reach L m { m with world := w } := .step (.world w)
      simp only
      split
      · exact hworld.trans (reach_enrichFromOutcome hu e.work reply.outcome)
      · exact hworld.trans
          (reach_append (m := { m with world := w }) hq (e := { e with progress := _ }) hu)

theorem reach_endEnrichment {e : Enrichment} (hu : L.user e.turn.user)
    (outcome : Option (Except Fault Json.Value)) : Reach L m (m.endEnrichment e outcome) := by
  cases outcome with
  | some outcome => exact reach_enrichFromOutcome hu e.work outcome
  | none => exact .step (.world _)

theorem reach_advance (hq : Queued L m) {e : Enrichment} (hu : L.user e.turn.user) :
    Reach L m (m.advance e) := by
  unfold advance
  split
  · exact reach_startEnrichment hq hu
  · split
    · exact reach_endEnrichment hu _
    · exact reach_append hq hu

theorem reach_advanceAll (hq : Queued L m) : Reach L m m.advanceAll := by
  refine List.foldlRecOn (motive := Reach L m) _ _ (.step (.background [] (by simp))) ?_
  exact fun m' h e he => h.trans (reach_advance (h.queued hq) (hq e he))

/-! ### Turns of the background -/

/-- Whatever is reached under a licence, the background only goes on from there. -/
theorem lasting_reach (hq : Queued L m) : Lasting (Reach L m) where
  clock _ _ h := h.trans (.step (.world _))
  start _ now h := h.trans (reach_startAll now)
  finish m' now h := h.trans (reach_finishDue now m'.patterns m'.world)
  enrich _ h := h.trans (reach_advanceAll (h.queued hq))
  wake _ h := ⟨h.trans reach_wakeScheduler, fun c _ _ h' => h'.trans (reach_doChore c)⟩

theorem reach_beforeParts : Reach L m m.beforeParts.2 := by
  unfold beforeParts
  simp only
  have hstart : Reach L m { m with patterns := m.patterns.startAll m.now } := reach_startAll m.now
  split
  · exact hstart.trans (reach_wakeScheduler.trans (reach_doChores _))
  · exact hstart

theorem reach_afterParts (hq : Queued L m) (chores : List Chore) :
    Reach L m (m.afterParts chores) :=
  (lasting_reach hq).afterParts (fun c _ _ h => h.trans (reach_doChore c)) (.refl L m)

/-- The parts of a call come between two turns of the background. -/
theorem reach_amid {α : Type} {parts : Memory → α × Memory} (hq : Queued L m)
    (h : ∀ m, Reach L m (parts m).2) : Reach L m (m.amid parts).2 :=
  (lasting_reach hq).amid (fun m' hm' => hm'.trans (h m')) (.refl L m)

theorem reach_settle (hq : Queued L m) : Reach L m m.settle := (lasting_reach hq).settle (.refl L m)

/-! ### Waiting -/

theorem reach_wait (d : Duration) (hq : Queued L m) : Reach L m (m.wait d) :=
  (lasting_reach hq).wait d (.refl L m)

theorem reach_awaitReply (d : Duration) (hq : Queued L m) : Reach L m (m.awaitReply d) :=
  (lasting_reach hq).awaitReply d (.refl L m)

theorem reach_drain (hq : Queued L m) : Reach L m m.drain := (lasting_reach hq).drain (.refl L m)

end TieredMemory.Memory
