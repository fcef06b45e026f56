import TieredMemory.Proofs.Pattern.Conservation

/-!
# Users of a pattern store: the background

The guards of all users are numbered together, in the order in which they come. Where requests of
other users are left out, the guards of a user therefore have other numbers, and what a user finds
is the same up to a renumbering (`MirrorsBy`). Consolidations of the user start, are skipped and go
to work in both stores alike; those of another user, which have guards of their own, make no
difference to the user (`MirrorsBy.startAll`, `MirrorsBy.finishDue`).
-/

namespace TieredMemory

/-- Where one list is what another one has of interest, but for a change, the steps over the first
do what those over the second do, if steps over what is of no interest do nothing. -/
theorem foldl_rel_of_filter {α β σ τ : Type} {R : σ → τ → Prop} {mine : α → Bool} {change : β → α}
    {f : σ → α → σ} {g : τ → β → τ} {xs : List α} {ys : List β}
    (hfilter : xs.filter mine = ys.map change)
    (hmine : ∀ b ∈ ys, ∀ s t, R s t → R (f s (change b)) (g t b))
    (hother : ∀ a ∈ xs, mine a = false → ∀ s t, R s t → R (f s a) t) {s : σ} {t : τ} (h : R s t) :
    R (xs.foldl f s) (ys.foldl g t) := by
  induction xs generalizing ys s t with
  | nil =>
    obtain rfl : ys = [] := List.map_eq_nil_iff.1 hfilter.symm
    exact h
  | cons a r ih =>
    have hrest := List.forall_mem_cons.1 hother
    cases ha : mine a with
    | false =>
      rw [List.filter_cons_of_neg (by simp [ha])] at hfilter
      exact ih hfilter hmine hrest.2 (hrest.1 ha s t h)
    | true =>
      rw [List.filter_cons_of_pos ha] at hfilter
      obtain ⟨b, q, rfl, rfl, hq⟩ := List.map_eq_cons_iff.1 hfilter.symm
      obtain ⟨hfirst, hlater⟩ := List.forall_mem_cons.1 hmine
      exact ih hq.symm hlater hrest.2 (hfirst s t h)

namespace PatternStore

variable {u v : String} {ρ : Nat → Nat} {s s' t t' : PatternStore} {c : Consolidation} {g : Nat}

/-! ### Numbers of guards -/

/-- The guards that there are have been counted. -/
structure Numbered (s : PatternStore) : Prop where
  guards : ∀ e ∈ s.guards, e.2 < s.guardCount
  held : ∀ g ∈ s.held, g < s.guardCount
  background : ∀ c ∈ s.background, c.guard < s.guardCount

theorem Numbered.count (h : Numbered s) : Numbered { s with guardCount := s.guardCount + 1 } where
  guards e he := Nat.lt_succ_of_lt (h.guards e he)
  held g hg := Nat.lt_succ_of_lt (h.held g hg)
  background c hc := Nat.lt_succ_of_lt (h.background c hc)

/-- The consolidation with another number for its guard. -/
def renumbered (ρ : Nat → Nat) (c : Consolidation) : Consolidation := { c with guard := ρ c.guard }

/-- What is the user's in the first store is what is the user's in the second, with other numbers
for the guards, and only the user's guards have these numbers. -/
structure MirrorsBy (u : String) (ρ : Nat → Nat) (s s' : PatternStore) : Prop where
  capacity : s.capacity = s'.capacity
  consolidationEvery : s.consolidationEvery = s'.consolidationEvery
  consolidationTimeout : s.consolidationTimeout = s'.consolidationTimeout
  consolidationDebounce : s.consolidationDebounce = s'.consolidationDebounce
  policy : s.policy = s'.policy
  patterns : s.ofUser u = s'.ofUser u
  numbered : Numbered s
  numbered' : Numbered s'
  lt : ∀ g < s'.guardCount, ρ g < s.guardCount
  injective : ∀ g < s'.guardCount, ∀ h < s'.guardCount, ρ g = ρ h → g = h
  guard : Keyed.find? Prod.fst u s.guards = (Keyed.find? Prod.fst u s'.guards).map (Prod.map id ρ)
  held : ∀ g < s'.guardCount, ρ g ∈ s.held ↔ g ∈ s'.held
  background : s.background.filter (fun c => c.user == u) = s'.background.map (renumbered ρ)
  guards_apart : ∀ e ∈ s.guards, e.1 ≠ u → ∀ g < s'.guardCount, ρ g ≠ e.2
  background_apart : ∀ c ∈ s.background, c.user ≠ u → ∀ g < s'.guardCount, ρ g ≠ c.guard

namespace MirrorsBy

/-- Two numbers of the second store are one where they are one in the first. -/
theorem eq_iff (h : MirrorsBy u ρ s s') {i : Nat} (hi : i < s'.guardCount)
    (hg : g < s'.guardCount) : ρ i = ρ g ↔ i = g :=
  ⟨h.injective i hi g hg, congrArg ρ⟩

/-- Consolidations of other users are left out of the second store. -/
theorem user_of_background (h : MirrorsBy u ρ s s') (hc : c ∈ s'.background) : c.user = u := by
  have hmem : renumbered ρ c ∈ s.background.filter fun c => c.user == u :=
    h.background ▸ List.mem_map_of_mem hc
  simpa [renumbered] using (List.mem_filter.1 hmem).2

/-! ### Holding guards -/

theorem hold (h : MirrorsBy u ρ s s') (hg : g < s'.guardCount) :
    MirrorsBy u ρ { s with held := s.held ++ [ρ g] } { s' with held := s'.held ++ [g] } where
  __ := h
  numbered := { h.numbered with
    held := List.forall_mem_append.2 ⟨h.numbered.held, by simpa using h.lt g hg⟩ }
  numbered' := { h.numbered' with
    held := List.forall_mem_append.2 ⟨h.numbered'.held, by simpa using hg⟩ }
  held i hi := by
    simp only [List.mem_append, List.mem_singleton, h.held i hi, h.eq_iff hi hg]

theorem hold_other (h : MirrorsBy u ρ s s') (hlt : g < s.guardCount)
    (hg : ∀ i < s'.guardCount, ρ i ≠ g) : MirrorsBy u ρ { s with held := s.held ++ [g] } s' where
  __ := h
  numbered := { h.numbered with
    held := List.forall_mem_append.2 ⟨h.numbered.held, by simpa using hlt⟩ }
  held i hi := by
    simp only [List.mem_append, List.mem_singleton, h.held i hi, hg i hi, or_false]

theorem release (h : MirrorsBy u ρ s s') (hg : g < s'.guardCount) :
    MirrorsBy u ρ { s with held := s.held.filter (· ≠ ρ g) }
      { s' with held := s'.held.filter (· ≠ g) } where
  __ := h
  numbered := { h.numbered with held := fun i hi => h.numbered.held i (List.mem_filter.1 hi).1 }
  numbered' := { h.numbered' with held := fun i hi => h.numbered'.held i (List.mem_filter.1 hi).1 }
  held i hi := by
    simp only [List.mem_filter, decide_eq_true_eq, h.held i hi, ne_eq, h.eq_iff hi hg]

theorem release_other (h : MirrorsBy u ρ s s') (hg : ∀ i < s'.guardCount, ρ i ≠ g) :
    MirrorsBy u ρ { s with held := s.held.filter (· ≠ g) } s' where
  __ := h
  numbered := { h.numbered with held := fun i hi => h.numbered.held i (List.mem_filter.1 hi).1 }
  held i hi := by
    simp only [List.mem_filter, decide_eq_true_eq, h.held i hi, hg i hi, ne_eq, not_false_eq_true,
      and_true]

/-! ### Setting consolidations going -/

theorem enqueue (h : MirrorsBy u ρ s s') (hc : c.user = u) (hg : c.guard < s'.guardCount) :
    MirrorsBy u ρ { s with background := s.background ++ [renumbered ρ c] }
      { s' with background := s'.background ++ [c] } where
  __ := h
  numbered := { h.numbered with
    background := List.forall_mem_append.2
      ⟨h.numbered.background, by simpa [renumbered] using h.lt c.guard hg⟩ }
  numbered' := { h.numbered' with
    background := List.forall_mem_append.2 ⟨h.numbered'.background, by simpa using hg⟩ }
  background := by
    rw [List.filter_append, List.map_append, h.background]
    simp [renumbered, hc]
  background_apart := List.forall_mem_append.2 ⟨h.background_apart, by simp [renumbered, hc]⟩

theorem enqueue_other (h : MirrorsBy u ρ s s') (hc : c.user ≠ u) (hlt : c.guard < s.guardCount)
    (hg : ∀ i < s'.guardCount, ρ i ≠ c.guard) :
    MirrorsBy u ρ { s with background := s.background ++ [c] } s' where
  __ := h
  numbered := { h.numbered with
    background := List.forall_mem_append.2 ⟨h.numbered.background, by simpa using hlt⟩ }
  background := by
    rw [List.filter_append, h.background]
    simp [hc]
  background_apart := List.forall_mem_append.2
    ⟨h.background_apart, List.forall_mem_singleton.2 fun _ => hg⟩

/-! ### New guards -/

/-- The next number of the first store becomes that of the next one of the second. -/
theorem count (h : MirrorsBy u ρ s s') :
    MirrorsBy u (Function.update ρ s'.guardCount s.guardCount)
      { s with guardCount := s.guardCount + 1 } { s' with guardCount := s'.guardCount + 1 } := by
  have hnew : Function.update ρ s'.guardCount s.guardCount s'.guardCount = s.guardCount :=
    Function.update_self ..
  have hsame : ∀ g < s'.guardCount, Function.update ρ s'.guardCount s.guardCount g = ρ g :=
    fun g hg => Function.update_of_ne hg.ne ..
  generalize Function.update ρ s'.guardCount s.guardCount = ρ' at hnew hsame
  have hall {P : Nat → Nat → Prop} (hP : ∀ g < s'.guardCount, P g (ρ g))
      (hnext : P s'.guardCount s.guardCount) : ∀ g < s'.guardCount + 1, P g (ρ' g) :=
    Nat.forall_lt_succ_right.2 ⟨fun g hg => (hsame g hg).symm ▸ hP g hg, hnew.symm ▸ hnext⟩
  exact { h with
    numbered := h.numbered.count
    numbered' := h.numbered'.count
    lt := hall (P := fun _ i => i < s.guardCount + 1) (fun g hg => Nat.lt_succ_of_lt (h.lt g hg)) (Nat.lt_succ_self _)
    injective := by
      refine hall (P := fun g i => ∀ k < s'.guardCount + 1, i = ρ' k → g = k) (fun g hg => ?_) ?_
      · exact hall (P := fun k i => ρ g = i → g = k) (h.injective g hg)
          fun e => absurd e (h.lt g hg).ne
      · exact hall (P := fun k i => s.guardCount = i → s'.guardCount = k)
          (fun k hk e => absurd e (h.lt k hk).ne') fun _ => rfl
    guard := by
      rw [h.guard]
      cases hfind : Keyed.find? Prod.fst u s'.guards with
      | none => rfl
      | some e =>
        have hlt := h.numbered'.guards e (List.mem_of_find?_eq_some hfind)
        simp only [Option.map_some, Prod.map, hsame e.2 hlt]
    held := hall (P := fun g i => i ∈ s.held ↔ g ∈ s'.held) h.held (iff_of_false (fun hmem => (h.numbered.held _ hmem).false)
      fun hmem => (h.numbered'.held _ hmem).false)
    background := by
      rw [h.background]
      refine List.map_congr_left fun c hc => ?_
      simp only [renumbered, hsame c.guard (h.numbered'.background c hc)]
    guards_apart := fun e he hu =>
      hall (P := fun _ i => i ≠ e.2) (h.guards_apart e he hu) (h.numbered.guards e he).ne'
    background_apart := fun c hc hu =>
      hall (P := fun _ i => i ≠ c.guard) (h.background_apart c hc hu)
        (h.numbered.background c hc).ne' }

theorem count_other (h : MirrorsBy u ρ s s') :
    MirrorsBy u ρ { s with guardCount := s.guardCount + 1 } s' where
  __ := h
  numbered := h.numbered.count
  lt g hg := Nat.lt_succ_of_lt (h.lt g hg)

theorem register (h : MirrorsBy u ρ s s') (hnone : Keyed.find? Prod.fst u s'.guards = none)
    (hg : g < s'.guardCount) :
    MirrorsBy u ρ { s with guards := s.guards ++ [(u, ρ g)] }
      { s' with guards := s'.guards ++ [(u, g)] } where
  __ := h
  numbered := { h.numbered with
    guards := List.forall_mem_append.2 ⟨h.numbered.guards, by simpa using h.lt g hg⟩ }
  numbered' := { h.numbered' with
    guards := List.forall_mem_append.2 ⟨h.numbered'.guards, by simpa using hg⟩ }
  guard := by
    have hguard := h.guard
    unfold Keyed.find? at hnone hguard ⊢
    rw [hnone, Option.map_none] at hguard
    rw [List.find?_append, List.find?_append, hnone, hguard]
    simp
  guards_apart := List.forall_mem_append.2 ⟨h.guards_apart, by simp⟩

theorem register_other (h : MirrorsBy u ρ s s') (hv : v ≠ u) (hlt : g < s.guardCount)
    (hg : ∀ i < s'.guardCount, ρ i ≠ g) :
    MirrorsBy u ρ { s with guards := s.guards ++ [(v, g)] } s' where
  __ := h
  numbered := { h.numbered with
    guards := List.forall_mem_append.2 ⟨h.numbered.guards, by simpa using hlt⟩ }
  guard := by
    rw [← h.guard]
    unfold Keyed.find?
    rw [List.find?_append]
    simp [hv]
  guards_apart := List.forall_mem_append.2
    ⟨h.guards_apart, List.forall_mem_singleton.2 fun _ => hg⟩

theorem guardOf (h : MirrorsBy u ρ s s') :
    ∃ ρ', MirrorsBy u ρ' (s.guardOf u).2 (s'.guardOf u).2 ∧
      (s'.guardOf u).1 < (s'.guardOf u).2.guardCount ∧ ρ' (s'.guardOf u).1 = (s.guardOf u).1 := by
  have hguard := h.guard
  unfold PatternStore.guardOf
  cases hfind : Keyed.find? Prod.fst u s'.guards with
  | some e =>
    rw [hfind, Option.map_some] at hguard
    rw [hguard]
    exact ⟨ρ, h, h.numbered'.guards e (List.mem_of_find?_eq_some hfind), rfl⟩
  | none =>
    rw [hfind, Option.map_none] at hguard
    rw [hguard]
    have hnew : Function.update ρ s'.guardCount s.guardCount s'.guardCount = s.guardCount :=
      Function.update_self ..
    have hregister := h.count.register hfind (Nat.lt_succ_self s'.guardCount)
    rw [hnew] at hregister
    exact ⟨_, hregister, Nat.lt_succ_self _, hnew⟩

theorem guardOf_other (h : MirrorsBy u ρ s s') (hv : v ≠ u) :
    MirrorsBy u ρ (s.guardOf v).2 s' ∧ (s.guardOf v).1 < (s.guardOf v).2.guardCount ∧
      ∀ i < s'.guardCount, ρ i ≠ (s.guardOf v).1 := by
  unfold PatternStore.guardOf
  cases hfind : Keyed.find? Prod.fst v s.guards with
  | some e =>
    have hmem := List.mem_of_find?_eq_some hfind
    have he : e.1 = v := by simpa using List.find?_some hfind
    exact ⟨h, h.numbered.guards e hmem, h.guards_apart e hmem (he ▸ hv)⟩
  | none =>
    have hne : ∀ i < s'.guardCount, ρ i ≠ s.guardCount := fun i hi => (h.lt i hi).ne
    exact ⟨h.count_other.register_other hv (Nat.lt_succ_self _) hne, Nat.lt_succ_self _, hne⟩

/-- A consolidation of the user is set going in both stores, or in neither. -/
theorem schedule (h : MirrorsBy u ρ s s') : ∃ ρ', MirrorsBy u ρ' (s.schedule u) (s'.schedule u) := by
  obtain ⟨ρ', hguard, hlt, hsame⟩ := h.guardOf
  have hheld := hguard.held _ hlt
  have henqueue := hguard.enqueue (c := ⟨u, (s'.guardOf u).1, none⟩) rfl hlt
  unfold renumbered at henqueue
  rw [hsame] at hheld henqueue
  refine ⟨ρ', ?_⟩
  unfold PatternStore.schedule
  simp only [hheld]
  split
  · exact hguard
  · exact henqueue

theorem schedule_other (h : MirrorsBy u ρ s s') (hv : v ≠ u) :
    MirrorsBy u ρ (s.schedule v) s' := by
  obtain ⟨hguard, hlt, hne⟩ := h.guardOf_other hv
  unfold PatternStore.schedule
  simp only
  split
  · exact hguard
  · exact hguard.enqueue_other hv hlt hne

/-- A deleted user gives up the guard. -/
theorem unregister (h : MirrorsBy u ρ s s') :
    MirrorsBy u ρ { s with guards := Keyed.remove Prod.fst u s.guards }
      { s' with guards := Keyed.remove Prod.fst u s'.guards } where
  __ := h
  numbered := { h.numbered with
    guards := fun e he => h.numbered.guards e (List.mem_filter.1 he).1 }
  numbered' := { h.numbered' with
    guards := fun e he => h.numbered'.guards e (List.mem_filter.1 he).1 }
  guard := by
    rw [Keyed.find?_remove, Keyed.find?_remove, if_pos rfl, if_pos rfl, Option.map_none]
  guards_apart e he := h.guards_apart e (List.mem_filter.1 he).1

theorem unregister_other (h : MirrorsBy u ρ s s') (hv : v ≠ u) :
    MirrorsBy u ρ { s with guards := Keyed.remove Prod.fst v s.guards } s' where
  __ := h
  numbered := { h.numbered with
    guards := fun e he => h.numbered.guards e (List.mem_filter.1 he).1 }
  guard := by
    rw [Keyed.find?_remove, if_neg hv]
    exact h.guard
  guards_apart e he := h.guards_apart e (List.mem_filter.1 he).1

/-! ### Patterns -/

/-- Where only patterns have changed since, the user has the same ones in both stores. -/
theorem of_patterns (h : MirrorsBy u ρ s s') (ht : ∃ ps, t = { s with patterns := ps })
    (ht' : ∃ ps, t' = { s' with patterns := ps }) (hof : t.ofUser u = t'.ofUser u) :
    MirrorsBy u ρ t t' := by
  obtain ⟨ps, rfl⟩ := ht
  obtain ⟨ps', rfl⟩ := ht'
  exact { h with
    patterns := hof
    numbered := { h.numbered with }
    numbered' := { h.numbered' with } }

theorem consolidate (h : MirrorsBy u ρ s s') :
    (s.consolidate u).1 = (s'.consolidate u).1 ∧
      MirrorsBy u ρ (s.consolidate u).2 (s'.consolidate u).2 := by
  have hmerged : Pattern.consolidate s.policy (s.ofUser u) =
      Pattern.consolidate s'.policy (s'.ofUser u) := by rw [h.policy, h.patterns]
  refine ⟨show (Pattern.consolidate s.policy (s.ofUser u)).1 = _ from congrArg Prod.fst hmerged,
    h.of_patterns ⟨_, rfl⟩ ⟨_, rfl⟩ ?_⟩
  rw [ofUser_consolidate_eq, ofUser_consolidate_eq, hmerged, h.patterns]

theorem consolidate_other (h : MirrorsBy u ρ s s') (hv : v ≠ u) :
    MirrorsBy u ρ (s.consolidate v).2 s' :=
  h.of_patterns ⟨_, rfl⟩ ⟨_, rfl⟩ ((ofUser_consolidate_of_ne hv).trans h.patterns)

end MirrorsBy

/-! ### The background at work -/

theorem guardCount_start (now : Time) (s : PatternStore) (c : Consolidation) :
    (s.start now c).guardCount = s.guardCount := by
  obtain ⟨held, background, h⟩ := start_eq now s c
  rw [h]

theorem guardCount_finish (c : Consolidation) (s : PatternStore) (w : World) :
    (s.finish c w).1.guardCount = s.guardCount := by
  unfold finish
  simp only
  split <;> rfl

namespace MirrorsBy

theorem start (h : MirrorsBy u ρ s s') (now : Time) (hc : c.user = u)
    (hg : c.guard < s'.guardCount) :
    MirrorsBy u ρ (s.start now (renumbered ρ c)) (s'.start now c) := by
  have hheld : (renumbered ρ c).guard ∈ s.held ↔ c.guard ∈ s'.held := h.held c.guard hg
  have htime : s.wakeTime now = s'.wakeTime now := by
    unfold wakeTime
    rw [h.consolidationDebounce]
  unfold PatternStore.start
  rw [show (renumbered ρ c).wakeAt = c.wakeAt from rfl]
  split
  · exact h.enqueue hc hg
  · simp only [hheld, htime]
    split
    · exact h
    · exact (h.hold hg).enqueue (c := { c with wakeAt := some (s'.wakeTime now) }) hc hg

theorem start_other (h : MirrorsBy u ρ s s') (now : Time) (hc : c.user ≠ u)
    (hlt : c.guard < s.guardCount) (hg : ∀ i < s'.guardCount, ρ i ≠ c.guard) :
    MirrorsBy u ρ (s.start now c) s' := by
  unfold PatternStore.start
  split
  · exact h.enqueue_other hc hlt hg
  · split
    · exact h
    · exact (h.hold_other hlt hg).enqueue_other hc hlt hg

/-- What can start does so. -/
theorem startAll (h : MirrorsBy u ρ s s') (now : Time) :
    MirrorsBy u ρ (s.startAll now) (s'.startAll now) := by
  have hempty : MirrorsBy u ρ { s with background := [] } { s' with background := [] } := { h with
    numbered := { h.numbered with background := by simp }
    numbered' := { h.numbered' with background := by simp }
    background := rfl
    background_apart := by simp }
  rw [startAll_eq_foldl, startAll_eq_foldl]
  refine (foldl_rel_of_filter (R := fun r r' => MirrorsBy u ρ r r' ∧
    r.guardCount = s.guardCount ∧ r'.guardCount = s'.guardCount) h.background ?_ ?_
    ⟨hempty, rfl, rfl⟩).1
  · rintro c hc r r' ⟨hr, hcount, hcount'⟩
    have hg : c.guard < r'.guardCount := hcount' ▸ h.numbered'.background c hc
    exact ⟨hr.start now (h.user_of_background hc) hg,
      (guardCount_start now r _).trans hcount, (guardCount_start now r' c).trans hcount'⟩
  · rintro c hc hne r r' ⟨hr, hcount, hcount'⟩
    have hu : c.user ≠ u := by simpa using hne
    have hlt : c.guard < r.guardCount := hcount ▸ h.numbered.background c hc
    exact ⟨hr.start_other now hu hlt (hcount' ▸ h.background_apart c hc hu),
      (guardCount_start now r c).trans hcount, hcount'⟩

theorem finish (h : MirrorsBy u ρ s s') (hc : c.user = u) (hg : c.guard < s'.guardCount)
    (w w' : World) : MirrorsBy u ρ (s.finish (renumbered ρ c) w).1 (s'.finish c w').1 := by
  have hrelease := h.release hg
  have htimeout : s.consolidationTimeout.value ≤ 0 ↔ s'.consolidationTimeout.value ≤ 0 := by
    rw [h.consolidationTimeout]
  unfold PatternStore.finish
  simp only [htimeout]
  split
  · exact hrelease
  · rw [show (renumbered ρ c).user = u from hc, hc]
    exact hrelease.consolidate.2

theorem finish_other (h : MirrorsBy u ρ s s') (hc : c.user ≠ u)
    (hg : ∀ i < s'.guardCount, ρ i ≠ c.guard) (w : World) :
    MirrorsBy u ρ (s.finish c w).1 s' := by
  have hrelease := h.release_other hg
  unfold PatternStore.finish
  simp only
  split
  · exact hrelease
  · exact hrelease.consolidate_other hc

/-- What is due goes to work. -/
theorem finishDue (h : MirrorsBy u ρ s s') (now : Time) (w w' : World) :
    MirrorsBy u ρ (s.finishDue now w).1 (s'.finishDue now w').1 := by
  have hpart (p : Consolidation → Bool) (hp : ∀ c, p (renumbered ρ c) = p c) :
      (s.background.filter p).filter (fun c => c.user == u) =
        (s'.background.filter p).map (renumbered ρ) := by
    have hcomm : (s.background.filter p).filter (fun c => c.user == u) =
        (s.background.filter fun c => c.user == u).filter p := by
      rw [List.filter_filter, List.filter_filter]
      simp only [Bool.and_comm]
    rw [hcomm, h.background, List.filter_map]
    simp only [Function.comp_def, hp]
  have hrest : MirrorsBy u ρ
      { s with background := s.background.filter fun c => !Consolidation.isDue now c }
      { s' with background := s'.background.filter fun c => !Consolidation.isDue now c } := { h with
    numbered := { h.numbered with
      background := fun c hc => h.numbered.background c (List.mem_filter.1 hc).1 }
    numbered' := { h.numbered' with
      background := fun c hc => h.numbered'.background c (List.mem_filter.1 hc).1 }
    background := hpart _ fun _ => rfl
    background_apart := fun c hc => h.background_apart c (List.mem_filter.1 hc).1 }
  unfold PatternStore.finishDue
  refine (foldl_rel_of_filter (R := fun r r' : PatternStore × World => MirrorsBy u ρ r.1 r'.1 ∧
    r.1.guardCount = s.guardCount ∧ r'.1.guardCount = s'.guardCount)
    (hpart (Consolidation.isDue now) fun _ => rfl) ?_ ?_ ⟨hrest, rfl, rfl⟩).1
  · rintro c hc r r' ⟨hr, hcount, hcount'⟩
    have hmem := (List.mem_filter.1 hc).1
    have hg : c.guard < r'.1.guardCount := hcount' ▸ h.numbered'.background c hmem
    exact ⟨hr.finish (h.user_of_background hmem) hg r.2 r'.2,
      (guardCount_finish _ r.1 r.2).trans hcount, (guardCount_finish c r'.1 r'.2).trans hcount'⟩
  · rintro c hc hne r r' ⟨hr, hcount, hcount'⟩
    have hmem := (List.mem_filter.1 hc).1
    have hu : c.user ≠ u := by simpa using hne
    exact ⟨hr.finish_other hu (hcount' ▸ h.background_apart c hmem hu) r.2,
      (guardCount_finish c r.1 r.2).trans hcount, hcount'⟩

end MirrorsBy

end PatternStore

end TieredMemory
