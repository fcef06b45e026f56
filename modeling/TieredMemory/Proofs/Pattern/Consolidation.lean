import Mathlib.Data.List.Basic
import Mathlib.Data.List.Pairwise
import TieredMemory.PatternStore
import TieredMemory.Proofs.Pattern.Likeness

/-!
# Consolidation ends with no two patterns alike

A merge enlarges the survivor's triggers, so it can make two patterns alike that were not, or the
other way round. What holds of the patterns after every merge is `consolidate_induction`; that no
two are alike holds at the end only, where the search finds nothing (`mergeOnce?_eq_none_iff`), and
so another consolidation has nothing to do. Every merge takes one identifier away and leaves the
others in their order. `PatternStore.consolidate_spec` puts this together for a user of the store.
-/

namespace TieredMemory

/-- Looking up the keys of a list in another one whose keys are among them, in the same order, gives
the other list. -/
theorem Keyed.filterMap_find? {α κ : Type} [DecidableEq κ] (key : α → κ) {xs ys : List α}
    (hsub : (ys.map key).Sublist (xs.map key)) (hn : (xs.map key).Nodup) :
    (xs.filterMap fun a => find? key (key a) ys) = ys := by
  induction xs generalizing ys with
  | nil =>
    cases ys with
    | nil => rfl
    | cons y ys => cases hsub
  | cons x xs ih =>
    obtain ⟨hx, hxs⟩ := List.nodup_cons.1 hn
    rw [List.filterMap_cons]
    cases ys with
    | nil => simp [find?]
    | cons y ys =>
      by_cases hxy : key y = key x
      · have hrest : (ys.map key).Sublist (xs.map key) := by
          rw [List.map_cons, List.map_cons, hxy] at hsub
          exact List.cons_sublist_cons.1 hsub
        have hfirst : find? key (key x) (y :: ys) = some y := by simp [find?, hxy]
        have hlater : ∀ a ∈ xs, find? key (key a) (y :: ys) = find? key (key a) ys := by
          intro a ha
          have hne : key y ≠ key a := fun e => hx (hxy ▸ e ▸ List.mem_map_of_mem ha)
          simp [find?, hne]
        simp only [hfirst]
        rw [List.filterMap_congr hlater, ih hrest hxs]
      · have hrest : ((y :: ys).map key).Sublist (xs.map key) := by
          rcases List.sublist_cons_iff.1 hsub with hrest | ⟨r, hr, -⟩
          · exact hrest
          · exact absurd (List.cons.inj hr).1 hxy
        have hfirst : find? key (key x) (y :: ys) = none :=
          (find?_eq_none_iff key).2 fun hmem => hx (hrest.subset hmem)
        simp only [hfirst]
        exact ih hrest hxs

namespace Pattern

variable {policy : ReinforcementPolicy} {ps qs : List Pattern}

/-! ### One merge -/

theorem recordUsages_user (time : Time) (n : Nat) (p : Pattern) :
    (recordUsages policy time n p).user = p.user := by
  induction n generalizing p with
  | zero => rfl
  | succ n ih => exact ih _

@[simp] theorem merge_user (target source : Pattern) :
    (target.merge policy source).user = target.user := recordUsages_user ..

theorem map_id_mergePair (a b : Pattern) :
    (mergePair policy a b ps).map Pattern.id = (ps.map Pattern.id).erase (ranked a b).2.id := by
  unfold mergePair
  rw [Keyed.map_eraseP, Keyed.map_update Pattern.id fun p => merge_id policy p _]

theorem user_mem_mergePair {a b p : Pattern} (h : p ∈ mergePair policy a b ps) :
    ∃ q ∈ ps, p.user = q.user := by
  obtain ⟨q, hq, rfl | rfl⟩ :=
    Keyed.eq_or_eq_of_mem_update Pattern.id (List.mem_of_mem_eraseP h)
  · exact ⟨q, hq, merge_user q _⟩
  · exact ⟨p, hq, rfl⟩

theorem mergeOnce?_inv (h : mergeOnce? policy ps = some qs) :
    ∃ a b, [a, b].Sublist (ascending isOlder ps) ∧ qs = mergePair policy a b ps := by
  obtain ⟨⟨a, b⟩, hpair, rfl⟩ := Option.map_eq_some_iff.1 h
  exact ⟨a, b, sublist_of_alikePair? hpair, rfl⟩

theorem map_id_sublist_of_mergeOnce? (h : mergeOnce? policy ps = some qs) :
    (qs.map Pattern.id).Sublist (ps.map Pattern.id) := by
  obtain ⟨a, b, -, rfl⟩ := mergeOnce?_inv h
  rw [map_id_mergePair]
  exact List.erase_sublist

/-- A merge leaves the survivor at least. -/
theorem ne_nil_of_mergeOnce? (h : mergeOnce? policy ps = some qs) : qs ≠ [] := by
  obtain ⟨a, b, hsub, -⟩ := mergeOnce?_inv h
  have htwo := hsub.length_le
  rw [ascending, List.length_mergeSort] at htwo
  have hone := length_of_mergeOnce? h
  rintro rfl
  simp only [List.length_cons, List.length_nil] at htwo hone
  omega

/-- The search goes through the pairs in the order of age only, but likeness is symmetric. -/
theorem mergeOnce?_eq_none_iff :
    mergeOnce? policy ps = none ↔ ps.Pairwise fun a b => a.isAlike b = false := by
  rw [mergeOnce?, Option.map_eq_none_iff, alikePair?_eq_none_iff]
  exact (List.mergeSort_perm ps _).pairwise_iff fun h => (isAlike_comm _ _).trans h

/-! ### All merges -/

theorem consolidate_of_none (h : mergeOnce? policy ps = none) : consolidate policy ps = (0, ps) := by
  rw [consolidate]
  split
  · rfl
  · simp_all

theorem consolidate_of_some (h : mergeOnce? policy ps = some qs) :
    consolidate policy ps = ((consolidate policy qs).1 + 1, (consolidate policy qs).2) := by
  rw [consolidate]
  split
  · simp_all
  · rename_i rs hrs
    obtain rfl : qs = rs := Option.some.inj (h.symm.trans hrs)
    rfl

/-- Where no two patterns are alike, and only there, nothing is merged. -/
theorem consolidate_eq_zero_iff :
    (consolidate policy ps).1 = 0 ↔ ps.Pairwise fun a b => a.isAlike b = false := by
  rw [← @mergeOnce?_eq_none_iff policy ps]
  cases h : mergeOnce? policy ps with
  | none => simp [consolidate_of_none h]
  | some qs => simp [consolidate_of_some h]

/-- What holds between the patterns and themselves where the search finds nothing, and carries over
to the patterns before a merge with one merge more, holds of every consolidation. -/
theorem consolidate_induction {motive : List Pattern → Nat → List Pattern → Prop}
    (done : ∀ ps, mergeOnce? policy ps = none → motive ps 0 ps)
    (step : ∀ ps qs n kept, mergeOnce? policy ps = some qs → motive qs n kept →
      motive ps (n + 1) kept) (ps : List Pattern) :
    motive ps (consolidate policy ps).1 (consolidate policy ps).2 := by
  induction hn : ps.length using Nat.strongRecOn generalizing ps with
  | _ n ih =>
    cases hm : mergeOnce? policy ps with
    | none =>
      rw [consolidate_of_none hm]
      exact done ps hm
    | some qs =>
      have hlen := length_of_mergeOnce? hm
      rw [consolidate_of_some hm]
      exact step ps qs _ _ hm (ih qs.length (by omega) qs rfl)

variable (policy ps)

/-- As many patterns are gone as there were merges. -/
theorem length_consolidate :
    (consolidate policy ps).1 + (consolidate policy ps).2.length = ps.length := by
  refine consolidate_induction (motive := fun ps n kept => n + kept.length = ps.length) ?_ ?_ ps
  · exact fun ps _ => Nat.zero_add _
  · intro ps qs n kept hm hlen
    have := length_of_mergeOnce? hm
    omega

theorem consolidate_ne_nil (h : ps ≠ []) : (consolidate policy ps).2 ≠ [] := by
  refine consolidate_induction (motive := fun ps _ kept => ps ≠ [] → kept ≠ []) ?_ ?_ ps h
  · exact fun ps _ h => h
  · exact fun ps qs n kept hm ih _ => ih (ne_nil_of_mergeOnce? hm)

theorem map_id_consolidate_sublist :
    ((consolidate policy ps).2.map Pattern.id).Sublist (ps.map Pattern.id) := by
  refine consolidate_induction
    (motive := fun ps _ kept => (kept.map Pattern.id).Sublist (ps.map Pattern.id)) ?_ ?_ ps
  · exact fun ps _ => .refl _
  · exact fun ps qs n kept hm ih => ih.trans (map_id_sublist_of_mergeOnce? hm)

theorem user_mem_consolidate :
    ∀ p ∈ (consolidate policy ps).2, ∃ q ∈ ps, p.user = q.user := by
  refine consolidate_induction
    (motive := fun ps _ kept => ∀ p ∈ kept, ∃ q ∈ ps, p.user = q.user) ?_ ?_ ps
  · exact fun ps _ p hp => ⟨p, hp, rfl⟩
  · intro ps qs n kept hm ih p hp
    obtain ⟨a, b, -, rfl⟩ := mergeOnce?_inv hm
    obtain ⟨q, hq, hpq⟩ := ih p hp
    obtain ⟨r, hr, hqr⟩ := user_mem_mergePair hq
    exact ⟨r, hr, hpq.trans hqr⟩

theorem mergeOnce?_consolidate : mergeOnce? policy (consolidate policy ps).2 = none := by
  refine consolidate_induction (motive := fun _ _ kept => mergeOnce? policy kept = none) ?_ ?_ ps
  · exact fun ps hm => hm
  · exact fun ps qs n kept _ ih => ih

end Pattern

/-! ### A user of the store -/

namespace PatternStore

variable (user : String) (s : PatternStore)

/-- What a consolidation of a user's patterns comes to. -/
structure Consolidated (merges : Nat) (s' : PatternStore) : Prop where
  /-- One pattern is left over by the merges, if there was any. -/
  merges_le : merges ≤ (s.ofUser user).length - 1
  /-- The merges are as many as the patterns that are gone. -/
  merges_add : merges + (s'.ofUser user).length = (s.ofUser user).length
  /-- The identifiers that are left were there, and in this order. -/
  ids_sublist : ((s'.ofUser user).map Pattern.id).Sublist ((s.ofUser user).map Pattern.id)
  /-- No two patterns are alike, whichever comes first. -/
  not_alike : ∀ p ∈ s'.ofUser user, ∀ q ∈ s'.ofUser user, p ≠ q → p.isAlike q = false
  /-- Another consolidation merges nothing and changes nothing. -/
  again : s'.consolidate user = (0, s')

theorem user_of_mem_ofUser {p : Pattern} (h : p ∈ s.ofUser user) : p.user = user := by
  simpa using (List.mem_filter.1 h).2

/-- What becomes of each of the user's patterns. -/
theorem ofUser_consolidate_eq :
    (s.consolidate user).2.ofUser user = (s.ofUser user).filterMap fun p =>
      Keyed.find? Pattern.id p.id (Pattern.consolidate s.policy (s.ofUser user)).2 := by
  have husers : ∀ p ∈ (Pattern.consolidate s.policy (s.ofUser user)).2, p.user = user := by
    intro p hp
    obtain ⟨q, hq, hpq⟩ := Pattern.user_mem_consolidate s.policy (s.ofUser user) p hp
    exact hpq.trans (user_of_mem_ofUser user s hq)
  generalize hkept : (Pattern.consolidate s.policy (s.ofUser user)).2 = kept at husers ⊢
  have hput : ∀ p ∈ s.patterns,
      (if p.user = user then Keyed.find? Pattern.id p.id kept else some p).filter
          (fun q => q.user == user) =
        if p.user == user then Keyed.find? Pattern.id p.id kept else none := by
    intro p _
    by_cases hp : p.user = user
    · cases hf : Keyed.find? Pattern.id p.id kept with
      | none => simp [hp]
      | some q => simp [hp, husers q (List.mem_of_find?_eq_some hf)]
    · simp [hp]
  calc (s.consolidate user).2.ofUser user
      = (s.patterns.filterMap fun p =>
          if p.user = user then Keyed.find? Pattern.id p.id kept else some p).filter
            fun p => p.user == user := by rw [← hkept]; rfl
    _ = s.patterns.filterMap fun p =>
          if p.user == user then Keyed.find? Pattern.id p.id kept else none := by
        rw [List.filter_filterMap, List.filterMap_congr hput]
    _ = (s.ofUser user).filterMap fun p => Keyed.find? Pattern.id p.id kept := by
        rw [ofUser, List.filterMap_filter]

variable (hn : ((s.ofUser user).map Pattern.id).Nodup)

include hn

theorem ofUser_consolidate :
    (s.consolidate user).2.ofUser user = (Pattern.consolidate s.policy (s.ofUser user)).2 := by
  have hids := Pattern.map_id_consolidate_sublist s.policy (s.ofUser user)
  rw [ofUser_consolidate_eq]
  exact Keyed.filterMap_find? Pattern.id hids hn

/-- A user's patterns that are found under their own identifiers stay as they are. -/
theorem consolidate_of_none (h : Pattern.mergeOnce? s.policy (s.ofUser user) = none) :
    s.consolidate user = (0, s) := by
  have hkeep : ∀ p ∈ s.patterns,
      (if p.user = user then Keyed.find? Pattern.id p.id (s.ofUser user) else some p) = some p := by
    intro p hp
    split
    · rename_i hu
      have hof : p ∈ s.ofUser user := List.mem_filter.2 ⟨hp, by simpa using hu⟩
      exact (Keyed.find?_eq_some_iff Pattern.id hn).2 ⟨hof, rfl⟩
    · rfl
  unfold consolidate
  rw [Pattern.consolidate_of_none h]
  simp only [List.filterMap_congr hkeep, List.filterMap_some]

theorem consolidate_spec :
    Consolidated user s (s.consolidate user).1 (s.consolidate user).2 := by
  have hkept := ofUser_consolidate user s hn
  have hlen := Pattern.length_consolidate s.policy (s.ofUser user)
  have hids := Pattern.map_id_consolidate_sublist s.policy (s.ofUser user)
  have hdone := Pattern.mergeOnce?_consolidate s.policy (s.ofUser user)
  have hne := Pattern.consolidate_ne_nil s.policy (s.ofUser user)
  rw [← hkept] at hlen hids hdone hne
  change (s.consolidate user).1 + _ = _ at hlen
  refine ⟨?_, hlen, hids, ?_, ?_⟩
  · cases hof : s.ofUser user with
    | nil =>
      rw [hof, List.length_nil] at hlen
      omega
    | cons p r =>
      have hpos := List.length_pos_iff.2 (hne (by simp [hof]))
      rw [← hof]
      omega
  · intro p hp q hq hpq
    have hpair := Pattern.mergeOnce?_eq_none_iff.1 hdone
    exact hpair.forall hp hq hpq
  · exact consolidate_of_none user _ (hids.nodup hn) hdone

omit hn

/-- A pattern with one keyword. -/
def greeting (id name keyword : String) : Pattern where
  id := id
  user := "u"
  name := name
  description := ""
  triggers := [⟨.keyword, keyword, none⟩]
  template := "Greet back."
  threshold := 0.7
  usage := 0
  createdAt := 0
  lastUsed := 0

/-- Three patterns, two of them with the same keyword but for letter case. -/
def greetings : PatternStore where
  patterns :=
    [greeting "a" "morning" "hello", greeting "b" "evening" "bye", greeting "c" "noon" "Hello"]

theorem consolidate_greetings :
    ((greetings.ofUser "u").map Pattern.id = ["a", "b", "c"] ∧
      (greetings.consolidate "u").1 ≠ 0) ∧
      Consolidated "u" greetings (greetings.consolidate "u").1 (greetings.consolidate "u").2 :=
  ⟨⟨by decide, fun h => absurd (Pattern.consolidate_eq_zero_iff.1 h) (by decide +kernel)⟩,
    consolidate_spec "u" greetings (by decide)⟩

end PatternStore

end TieredMemory
