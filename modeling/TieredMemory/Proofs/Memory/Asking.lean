import TieredMemory.Proofs.FactStore.Search
import TieredMemory.Proofs.Memory.Addresses

/-!
# What asking a tier changes

Reading recent turns moves their bucket to the end of the order (`Recalled`); a search of the facts
counts a use of those that it returns (`Searched`), and a match one of the pattern that applies, and
it may set a consolidation going (`Matched`), which changes nothing yet by starting
(`Matched.startAll`). Nothing comes in or goes, and nothing changes its place. Facts and patterns are
told apart by their addresses, so this is said of every one of them in a store with one thing at an
address.
-/

namespace TieredMemory

/-! ### The hot cache -/

namespace HotCache

/-- Recent turns at a place have been read: all turns are where they were, and the buckets of other
places are as they were, in the same order. -/
structure Recalled (p : Place) (c c' : HotCache) : Prop where
  turns : ∀ q, (c'.bucket? q).map Bucket.turns = (c.bucket? q).map Bucket.turns
  others : Keyed.remove Bucket.place p c'.buckets = Keyed.remove Bucket.place p c.buckets
  rest : c' = { c with buckets := c'.buckets }

theorem Recalled.refl (p : Place) (c : HotCache) : Recalled p c c := ⟨fun _ => rfl, rfl, rfl⟩

theorem remove_touch (now : Time) (b : Bucket) (bs : List Bucket) :
    Keyed.remove Bucket.place b.place (touch now b bs) = Keyed.remove Bucket.place b.place bs := by
  unfold touch Keyed.remove
  rw [List.filter_append, List.filter_filter]
  simp

theorem recalled_recent (now : Time) (p : Place) (n : Nat) (c : HotCache) :
    Recalled p c (c.recent now p n).2 := by
  unfold HotCache.recent
  cases hb : c.bucket? p with
  | none => exact .refl p c
  | some b =>
    have hp : b.place = p := by simpa using List.find?_some hb
    simp only
    split
    · exact .refl p c
    · refine ⟨fun q => ?_, hp ▸ remove_touch now b c.buckets, rfl⟩
      unfold bucket? at hb ⊢
      rw [find?_touch]
      split
      · next hq =>
        rw [← hq, hp, hb]
        rfl
      · rfl

end HotCache

/-! ### The fact store -/

namespace FactStore

/-- Facts have been found: a use of each is counted at the time, and it is returned like that; the
others are as they were, and all are where they were. -/
structure Searched (now : Time) (found : List Fact) (s s' : FactStore) : Prop where
  facts : List.Forall₂
    (fun f f' =>
      f' ∈ found ∧ f' = { f with accessCount := f.accessCount + 1, lastAccessed := now } ∨
        (∀ g ∈ found, address g ≠ address f) ∧ f' = f)
    s.facts s'.facts
  addresses : s'.facts.map address = s.facts.map address
  returned : ∀ g ∈ found, g ∈ s'.facts
  distinct : (found.map address).Nodup
  rest : s' = { s with facts := s'.facts }

theorem Searched.none (now : Time) (s : FactStore) : Searched now [] s s where
  facts := List.forall₂_same.2 fun _ _ => .inr ⟨by simp, rfl⟩
  addresses := rfl
  returned := by simp
  distinct := List.nodup_nil
  rest := rfl

theorem searched_find {s : FactStore} (h : (s.facts.map address).Nodup) (now : Time)
    (user query : String) (embedding : Option Embedding) (n : Nat) :
    Searched now (s.find now user query embedding n).1 s (s.find now user query embedding n).2 := by
  obtain ⟨hmem, hnodup⟩ := mem_take_matching h user query embedding n
  have hfind : s.find now user query embedding n =
      (((s.matching user query embedding).take n).map (Fact.recordAccess now),
        s.recordUses now user (((s.matching user query embedding).take n).map Fact.id)) := rfl
  rw [hfind]
  generalize (s.matching user query embedding).take n = found at hmem hnodup ⊢
  have haddress : (found.map (Fact.recordAccess now)).map address = found.map address := by
    rw [List.map_map]
    rfl
  constructor
  · refine List.forall₂_map_right_iff.2 (List.forall₂_same.2 fun f hf => ?_)
    split
    · next hu => exact .inl ⟨List.mem_map_of_mem ((mem_found_iff h hmem hf).1 hu), rfl⟩
    · next hu =>
      refine .inr ⟨fun g hg hsame => hu ?_, rfl⟩
      have hmemf : address f ∈ found.map address :=
        haddress ▸ hsame ▸ List.mem_map_of_mem hg
      obtain ⟨g', hg', hsame'⟩ := List.mem_map.1 hmemf
      have hf' : g' = f := List.inj_on_of_nodup_map h (hmem g' hg').1 hf hsame'
      exact (mem_found_iff h hmem hf).2 (hf' ▸ hg')
  · exact map_address_recordUses now user (found.map Fact.id) s
  · intro g hg
    obtain ⟨f, hf, rfl⟩ := List.mem_map.1 hg
    refine List.mem_map.2 ⟨f, (hmem f hf).1, if_pos ?_⟩
    exact (mem_found_iff h hmem (hmem f hf).1).2 hf
  · exact haddress.symm ▸ hnodup
  · rfl

end FactStore

/-! ### The pattern store -/

namespace PatternStore

/-- The guards of the consolidations that have started. -/
def guardsOf (cs : Option Consolidation) : List Nat :=
  ((cs.filter fun c => c.wakeAt.isSome).map Consolidation.guard).toList

theorem guardsOf_waiting {cs : Option Consolidation} (h : ∀ c ∈ cs, c.wakeAt = none) :
    guardsOf cs = [] := by
  cases cs with
  | none => rfl
  | some c => simp [guardsOf, Option.filter, h c rfl]

/-- A pattern has been applied, or none: a use of it is counted at the time, and it is returned like
that; the others are as they were, and all are where they were with their triggers. Nothing is
merged so far, but a consolidation of the user's patterns may have been set going. If it has
started, it holds its guard and goes to work later. -/
structure Matched (now : Time) (user : String) (found : Option Pattern) (s s' : PatternStore) :
    Prop where
  patterns : List.Forall₂
    (fun q q' =>
      found = some q' ∧ q' = q.recordUsage s.policy now ∨
        (∀ r ∈ found, address r ≠ address q) ∧ q' = q)
    s.patterns s'.patterns
  triggers : (s'.patterns.map fun q => (address q, q.triggers)) =
    s.patterns.map fun q => (address q, q.triggers)
  returned : ∀ r ∈ found, r ∈ s'.patterns ∧ r.user = user
  unmatched : found = none → s' = s
  rest : ∃ guards guardCount, ∃ scheduled : Option Consolidation,
    (∀ c ∈ scheduled, c.user = user ∧ ∀ t ∈ c.wakeAt, now < t) ∧
    s' = { s with
      patterns := s'.patterns, guards, guardCount
      held := s.held ++ guardsOf scheduled
      background := s.background ++ scheduled.toList }

theorem matched_none (now : Time) (user : String) (s : PatternStore) :
    Matched now user none s s where
  patterns := List.forall₂_same.2 fun _ _ => .inr ⟨by simp, rfl⟩
  triggers := rfl
  returned := by simp
  unmatched _ := rfl
  rest := ⟨s.guards, s.guardCount, none, by simp, by simp [guardsOf]⟩

theorem matched_apply {s : PatternStore} (hn : (s.patterns.map address).Nodup) {now : Time}
    {user query : String} {embedding : Option Embedding} {found : Option Pattern}
    (h : (s.apply now user query embedding).1 = .ok found) :
    Matched now user found s (s.apply now user query embedding).2 := by
  rcases apply_inv now user query embedding s with ⟨hanswer, hsame⟩ | ⟨p, hp, hsame, hanswer⟩
  · have hnone : found = none := by
      rcases hanswer with hanswer | hanswer <;> rw [hanswer] at h <;> cases h
      rfl
    rw [hnone, hsame]
    exact matched_none now user s
  · rw [hanswer] at h
    rcases recordMatch_inv now p s with
      ⟨-, hused⟩ | ⟨-, guards, guardCount, scheduled, hscheduled, hused⟩
    · rw [hused] at h
      cases h
    · rw [hused] at h hsame
      cases h
      obtain ⟨hmem, huser⟩ : p ∈ s.patterns ∧ p.user = user := by
        simpa [ofUser] using hp
      rw [hsame]
      constructor
      · refine List.forall₂_map_right_iff.2 (List.forall₂_same.2 fun q hq => ?_)
        split
        · next he =>
          obtain rfl := List.inj_on_of_nodup_map hn hq hmem he
          exact .inl ⟨rfl, rfl⟩
        · next he =>
          refine .inr ⟨?_, rfl⟩
          rintro r ⟨⟩ hsame
          exact he hsame.symm
      · refine List.map_map.trans (List.map_congr_left fun q hq => ?_)
        simp only [Function.comp]
        split
        · next he =>
          obtain rfl := List.inj_on_of_nodup_map hn hq hmem he
          rfl
        · rfl
      · rintro r ⟨⟩
        exact ⟨List.mem_map.2 ⟨p, hmem, if_pos rfl⟩, huser⟩
      · intro hnone
        cases hnone
      · refine ⟨guards, guardCount, scheduled, fun c hc => ⟨?_, ?_⟩, ?_⟩
        · exact (hscheduled c hc).1.trans huser
        · simp [(hscheduled c hc).2]
        · rw [guardsOf_waiting fun c hc => (hscheduled c hc).2, List.append_nil]
          rfl

/-- What has been set going may start, where it has a debounce to wait for. -/
theorem Matched.startAll {s s' : PatternStore} {now : Time} {user : String}
    {found : Option Pattern} (h : Matched now user found s s')
    (hs : ∀ c ∈ s.background, c.wakeAt.isSome)
    (hlater : (∃ c ∈ s'.background, c.wakeAt = none) → now < s'.wakeTime now) :
    Matched now user found s (s'.startAll now) := by
  obtain ⟨guards, guardCount, scheduled, hscheduled, heq⟩ := h.rest
  have hbackground : s'.background = s.background ++ scheduled.toList :=
    congrArg PatternStore.background heq
  by_cases hstarted : ∀ c ∈ scheduled, c.wakeAt.isSome
  · have hall : ∀ c ∈ s'.background, c.wakeAt.isSome := by
      rw [hbackground]
      exact List.forall_mem_append.2 ⟨hs, fun c hc => hstarted c (Option.mem_toList.1 hc)⟩
    rw [startAll_of_started hall]
    exact h
  -- what waits to be started is what this match has set going, so there is a match
  obtain ⟨c, rfl, hwake⟩ : ∃ c, scheduled = some c ∧ c.wakeAt = none := by simpa using hstarted
  have hfound : found ≠ none := fun hnone => by
    have hsame := hbackground.symm.trans (congrArg PatternStore.background (h.unmatched hnone))
    simp at hsame
  rw [guardsOf_waiting (by rintro _ ⟨⟩; exact hwake), List.append_nil] at heq
  have hmem : c ∈ s'.background := by simp [hbackground]
  rcases startAll_concat_cases now hs hbackground hwake with hskipped | hbegun
  · rw [hskipped]
    refine ⟨h.patterns, h.triggers, h.returned, fun hnone => absurd hnone hfound,
      guards, guardCount, none, by simp, ?_⟩
    rw [heq]
    simp [guardsOf]
  · rw [hbegun]
    refine ⟨h.patterns, h.triggers, h.returned, fun hnone => absurd hnone hfound,
      guards, guardCount, some { c with wakeAt := some (s'.wakeTime now) }, ?_, ?_⟩
    · rintro _ ⟨⟩
      refine ⟨(hscheduled c rfl).1, ?_⟩
      rintro _ ⟨⟩
      exact hlater ⟨c, hmem, hwake⟩
    · rw [heq]
      rfl

end PatternStore

end TieredMemory
