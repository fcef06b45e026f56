import Mathlib
import TieredMemory.Proofs.Pattern.Addresses

/-!
# No more patterns than there is room for

Every user has as many patterns as the store has room for at most, and one under each identifier
(`Bounded`). Merging and consolidating only take patterns away, and where one that comes in is one too
many, the least used one goes, or of equally used ones the one that was used longest ago. If this
leaves a choice, the pattern goes that was there before the others came: patterns stand in the store in
the order in which they have come (`pairwise_cameBefore`). `run_withinCapacity` says this of every run.
-/

namespace TieredMemory.PatternStore

open Pattern

variable {user : String} {s s' : PatternStore} {p : Pattern}

/-- Under which user and identifier the patterns are kept, in the order of the patterns. -/
def addresses (s : PatternStore) : List (String × String) := s.patterns.map address

theorem length_ofUser (user : String) (s : PatternStore) :
    (s.ofUser user).length = s.addresses.countP fun a => a.1 == user := by
  rw [addresses, List.countP_map, ofUser, ← List.countP_eq_length_filter]
  rfl

/-- There is one pattern under an identifier, and no user has too many. -/
structure Bounded (s : PatternStore) : Prop where
  distinct : s.addresses.Nodup
  room : ∀ user, (s.ofUser user).length ≤ s.capacity

theorem Bounded.of_empty (h : s.patterns = []) : Bounded s where
  distinct := by simp [addresses, h]
  room user := by simp [ofUser, h]

theorem nodup_ids_ofUser (h : s.addresses.Nodup) (user : String) :
    ((s.ofUser user).map Pattern.id).Nodup := by
  have hkept : ((s.ofUser user).map address).Nodup := h.sublist (List.filter_sublist.map address)
  refine List.pairwise_map.2 ((List.pairwise_map.1 hkept).imp_of_mem ?_)
  intro a b ha hb hne hid
  exact hne (Prod.ext ((user_of_mem_ofUser user s ha).trans (user_of_mem_ofUser user s hb).symm) hid)

/-! ### What only takes patterns away -/

/-- The patterns of the later store are kept where those of the earlier one are, in the same order. -/
structure Shrinks (s s' : PatternStore) : Prop where
  capacity : s'.capacity = s.capacity
  sublist : s'.addresses.Sublist s.addresses

theorem abides_shrinks : Abides Shrinks where
  idle _ _ _ := ⟨rfl, .refl _⟩
  consolidate s user := ⟨rfl, map_address_consolidate user s⟩
  trans h h' := ⟨h'.capacity.trans h.capacity, h'.sublist.trans h.sublist⟩

theorem Shrinks.bounded (h : Shrinks s s') (hs : Bounded s) : Bounded s' where
  distinct := hs.distinct.sublist h.sublist
  room user := by
    have hle := h.sublist.countP_le (p := fun a => a.1 == user)
    rw [← length_ofUser, ← length_ofUser] at hle
    exact h.capacity ▸ hle.trans (hs.room user)

theorem shrinks_apply (now : Time) (user query : String) (embedding : Option Embedding)
    (s : PatternStore) : Shrinks s (s.apply now user query embedding).2 := by
  have hsame : (s.apply now user query embedding).2.addresses = s.addresses :=
    map_address_apply now user query embedding s
  refine ⟨?_, hsame ▸ .refl _⟩
  rcases apply_inv now user query embedding s with ⟨-, h⟩ | ⟨q, -, h, -⟩ <;> rw [h]
  rcases recordMatch_inv now q s with ⟨-, h⟩ | ⟨-, guards, guardCount, scheduled, -, h⟩ <;> rw [h] <;>
    rfl

/-- An event puts a pattern into the store, or it only takes patterns away. -/
theorem after_cases (e : Event) (s : PatternStore) :
    Shrinks s (e.after s) ∨ ∃ mergeAlike p, e.after s = (s.insert mergeAlike p).2 := by
  cases e with
  | store p mergeAlike w =>
    rw [after_store]
    split
    · exact .inr ⟨mergeAlike, embedded p w, rfl⟩
    · exact .inl (abides_shrinks.refl s)
  | matchQuery user query w =>
    rw [Event.after]
    rcases matchQuery_inv user query s w with ⟨why, h⟩ | ⟨e, w', -, h⟩ <;> rw [h]
    · exact .inl (abides_shrinks.refl s)
    · exact .inl (shrinks_apply w'.now user query e s)
  | answer user query embedding now => exact .inl (shrinks_apply now user query embedding s)
  | list user => exact .inl (abides_shrinks.refl s)
  | consolidate user => exact .inl (abides_shrinks.consolidate s user)
  | wait d w => exact .inl (abides_shrinks.wait s w d)
  | waitAll w => exact .inl (abides_shrinks.waitAll s w)
  | deleteUser user => exact .inl ⟨rfl, List.filter_sublist.map address⟩

/-! ### What comes in -/

/-- At most one pattern comes in, behind those that are there. Others may go. -/
structure Succeeds (s s' : PatternStore) : Prop where
  capacity : s'.capacity = s.capacity
  grows : ∃ fresh : Option (String × String), (∀ a ∈ fresh, a ∉ s.addresses) ∧
    s'.addresses.Sublist (s.addresses ++ fresh.toList)

theorem Shrinks.succeeds (h : Shrinks s s') : Succeeds s s' :=
  ⟨h.capacity, none, by simp, by simpa using h.sublist⟩

/-- A pattern that is put takes the place of the one that was kept there, or it is the one that comes
in. -/
theorem succeeds_put {ps : List Pattern} (hps : (ps.map address).Sublist s.addresses)
    (hold : address p ∈ s.addresses → address p ∈ ps.map address) :
    Succeeds s { s with patterns := Keyed.put address p ps } := by
  have hput : addresses { s with patterns := Keyed.put address p ps } = _ := Keyed.map_put address p
  refine ⟨rfl, ?_⟩
  rw [hput]
  split
  · exact ⟨none, by simp, by rwa [Option.toList_none, List.append_nil]⟩
  · next hp =>
    refine ⟨some (address p), fun a h => ?_, hps.append_right _⟩
    exact Option.some.inj h ▸ mt hold hp

theorem succeeds_insert (mergeAlike : Bool) (p : Pattern) (s : PatternStore) :
    Succeeds s (s.insert mergeAlike p).2 := by
  have hcapacity : (s.insert mergeAlike p).2.capacity = s.capacity := by
    obtain ⟨ps, h⟩ := insert_inv mergeAlike p s
    rw [h]
  refine ⟨hcapacity, ?_⟩
  rcases insert_cases mergeAlike p s with ⟨-, h⟩ | ⟨q, survivor, loser, -, hmerges, h⟩ <;> rw [h]
  · obtain ⟨fresh, hfresh, hsub⟩ := (succeeds_put (p := p) (.refl s.addresses) id).grows
    exact ⟨fresh, hfresh, ((evict_sublist p.user _).map address).trans hsub⟩
  · refine (succeeds_put (List.filter_sublist.map address) fun hmem => ?_).grows
    -- the survivor is not the loser, so it is still where it was
    obtain ⟨a, ha, hkept⟩ := List.mem_map.1 hmem
    refine List.mem_map.2 ⟨a, List.mem_filter.2 ⟨ha, ?_⟩, hkept⟩
    have hne : survivor.id ≠ loser.id := by
      rcases hmerges.eq_or with ⟨rfl, rfl⟩ | ⟨rfl, rfl⟩
      · exact hmerges.other
      · exact hmerges.other.symm
    rw [hkept]
    simp [address, merge_id, hne]

theorem succeeds_after (e : Event) (s : PatternStore) : Succeeds s (e.after s) := by
  rcases after_cases e s with h | ⟨mergeAlike, p, h⟩
  · exact h.succeeds
  · exact h ▸ succeeds_insert mergeAlike p s

/-! ### Which pattern goes -/

/-- Patterns by use, then by the latest use. -/
def standing (p : Pattern) : Int ×ₗ Time := toLex (p.usage, p.lastUsed)

theorem isLesser_eq : isLesser = fun a b => decide (standing a < standing b) := by
  funext a b
  rw [Bool.eq_iff_iff, decide_eq_true_eq, standing, standing, Prod.Lex.toLex_lt_toLex]
  simp [isLesser]

/-- The first of the least patterns goes, and the others stay in their order. -/
def Drops (v : Pattern) (ps qs : List Pattern) : Prop :=
  ∃ l r, ps = l ++ v :: r ∧ qs = l ++ r ∧ (∀ q ∈ l, standing v < standing q) ∧
    ∀ q ∈ r, standing v ≤ standing q

theorem Drops.length {v : Pattern} {ps qs : List Pattern} (h : Drops v ps qs) :
    ps.length = qs.length + 1 := by
  obtain ⟨l, r, rfl, rfl, -, -⟩ := h
  simp only [List.length_append, List.length_cons]
  omega

theorem Drops.eq_of_mem {v v' : Pattern} {ps qs : List Pattern} (h : Drops v ps qs) (hv : v' ∈ ps)
    (hgone : v' ∉ qs) : v' = v := by
  obtain ⟨l, r, rfl, rfl, -, -⟩ := h
  simp only [List.mem_append, List.mem_cons] at hv hgone
  tauto

theorem drops_withoutLeast (hs : s.addresses.Nodup) (hne : s.ofUser user ≠ []) :
    ∃ v, Drops v (s.ofUser user) ((s.withoutLeast user).ofUser user) := by
  cases hof : s.ofUser user with
  | nil => exact absurd hof hne
  | cons p rest =>
    obtain ⟨l, r, hsplit, hl, hr⟩ := leastFrom_first standing p rest
    rw [← isLesser_eq] at hsplit hl hr
    have hmem : leastFrom isLesser p rest ∈ s.ofUser user := hof ▸ leastFrom_mem isLesser p rest
    have hids := nodup_ids_ofUser hs user
    rw [hof, hsplit] at hids
    refine ⟨leastFrom isLesser p rest, l, r, hsplit, ?_, hl, hr⟩
    simp only [withoutLeast, hof]
    rw [address, ofUser_remove, if_pos (user_of_mem_ofUser user s hmem), hof, hsplit,
      Keyed.remove_middle Pattern.id hids]

/-- Where at most one pattern is too many, none goes or the first of the least ones. -/
theorem ofUser_evict (hs : s.addresses.Nodup) (hle : (s.ofUser user).length ≤ s.capacity + 1) :
    (s.evict user).ofUser user = s.ofUser user ∧ (s.ofUser user).length ≤ s.capacity ∨
      (∃ v, Drops v (s.ofUser user) ((s.evict user).ofUser user)) ∧
        ((s.evict user).ofUser user).length = s.capacity := by
  rcases Nat.lt_or_eq_of_le hle with hlt | hfull
  · have hroom := Nat.le_of_lt_succ hlt
    exact .inl ⟨by rw [evict_of_le hroom], hroom⟩
  · have hevict : s.evict user = s.withoutLeast user := by
      rw [evict, hfull, Nat.add_sub_cancel_left]
      rfl
    obtain ⟨v, hdrops⟩ := drops_withoutLeast hs (List.ne_nil_of_length_eq_add_one hfull)
    rw [hevict]
    exact .inr ⟨⟨v, hdrops⟩, Nat.succ_injective (hdrops.length.symm.trans hfull)⟩

/-- When a pattern comes in that is not merged, none goes or the first of the least ones. -/
theorem ofUser_insert (hs : Bounded s) {mergeAlike : Bool}
    (hunmerged : mergeAlike = true → s.counterpart? p = none) :
    (s.insert mergeAlike p).2.ofUser p.user = Keyed.put Pattern.id p (s.ofUser p.user) ∧
        (Keyed.put Pattern.id p (s.ofUser p.user)).length ≤ s.capacity ∨
      (∃ v, Drops v (Keyed.put Pattern.id p (s.ofUser p.user))
          ((s.insert mergeAlike p).2.ofUser p.user)) ∧
        ((s.insert mergeAlike p).2.ofUser p.user).length = s.capacity := by
  have hinsert : (s.insert mergeAlike p).2 =
      { s with patterns := Keyed.put address p s.patterns }.evict p.user := by
    rcases insert_cases mergeAlike p s with ⟨-, h⟩ | ⟨q, survivor, loser, hmerge, hmerges, -⟩
    · exact h
    · exact absurd (hmerges.counterpart.symm.trans (hunmerged hmerge)) (Option.some_ne_none q)
  have hput : ofUser { s with patterns := Keyed.put address p s.patterns } p.user =
      Keyed.put Pattern.id p (s.ofUser p.user) := (ofUser_put p s).trans (if_pos rfl)
  rw [hinsert, ← hput]
  refine ofUser_evict (Keyed.nodup_put address hs.distinct p) ?_
  rw [hput]
  exact (Keyed.length_put_le Pattern.id p).trans (Nat.succ_le_succ (hs.room p.user))

/-- A merge leaves as many patterns as there were at most. -/
theorem Merges.length_ofUser_le {q survivor loser : Pattern} (h : Merges s p q survivor loser)
    (hs : Bounded s) :
    ((s.settle (survivor.merge s.policy loser) loser).ofUser user).length ≤
      (s.ofUser user).length := by
  rw [h.ofUser_settle]
  split
  · next hp =>
    subst hp
    have hids := nodup_ids_ofUser hs.distinct p.user
    have hafter := (Keyed.put_perm Pattern.id (Keyed.nodup_remove Pattern.id loser.id hids)
      (survivor.merge s.policy loser)).length_eq
    have hbefore := (Keyed.perm_cons_remove Pattern.id hids h.stored).length_eq
    have hrest : (Keyed.remove Pattern.id survivor.id
        (Keyed.remove Pattern.id loser.id (s.ofUser p.user))).Sublist
        (Keyed.remove Pattern.id q.id (s.ofUser p.user)) := by
      rcases h.eq_or with ⟨rfl, rfl⟩ | ⟨rfl, rfl⟩
      · rw [Keyed.remove_comm]
        exact List.filter_sublist
      · exact List.filter_sublist
    rw [merge_id, List.length_cons] at hafter
    rw [hafter, hbefore, List.length_cons]
    exact Nat.succ_le_succ hrest.length_le
  · exact le_rfl

theorem Bounded.insert (hs : Bounded s) (mergeAlike : Bool) (p : Pattern) :
    Bounded (s.insert mergeAlike p).2 := by
  refine ⟨nodup_insert hs.distinct mergeAlike p, fun user => ?_⟩
  rw [(succeeds_insert mergeAlike p s).capacity]
  by_cases hp : p.user = user
  · subst hp
    rcases insert_cases mergeAlike p s with ⟨hunmerged, -⟩ | ⟨q, survivor, loser, -, hmerges, h⟩
    · rcases ofUser_insert hs hunmerged with ⟨hof, hroom⟩ | ⟨-, hlength⟩
      · exact hof ▸ hroom
      · exact hlength.le
    · rw [h]
      exact (hmerges.length_ofUser_le hs).trans (hs.room p.user)
  · rw [ofUser_insert_of_ne hp]
    exact hs.room user

theorem Bounded.after (hs : Bounded s) (e : Event) : Bounded (e.after s) := by
  rcases after_cases e s with h | ⟨mergeAlike, p, h⟩
  · exact h.bounded hs
  · exact h ▸ hs.insert mergeAlike p

/-! ### Runs -/

theorem run_concat (s : PatternStore) (es : List Event) (e : Event) :
    s.run (es ++ [e]) = e.after (s.run es) := by
  rw [run, List.foldl_concat]
  rfl

theorem Bounded.run (hs : Bounded s) (es : List Event) :
    Bounded (s.run es) ∧ (s.run es).capacity = s.capacity := by
  induction es using List.reverseRecOn with
  | nil => exact ⟨hs, rfl⟩
  | append_singleton es e ih =>
    rw [run_concat]
    exact ⟨ih.1.after e, (succeeds_after e _).capacity.trans ih.2⟩

/-- At some time in the run there was no pattern at the second address, and one at the first, where
there has been one ever since. -/
def CameBefore (s : PatternStore) (es : List Event) (a b : String × String) : Prop :=
  ∃ before since, es = before ++ since ∧ b ∉ (s.run before).addresses ∧
    ∀ l, l <+: since → a ∈ (s.run (before ++ l)).addresses

variable {es : List Event} {a b : String × String}

theorem CameBefore.of_mem (ha : a ∈ (s.run es).addresses) (hb : b ∉ (s.run es).addresses) :
    CameBefore s es a b := by
  refine ⟨es, [], (List.append_nil es).symm, hb, fun l hl => ?_⟩
  rwa [List.prefix_nil.1 hl, List.append_nil]

theorem CameBefore.concat (h : CameBefore s es a b) {e : Event}
    (ha : a ∈ (s.run (es ++ [e])).addresses) : CameBefore s (es ++ [e]) a b := by
  obtain ⟨before, since, rfl, hb, hsince⟩ := h
  refine ⟨before, since ++ [e], List.append_assoc .., hb, fun l hl => ?_⟩
  rcases List.prefix_concat_iff.1 hl with rfl | hl
  · rwa [← List.append_assoc]
  · exact hsince l hl

theorem pairwise_append_fresh (h : (s.run es).addresses.Pairwise (CameBefore s es))
    {fresh : Option (String × String)} (hfresh : ∀ a ∈ fresh, a ∉ (s.run es).addresses) :
    ((s.run es).addresses ++ fresh.toList).Pairwise (CameBefore s es) := by
  refine List.pairwise_append.2 ⟨h, by cases fresh <;> simp, fun a ha b hb => ?_⟩
  exact .of_mem ha (hfresh b (Option.mem_toList.1 hb))

/-- In a run from an empty store, a pattern that stands before another one came before it. -/
theorem pairwise_cameBefore (hempty : s.patterns = []) (es : List Event) :
    (s.run es).addresses.Pairwise (CameBefore s es) := by
  induction es using List.reverseRecOn with
  | nil => simp [run, addresses, hempty]
  | append_singleton es e ih =>
    obtain ⟨fresh, hfresh, hsub⟩ := (succeeds_after e (s.run es)).grows
    rw [← run_concat] at hsub
    have hordered := (pairwise_append_fresh ih hfresh).sublist hsub
    exact hordered.imp_of_mem fun ha _ h => h.concat ha

/-- The patterns of a user when one comes in are in the order in which they have come. -/
theorem pairwise_put (hempty : s.patterns = []) (es : List Event) (p : Pattern) :
    ((Keyed.put Pattern.id p ((s.run es).ofUser p.user)).map address).Pairwise
      (CameBefore s es) := by
  obtain ⟨-, fresh, hfresh, hsub⟩ := succeeds_put (p := p) (.refl (s.run es).addresses) id
  have hput : ofUser { s.run es with patterns := Keyed.put address p (s.run es).patterns } p.user =
      Keyed.put Pattern.id p ((s.run es).ofUser p.user) := (ofUser_put p _).trans (if_pos rfl)
  rw [← hput]
  exact (pairwise_append_fresh (pairwise_cameBefore hempty es) hfresh).sublist
    ((List.filter_sublist.map address).trans hsub)

/-- A pattern goes when one comes in that is not merged. It may be the one that comes in. -/
structure Evicts (s : PatternStore) (p : Pattern) (mergeAlike : Bool) (w : World) (v : Pattern) :
    Prop where
  adds : (Event.store p mergeAlike w).Adds p.user s
  candidate : v ∈ Keyed.put Pattern.id (embedded p w) (s.ofUser p.user)
  gone : address v ∉ ((Event.store p mergeAlike w).after s).addresses

theorem after_of_adds {mergeAlike : Bool} {w : World}
    (h : (Event.store p mergeAlike w).Adds p.user s) :
    (Event.store p mergeAlike w).after s = (s.insert mergeAlike (embedded p w)).2 ∧
      (mergeAlike = true → s.counterpart? (embedded p w) = none) := by
  obtain ⟨hok, -, hunmerged⟩ := h
  refine ⟨?_, fun hm => (counterpart?_embedded p).trans (hunmerged hm)⟩
  rw [after_store, if_pos hok]

/-- The pattern that goes is the first of the least ones, and as many stay as there is room for. -/
theorem Evicts.drops (hs : Bounded s) {mergeAlike : Bool} {w : World} {v : Pattern}
    (h : Evicts s p mergeAlike w v) :
    Drops v (Keyed.put Pattern.id (embedded p w) (s.ofUser p.user))
        (((Event.store p mergeAlike w).after s).ofUser p.user) ∧
      (((Event.store p mergeAlike w).after s).ofUser p.user).length = s.capacity := by
  obtain ⟨hafter, hunmerged⟩ := after_of_adds h.adds
  have hgone : v ∉ (s.insert mergeAlike (embedded p w)).2.ofUser p.user := by
    intro hv
    refine h.gone ?_
    rw [hafter]
    exact List.mem_map_of_mem (List.mem_filter.1 hv).1
  rw [hafter]
  rcases ofUser_insert hs hunmerged with ⟨hof, -⟩ | ⟨⟨v', hdrops⟩, hlength⟩
  · exact absurd (hof ▸ h.candidate) hgone
  · obtain rfl := hdrops.eq_of_mem h.candidate hgone
    exact ⟨hdrops, hlength⟩

/-- In a run from an empty store no user ever has more patterns than there is room for, and under a
user and an identifier there is the pattern of that user with that identifier. Where a pattern goes
when one comes in, as many stay as there is room for, and each of them stands higher by its use and
the latest use, or as high and came later. -/
theorem run_withinCapacity (hempty : s.patterns = []) (es : List Event) :
    (∀ user, ((s.run es).ofUser user).length ≤ s.capacity) ∧
      (∀ user id q, Keyed.find? address (user, id) (s.run es).patterns = some q ↔
        q ∈ (s.run es).patterns ∧ q.user = user ∧ q.id = id) ∧
      ∀ p mergeAlike w v, Evicts (s.run es) p mergeAlike w v →
        (((Event.store p mergeAlike w).after (s.run es)).ofUser p.user).length = s.capacity ∧
        ∀ q ∈ ((Event.store p mergeAlike w).after (s.run es)).ofUser p.user,
          standing v < standing q ∨
            standing v = standing q ∧ CameBefore s es (address v) (address q) := by
  obtain ⟨hbounded, hcapacity⟩ := (Bounded.of_empty hempty).run es
  refine ⟨fun user => hcapacity ▸ hbounded.room user, fun user id q => ?_, ?_⟩
  · rw [Keyed.find?_eq_some_iff address hbounded.distinct]
    simp [address]
  · intro p mergeAlike w v h
    obtain ⟨⟨l, r, hsplit, hof, hl, hr⟩, hlength⟩ := h.drops hbounded
    have hordered := pairwise_put hempty es (embedded p w)
    rw [show (embedded p w).user = p.user from rfl, hsplit, List.map_append, List.map_cons,
      List.pairwise_append, List.pairwise_cons] at hordered
    refine ⟨hlength.trans hcapacity, fun q hq => ?_⟩
    rw [hof] at hq
    rcases List.mem_append.1 hq with hq | hq
    · exact .inl (hl q hq)
    · rcases lt_or_eq_of_le (hr q hq) with hlt | heq
      · exact .inl hlt
      · exact .inr ⟨heq, hordered.2.1.1 _ (List.mem_map_of_mem hq)⟩

/-- Two greetings that have been used as often and as long ago. -/
def crowd : List Event :=
  [.store (greeting "a" "morning" "hello") false {}, .store (greeting "b" "evening" "bye") false {}]

/-- A greeting that has been used as often as they have. -/
def latecomer : Pattern := greeting "c" "noon" "hi"

theorem run_withinCapacity_crowd :
    let s : PatternStore := { capacity := 2 }
    let a : Pattern := greeting "a" "morning" "hello"
    let s' := (Event.store latecomer false {}).after (s.run crowd)
    (s.patterns = [] ∧ Evicts (s.run crowd) latecomer false {} a) ∧
      (s'.ofUser "u").map Pattern.id = ["b", "c"] ∧ (s'.ofUser "u").length = 2 ∧
      ∀ q ∈ s'.ofUser "u", standing a < standing q ∨
        standing a = standing q ∧ CameBefore s crowd (address a) (address q) := by
  intro s a s'
  have hevicts : Evicts (s.run crowd) latecomer false {} a :=
    ⟨⟨by decide +kernel, rfl, nofun⟩, List.mem_cons_self, by decide +kernel⟩
  have hids : (s'.ofUser "u").map Pattern.id = ["b", "c"] := by decide +kernel
  exact ⟨⟨rfl, hevicts⟩, hids, (run_withinCapacity rfl crowd).2.2 latecomer false {} a hevicts⟩

end TieredMemory.PatternStore
