import TieredMemory.Proofs.HotCache.Consistency

/-!
# The turns at a place

What each operation of a hot cache does to the turns at one place, whichever place the operation is
about. Reading changes none; a write changes those at its own place and takes a turn with its
identifier away from any other; a sweep leaves the turns at a place as they are or drops them all.
Only a write brings in a turn, and only at its place (`mem_turnsAt_add`); nor does anything else
make a bucket (`places_add`).
-/

namespace TieredMemory.HotCache

variable {c : HotCache}

theorem turnsAt_of_bucket? {p : Place} {b : Bucket} (h : c.bucket? p = some b) :
    c.turnsAt p = b.turns := by
  simp [turnsAt, h]

theorem turnsAt_of_bucket?_eq_none {p : Place} (h : c.bucket? p = none) : c.turnsAt p = [] := by
  simp [turnsAt, h]

/-! ### Removing -/

theorem Consistent.filter_turnsAt (h : Consistent c) {id : String} {p : Place}
    (hp : c.placeOf? id ≠ some p) : ((c.turnsAt p).filter fun t => t.id ≠ id) = c.turnsAt p := by
  refine List.filter_eq_self.2 fun t ht => decide_eq_true ?_
  rintro rfl
  exact hp (h.mem_turnsAt.1 (List.mem_map_of_mem ht))

theorem Consistent.turnsAt_remove (h : Consistent c) (id : String) (p : Place) :
    (c.remove id).2.turnsAt p = (c.turnsAt p).filter fun t => t.id ≠ id := by
  unfold HotCache.remove
  split
  · rename_i hnone
    exact (h.filter_turnsAt (by simp [hnone])).symm
  rename_i q hq
  split
  · rename_i hnone
    obtain ⟨b, hb, hbq, -⟩ := (h.inverse id q).1 hq
    rw [h.bucket?_eq_some.2 ⟨hb, hbq⟩] at hnone
    cases hnone
  · unfold turnsAt bucket?
    simp only
    rw [Keyed.find?_update Bucket.place (fun b => by rfl)]
    cases hb : Keyed.find? Bucket.place p c.buckets with
    | none => rfl
    | some b =>
      simp only [Option.map_some, Option.getD_some]
      split
      · rfl
      · rename_i hne
        have hbp : b.place = p := (h.bucket?_eq_some.1 hb).2
        have hnot : c.placeOf? id ≠ some p := by
          rw [hq]
          exact fun e => hne (hbp.trans (Option.some.inj e).symm)
        have hkept := h.filter_turnsAt hnot
        rw [turnsAt_of_bucket? hb] at hkept
        exact hkept.symm

theorem Consistent.turnsAt_withoutElsewhere (h : Consistent c) (id : String) {p q : Place}
    (hne : p ≠ q) :
    (c.withoutElsewhere id q).turnsAt p = (c.turnsAt p).filter fun t => t.id ≠ id := by
  unfold HotCache.withoutElsewhere
  split
  · rename_i hall
    refine (h.filter_turnsAt fun e => hne ?_).symm
    simpa [e] using hall
  · exact h.turnsAt_remove id p

/-! ### Touching and writing -/

theorem find?_touch (now : Time) (b : Bucket) (bs : List Bucket) (p : Place) :
    Keyed.find? Bucket.place p (touch now b bs) =
      if b.place = p then some { b with lastTouched := now }
      else Keyed.find? Bucket.place p bs := by
  unfold touch
  rw [Keyed.find?, List.find?_append, ← Keyed.find?, Keyed.find?_remove]
  by_cases hp : b.place = p
  · simp [hp]
  · simp [hp]

theorem turnsAt_recent (now : Time) (q : Place) (n : Nat) (c : HotCache) (p : Place) :
    (c.recent now q n).2.turnsAt p = c.turnsAt p := by
  unfold HotCache.recent
  split
  · rfl
  rename_i b hb
  split
  · rfl
  have hq : b.place = q := by simpa using List.find?_some hb
  unfold turnsAt bucket?
  simp only [find?_touch]
  split
  · rename_i hp
    rw [← hp, hq, ← bucket?, hb]
    rfl
  · rfl

theorem turnsAt_insert (now : Time) (q : Place) (t : Turn) (c : HotCache) (p : Place) :
    (c.insert now q t).turnsAt p =
      if q = p then evict c.capacity (withTurn t (c.turnsAt p)) else c.turnsAt p := by
  unfold insert
  conv_lhs => unfold turnsAt bucket?
  simp only [find?_touch]
  split
  · rename_i hq
    rw [hq]
    rfl
  · rfl

theorem Consistent.turnsAt_write (h : Consistent c) (now : Time) (p : Place) (t : Turn) :
    (c.write now p t).turnsAt p = evict c.capacity (withTurn t (c.turnsAt p)) := by
  unfold HotCache.write
  have hcap : (c.withoutElsewhere t.id p).capacity = c.capacity :=
    congrArg Prod.fst (settings_withoutElsewhere t.id p c)
  rw [turnsAt_insert, if_pos rfl, hcap]
  unfold withTurn HotCache.withoutElsewhere
  split
  · rfl
  · rw [h.turnsAt_remove, List.filter_filter]
    simp

theorem Consistent.turnsAt_write_of_ne (h : Consistent c) (now : Time) (t : Turn) {p q : Place}
    (hne : p ≠ q) : (c.write now q t).turnsAt p = (c.turnsAt p).filter fun x => x.id ≠ t.id := by
  unfold HotCache.write
  rw [turnsAt_insert, if_neg (Ne.symm hne), h.turnsAt_withoutElsewhere t.id hne]

/-! ### Sweeping -/

theorem Consistent.bucket?_of_sweep (h : Consistent c) {now : Time} {p : Place} {b : Bucket}
    (hb : (c.sweep now).2.bucket? p = some b) : c.bucket? p = some b := by
  obtain ⟨hb, hp⟩ := (h.sweep now).bucket?_eq_some.1 hb
  exact h.bucket?_eq_some.2 ⟨List.mem_of_mem_filter (List.mem_of_mem_drop hb), hp⟩

theorem Consistent.turnsAt_sweep (h : Consistent c) (now : Time) (p : Place) :
    (c.sweep now).2.turnsAt p = c.turnsAt p ∨ (c.sweep now).2.bucket? p = none := by
  cases hb : (c.sweep now).2.bucket? p with
  | none => exact .inr rfl
  | some b =>
    left
    rw [turnsAt_of_bucket? hb, turnsAt_of_bucket? (h.bucket?_of_sweep hb)]

theorem Consistent.turnsAt_add (h : Consistent c) (clock : Readings) (p q : Place) (t : Turn) :
    (c.add clock q t).turnsAt p = (c.write clock.touch q t).turnsAt p ∨
      (c.add clock q t).bucket? p = none := by
  unfold HotCache.add sweepIfDue
  split
  · exact (h.write clock.touch q t).turnsAt_sweep clock.sweep p
  · exact .inl rfl

theorem Consistent.mem_turnsAt_sweep (h : Consistent c) {now : Time} {p : Place} {x : Turn}
    (hx : x ∈ (c.sweep now).2.turnsAt p) : x ∈ c.turnsAt p := by
  rcases h.turnsAt_sweep now p with he | hnone
  · rwa [← he]
  · simp [turnsAt_of_bucket?_eq_none hnone] at hx

theorem Consistent.mem_turnsAt_write (h : Consistent c) {now : Time} {p q : Place} {t x : Turn}
    (hx : x ∈ (c.write now q t).turnsAt p) :
    p = q ∧ x = t ∨ x ∈ c.turnsAt p ∧ x.id ≠ t.id := by
  by_cases hpq : p = q
  · subst hpq
    rw [h.turnsAt_write] at hx
    have hx := (evict_sublist c.capacity _).subset hx
    simp only [withTurn, List.mem_append, List.mem_filter, decide_eq_true_eq,
      List.mem_singleton] at hx
    rcases hx with hx | rfl
    · exact .inr hx
    · exact .inl ⟨rfl, rfl⟩
  · rw [h.turnsAt_write_of_ne now t hpq] at hx
    exact .inr (by simpa using hx)

/-- A turn that is somewhere after an addition is the added one at its place, or was there before
and has another identifier. -/
theorem Consistent.mem_turnsAt_add (h : Consistent c) {clock : Readings} {p q : Place}
    {t x : Turn} (hx : x ∈ (c.add clock q t).turnsAt p) :
    p = q ∧ x = t ∨ x ∈ c.turnsAt p ∧ x.id ≠ t.id := by
  rcases h.turnsAt_add clock p q t with he | hnone
  · exact h.mem_turnsAt_write (he ▸ hx)
  · simp [turnsAt_of_bucket?_eq_none hnone] at hx

/-! ### Recalling -/

/-- What is recalled are the last turns at the place. -/
theorem recent_fst (now : Time) (p : Place) (n : Nat) (c : HotCache) :
    (c.recent now p n).1 = lastOf n (inOrder (c.turnsAt p)) := by
  unfold HotCache.recent
  cases hb : c.bucket? p with
  | none => simp [turnsAt_of_bucket?_eq_none hb, inOrder, ascending, lastOf]
  | some b =>
    rw [turnsAt_of_bucket? hb]
    simp only
    split
    · next hn => simp [hn, lastOf]
    · rfl

theorem mem_turnsAt_of_recent {now : Time} {p : Place} {n : Nat} {x : Turn}
    (hx : x ∈ (c.recent now p n).1) : x ∈ c.turnsAt p := by
  rw [recent_fst] at hx
  exact List.mem_mergeSort.1 (List.mem_of_mem_drop hx)

/-- Within the capacity all turns at the place are recalled. -/
theorem Consistent.mem_recent (h : Consistent c) {now : Time} {p : Place} {n : Nat} {x : Turn}
    (hn : c.capacity ≤ n) : x ∈ (c.recent now p n).1 ↔ x ∈ c.turnsAt p := by
  have hlength : (c.turnsAt p).length ≤ n := by
    cases hb : c.bucket? p with
    | none => simp [turnsAt_of_bucket?_eq_none hb]
    | some b =>
      rw [turnsAt_of_bucket? hb]
      exact (h.bounded b (h.bucket?_eq_some.1 hb).1).trans hn
  have hall : (inOrder (c.turnsAt p)).length - n = 0 := by
    unfold inOrder ascending
    rw [List.length_mergeSort]
    omega
  rw [recent_fst, lastOf, hall, List.drop_zero]
  exact List.mem_mergeSort

/-! ### Deleting a user -/

theorem bucket?_deleteUser (user : String) (c : HotCache) (p : Place) :
    (c.deleteUser user).2.bucket? p = if p.user = user then none else c.bucket? p := by
  unfold deleteUser dropWhere bucket?
  simp only
  rw [Keyed.find?_filter Bucket.place fun p => !(p.user == user)]
  by_cases hp : p.user = user <;> simp [hp]

theorem turnsAt_deleteUser (user : String) (c : HotCache) (p : Place) :
    (c.deleteUser user).2.turnsAt p = if p.user = user then [] else c.turnsAt p := by
  unfold turnsAt
  rw [bucket?_deleteUser]
  split <;> rfl

/-! ### Places -/

theorem places_sweep (now : Time) (c : HotCache) :
    (c.sweep now).2.buckets.map Bucket.place ⊆ c.buckets.map Bucket.place :=
  ((List.drop_sublist _ _).trans List.filter_sublist).map Bucket.place |>.subset

theorem places_remove (id : String) (c : HotCache) :
    (c.remove id).2.buckets.map Bucket.place = c.buckets.map Bucket.place := by
  unfold HotCache.remove
  split
  · rfl
  · split
    · rfl
    · exact Keyed.map_update Bucket.place (fun b => by rfl) _ _

theorem places_touch (now : Time) (b : Bucket) (bs : List Bucket) :
    (touch now b bs).map Bucket.place ⊆ b.place :: bs.map Bucket.place := by
  intro p hp
  obtain ⟨b', hb', rfl⟩ := List.mem_map.1 hp
  rcases mem_touch.1 hb' with ⟨hb', -⟩ | rfl
  · exact List.mem_cons_of_mem _ (List.mem_map_of_mem hb')
  · exact List.mem_cons_self

theorem places_recent (now : Time) (p : Place) (n : Nat) (c : HotCache) :
    (c.recent now p n).2.buckets.map Bucket.place ⊆ c.buckets.map Bucket.place := by
  unfold HotCache.recent
  split
  · exact List.Subset.refl _
  · next b hb =>
    split
    · exact List.Subset.refl _
    · refine List.Subset.trans (places_touch now b c.buckets)
        (List.cons_subset.2 ⟨?_, List.Subset.refl _⟩)
      exact List.mem_map_of_mem (List.mem_of_find?_eq_some hb)

theorem places_add (clock : Readings) (p : Place) (t : Turn) (c : HotCache) :
    (c.add clock p t).buckets.map Bucket.place ⊆ p :: c.buckets.map Bucket.place := by
  have hwrite : (c.write clock.touch p t).buckets.map Bucket.place ⊆
      p :: c.buckets.map Bucket.place := by
    refine List.Subset.trans (places_touch clock.touch _ _) (List.cons_subset_cons p ?_)
    unfold withoutElsewhere
    split
    · exact List.Subset.refl _
    · rw [places_remove]
      exact List.Subset.refl _
  unfold HotCache.add sweepIfDue
  split
  · exact List.Subset.trans (places_sweep clock.sweep _) hwrite
  · exact hwrite

end TieredMemory.HotCache
