import Mathlib.Data.List.Nodup
import TieredMemory.Proofs.HotCache.Run
import TieredMemory.Proofs.Selection

/-!
# Buckets and index agree

The buckets and the index of a hot cache are kept apart and every operation changes both by hand.
`Consistent` says what they have in common: no bucket is over its capacity, no two buckets are at one
place, and the index finds a turn at a place exactly if the bucket of that place holds it. Every
operation preserves this, so it holds after every run. It follows that no identifier occurs twice in
the whole cache.
-/

namespace TieredMemory

/-- The identifiers of the turns of a bucket. -/
def Bucket.ids (b : Bucket) : List String := b.turns.map Turn.id

/-- The bucket without the turn with the identifier. -/
def Bucket.without (id : String) (b : Bucket) : Bucket :=
  { b with turns := b.turns.filter fun t => t.id ≠ id }

namespace HotCache

/-- Buckets within their capacity, at distinct places, and indexed exactly. -/
structure Consistent (c : HotCache) : Prop where
  bounded : ∀ b ∈ c.buckets, b.turns.length ≤ c.capacity
  distinct : ∀ b ∈ c.buckets, b.ids.Nodup
  places : (c.buckets.map Bucket.place).Nodup
  inverse : ∀ id p, c.placeOf? id = some p ↔ ∃ b ∈ c.buckets, b.place = p ∧ id ∈ b.ids

variable {c : HotCache}

/-! ### What follows from consistency -/

theorem Consistent.bucket?_eq_some (h : Consistent c) {p : Place} {b : Bucket} :
    c.bucket? p = some b ↔ b ∈ c.buckets ∧ b.place = p :=
  Keyed.find?_eq_some_iff Bucket.place h.places

/-- An identifier is in one bucket only. -/
theorem Consistent.place_eq (h : Consistent c) {b b' : Bucket} (hb : b ∈ c.buckets)
    (hb' : b' ∈ c.buckets) {id : String} (hid : id ∈ b.ids) (hid' : id ∈ b'.ids) :
    b.place = b'.place := by
  have h₁ := (h.inverse id b.place).2 ⟨b, hb, rfl, hid⟩
  have h₂ := (h.inverse id b'.place).2 ⟨b', hb', rfl, hid'⟩
  rw [h₁] at h₂
  exact Option.some.inj h₂

theorem Consistent.nodup_ids (h : Consistent c) : (c.buckets.flatMap Bucket.ids).Nodup := by
  rw [List.nodup_flatMap]
  refine ⟨h.distinct, (List.pairwise_map.1 h.places).imp_of_mem fun hb hb' hne => ?_⟩
  intro id hid hid'
  exact hne (h.place_eq hb hb' hid hid')

theorem Consistent.mem_turnsAt (h : Consistent c) {p : Place} {id : String} :
    id ∈ (c.turnsAt p).map Turn.id ↔ c.placeOf? id = some p := by
  rw [h.inverse]
  unfold turnsAt
  cases hp : c.bucket? p with
  | none =>
    have hno := (Keyed.find?_eq_none_iff Bucket.place).1 hp
    simp only [Option.map_none, Option.getD_none, List.map_nil, List.not_mem_nil, false_iff]
    rintro ⟨b, hb, rfl, -⟩
    exact hno (List.mem_map_of_mem hb)
  | some b =>
    obtain ⟨hb, hbp⟩ := h.bucket?_eq_some.1 hp
    constructor
    · exact fun hid => ⟨b, hb, hbp, hid⟩
    · rintro ⟨b', hb', hbp', hid⟩
      have := h.bucket?_eq_some.2 ⟨hb', hbp'⟩
      rw [hp] at this
      cases this
      exact hid

theorem Consistent.nodup_turnsAt (h : Consistent c) (p : Place) :
    ((c.turnsAt p).map Turn.id).Nodup := by
  unfold turnsAt
  cases hp : c.bucket? p with
  | none => simp
  | some b => exact h.distinct b (h.bucket?_eq_some.1 hp).1

/-! ### Dropping buckets -/

theorem find?_withoutEntries (ts : List Turn) (index : List (String × Place)) (id : String) :
    Keyed.find? Prod.fst id (withoutEntries ts index) =
      if id ∈ ts.map Turn.id then none else Keyed.find? Prod.fst id index := by
  unfold withoutEntries
  rw [Keyed.find?_filter Prod.fst (fun id => ts.all fun t => t.id ≠ id)]
  by_cases hid : id ∈ ts.map Turn.id
  · obtain ⟨t, ht, rfl⟩ := List.mem_map.1 hid
    rw [if_pos hid, if_neg]
    simpa using ⟨t, ht, rfl⟩
  · rw [if_neg hid, if_pos]
    simpa using hid

/-- Dropping some buckets with the entries of their turns. -/
theorem Consistent.keep {c' : HotCache} (h : Consistent c) {dropped : List Bucket}
    (hperm : (dropped ++ c'.buckets).Perm c.buckets)
    (hindex : c'.index = withoutEntries (dropped.map Bucket.turns).flatten c.index)
    (hcap : c'.capacity = c.capacity) : Consistent c' := by
  have hmem : ∀ b, b ∈ c.buckets ↔ b ∈ dropped ∨ b ∈ c'.buckets := fun b =>
    hperm.mem_iff.symm.trans List.mem_append
  have hplaces : ((dropped ++ c'.buckets).map Bucket.place).Nodup :=
    (hperm.map Bucket.place).nodup_iff.2 h.places
  rw [List.map_append, List.nodup_append'] at hplaces
  refine ⟨fun b hb => hcap ▸ h.bounded b ((hmem b).2 (.inr hb)),
    fun b hb => h.distinct b ((hmem b).2 (.inr hb)), hplaces.2.1, fun id p => ?_⟩
  have hids : id ∈ (dropped.map Bucket.turns).flatten.map Turn.id ↔ ∃ b ∈ dropped, id ∈ b.ids := by
    simp [Bucket.ids]
  unfold placeOf?
  rw [hindex, find?_withoutEntries]
  by_cases hid : ∃ b ∈ dropped, id ∈ b.ids
  · rw [if_pos (hids.2 hid)]
    obtain ⟨b, hb, hid⟩ := hid
    simp only [Option.map_none, false_iff, reduceCtorEq]
    rintro ⟨b', hb', -, hid'⟩
    have := h.place_eq ((hmem b).2 (.inl hb)) ((hmem b').2 (.inr hb')) hid hid'
    exact hplaces.2.2 (List.mem_map_of_mem hb) (this ▸ List.mem_map_of_mem hb')
  · rw [if_neg (mt hids.1 hid)]
    refine (h.inverse id p).trans ⟨?_, ?_⟩
    · rintro ⟨b, hb, hp, hidb⟩
      rcases (hmem b).1 hb with hb | hb
      · exact absurd ⟨b, hb, hidb⟩ hid
      · exact ⟨b, hb, hp, hidb⟩
    · rintro ⟨b, hb, hp, hidb⟩
      exact ⟨b, (hmem b).2 (.inr hb), hp, hidb⟩

theorem Consistent.dropWhere (h : Consistent c) (q : Bucket → Bool) : Consistent (c.dropWhere q) :=
  h.keep (List.filter_append_perm q c.buckets) rfl rfl

theorem Consistent.dropFirst (h : Consistent c) (n : Nat) : Consistent (c.dropFirst n) :=
  h.keep (List.Perm.of_eq (List.take_append_drop n c.buckets)) rfl rfl

theorem Consistent.sweep (h : Consistent c) (now : Time) : Consistent (c.sweep now).2 := by
  have h' : Consistent { c with lastSweep := now } := ⟨h.bounded, h.distinct, h.places, h.inverse⟩
  exact (h'.dropWhere _).dropFirst _

/-! ### Removing a turn -/

theorem mem_ids_without {b : Bucket} {id x : String} :
    x ∈ (b.without id).ids ↔ x ∈ b.ids ∧ x ≠ id := by
  simp only [Bucket.without, Bucket.ids, List.mem_map, List.mem_filter, decide_eq_true_eq]
  grind

/-- As an identifier is in one bucket only, removing it there removes it everywhere. -/
theorem Consistent.mem_ids_update (h : Consistent c) {id x : String} {p : Place} {b : Bucket}
    (hp : c.placeOf? id = some p) (hb : b ∈ c.buckets) :
    x ∈ (if b.place = p then b.without id else b).ids ↔ x ∈ b.ids ∧ x ≠ id := by
  split
  · exact mem_ids_without
  · rename_i hne
    refine ⟨fun hx => ⟨hx, ?_⟩, fun hx => hx.1⟩
    rintro rfl
    have := (h.inverse x b.place).2 ⟨b, hb, rfl, hx⟩
    rw [hp] at this
    exact hne (Option.some.inj this).symm

theorem Consistent.remove (h : Consistent c) (id : String) : Consistent (c.remove id).2 := by
  unfold HotCache.remove
  split
  · exact h
  rename_i p hp
  split
  · exact h
  have hsub : ∀ b : Bucket, (if b.place = p then b.without id else b).turns.Sublist b.turns := by
    intro b
    split
    · exact List.filter_sublist
    · exact List.Sublist.refl _
  refine ⟨fun b' hb' => ?_, fun b' hb' => ?_, ?_, fun x q => ?_⟩
  · obtain ⟨b, hb, rfl⟩ := List.mem_map.1 hb'
    exact Nat.le_trans (hsub b).length_le (h.bounded b hb)
  · obtain ⟨b, hb, rfl⟩ := List.mem_map.1 hb'
    exact ((hsub b).map Turn.id).nodup (h.distinct b hb)
  · rw [Keyed.map_update Bucket.place fun b => by rfl]
    exact h.places
  · unfold placeOf?
    simp only [Keyed.find?_remove]
    by_cases hx : id = x
    · subst hx
      simp only [if_true, Option.map_none, reduceCtorEq, false_iff]
      rintro ⟨b', hb', -, hid⟩
      obtain ⟨b, hb, rfl⟩ := List.mem_map.1 hb'
      exact ((h.mem_ids_update hp hb).1 hid).2 rfl
    · rw [if_neg hx]
      refine (h.inverse x q).trans ⟨?_, ?_⟩
      · rintro ⟨b, hb, hq, hid⟩
        refine ⟨_, List.mem_map_of_mem hb, ?_, (h.mem_ids_update hp hb).2 ⟨hid, Ne.symm hx⟩⟩
        split <;> exact hq
      · rintro ⟨b', hb', hq, hid⟩
        obtain ⟨b, hb, rfl⟩ := List.mem_map.1 hb'
        refine ⟨b, hb, ?_, ((h.mem_ids_update hp hb).1 hid).1⟩
        rw [← hq]
        split <;> rfl

theorem Consistent.placeOf?_remove (h : Consistent c) (id x : String) :
    (c.remove id).2.placeOf? x = if id = x then none else c.placeOf? x := by
  unfold HotCache.remove
  split
  · rename_i hnone
    split
    · rename_i hx
      rw [← hx, hnone]
    · rfl
  rename_i p hp
  split
  · rename_i hnone
    obtain ⟨b, hb, hbp, -⟩ := (h.inverse id p).1 hp
    rw [h.bucket?_eq_some.2 ⟨hb, hbp⟩] at hnone
    cases hnone
  · simp only [placeOf?, Keyed.find?_remove]
    split <;> rfl

theorem Consistent.withoutElsewhere (h : Consistent c) (id : String) (p : Place) :
    Consistent (c.withoutElsewhere id p) := by
  unfold HotCache.withoutElsewhere
  split
  · exact h
  · exact h.remove id

/-- After a removal elsewhere the identifier is at the place or nowhere. -/
theorem Consistent.place_of_withoutElsewhere (h : Consistent c) {id : String} {p q : Place}
    (hq : (c.withoutElsewhere id p).placeOf? id = some q) : q = p := by
  unfold HotCache.withoutElsewhere at hq
  split at hq
  · rename_i hall
    simpa [hq] using hall
  · rw [h.placeOf?_remove, if_pos rfl] at hq
    cases hq

/-! ### Touching a bucket and writing into it -/

theorem mem_touch {now : Time} {b b' : Bucket} {bs : List Bucket} :
    b' ∈ touch now b bs ↔
      b' ∈ bs ∧ b'.place ≠ b.place ∨ b' = { b with lastTouched := now } := by
  simp [touch, Keyed.remove]

theorem nodup_places_touch {now : Time} {b : Bucket} {bs : List Bucket}
    (h : (bs.map Bucket.place).Nodup) : ((touch now b bs).map Bucket.place).Nodup := by
  unfold touch Keyed.remove
  rw [List.map_append, List.nodup_append']
  refine ⟨(List.filter_sublist.map Bucket.place).nodup h, by simp, ?_⟩
  intro p hp hp'
  simp only [List.mem_map, List.mem_filter, decide_eq_true_eq] at hp
  obtain ⟨b', ⟨-, hne⟩, rfl⟩ := hp
  exact hne (by simpa using hp')

theorem Consistent.recent (h : Consistent c) (now : Time) (p : Place) (n : Nat) :
    Consistent (c.recent now p n).2 := by
  unfold HotCache.recent
  split
  · exact h
  rename_i b hb
  split
  · exact h
  have hb := (h.bucket?_eq_some.1 hb).1
  refine ⟨fun b' hb' => ?_, fun b' hb' => ?_, nodup_places_touch h.places, fun id q => ?_⟩
  · rcases mem_touch.1 hb' with ⟨hb', -⟩ | rfl
    · exact h.bounded b' hb'
    · exact h.bounded b hb
  · rcases mem_touch.1 hb' with ⟨hb', -⟩ | rfl
    · exact h.distinct b' hb'
    · exact h.distinct b hb
  · refine (h.inverse id q).trans ⟨?_, ?_⟩
    · rintro ⟨b', hb', hq, hid⟩
      by_cases hp : b'.place = b.place
      · refine ⟨_, mem_touch.2 (.inr rfl), hp.symm.trans hq, ?_⟩
        have := h.bucket?_eq_some.2 ⟨hb', hp⟩
        rw [h.bucket?_eq_some.2 ⟨hb, rfl⟩] at this
        cases this
        exact hid
      · exact ⟨b', mem_touch.2 (.inl ⟨hb', hp⟩), hq, hid⟩
    · rintro ⟨b', hb', hq, hid⟩
      rcases mem_touch.1 hb' with ⟨hb', -⟩ | rfl
      · exact ⟨b', hb', hq, hid⟩
      · exact ⟨b, hb, hq, hid⟩

theorem withoutLeast_sublist (ts : List Turn) : (withoutLeast ts).Sublist ts := by
  cases ts with
  | nil => exact List.Sublist.refl _
  | cons t r => exact List.eraseP_sublist

theorem length_withoutLeast (ts : List Turn) : (withoutLeast ts).length = ts.length - 1 := by
  cases ts with
  | nil => rfl
  | cons t r => exact List.length_eraseP_of_mem (leastFrom_mem isLesser t r) (by simp)

theorem repeat_withoutLeast (n : Nat) (ts : List Turn) :
    (Nat.repeat withoutLeast n ts).Sublist ts ∧
      (Nat.repeat withoutLeast n ts).length = ts.length - n := by
  induction n with
  | zero => exact ⟨List.Sublist.refl _, rfl⟩
  | succ n ih =>
    refine ⟨(withoutLeast_sublist _).trans ih.1, ?_⟩
    rw [Nat.repeat, length_withoutLeast, ih.2]
    omega

theorem evict_sublist (capacity : Nat) (ts : List Turn) : (evict capacity ts).Sublist ts :=
  (repeat_withoutLeast _ ts).1

theorem length_evict (capacity : Nat) (ts : List Turn) :
    (evict capacity ts).length = min capacity ts.length := by
  unfold evict
  rw [(repeat_withoutLeast _ ts).2]
  omega

theorem mem_ids_withTurn {t : Turn} {ts : List Turn} {id : String} :
    id ∈ (withTurn t ts).map Turn.id ↔ id = t.id ∨ id ∈ ts.map Turn.id := by
  simp only [withTurn, List.map_append, List.mem_append, List.mem_map, List.mem_filter,
    decide_eq_true_eq, List.mem_singleton]
  grind

theorem nodup_ids_withTurn (t : Turn) {ts : List Turn} (h : (ts.map Turn.id).Nodup) :
    ((withTurn t ts).map Turn.id).Nodup := by
  unfold withTurn
  rw [List.map_append, List.nodup_append']
  refine ⟨(List.filter_sublist.map Turn.id).nodup h, by simp, ?_⟩
  intro id hid hid'
  simp only [List.mem_map, List.mem_filter, decide_eq_true_eq] at hid
  obtain ⟨x, ⟨-, hne⟩, rfl⟩ := hid
  exact hne (by simpa using hid')

theorem placeOf?_insert (now : Time) (p : Place) (t : Turn) (c : HotCache) (id : String) :
    (c.insert now p t).placeOf? id =
      let all := withTurn t (c.turnsAt p)
      if id ∈ all.map Turn.id ∧ id ∉ (evict c.capacity all).map Turn.id then none
      else if t.id = id then some p else c.placeOf? id := by
  simp only [placeOf?, insert, find?_withoutEntries, Keyed.find?_put]
  generalize evict c.capacity (withTurn t (c.turnsAt p)) = kept
  have hids : id ∈ ((withTurn t (c.turnsAt p)).filter fun x =>
      kept.all fun y => decide (y.id ≠ x.id)).map Turn.id ↔
      id ∈ (withTurn t (c.turnsAt p)).map Turn.id ∧ id ∉ kept.map Turn.id := by
    simp only [List.mem_map, List.mem_filter, List.all_eq_true, decide_eq_true_eq]
    grind
  simp only [hids]
  split
  · rfl
  · split <;> rfl

/-- Writing a turn that is at the place already or nowhere. -/
theorem Consistent.insert (h : Consistent c) {now : Time} {p : Place} {t : Turn}
    (ht : ∀ q, c.placeOf? t.id = some q → q = p) : Consistent (c.insert now p t) := by
  have hkept := evict_sublist c.capacity (withTurn t (c.turnsAt p))
  have hnodup := nodup_ids_withTurn t (h.nodup_turnsAt p)
  refine ⟨fun b hb => ?_, fun b hb => ?_, nodup_places_touch h.places, fun id q => ?_⟩
  · rcases mem_touch.1 hb with ⟨hb, -⟩ | rfl
    · exact h.bounded b hb
    · show (evict c.capacity _).length ≤ c.capacity
      rw [length_evict]
      exact Nat.min_le_left ..
  · rcases mem_touch.1 hb with ⟨hb, -⟩ | rfl
    · exact h.distinct b hb
    · exact (hkept.map Turn.id).nodup hnodup
  · have hall : id ∈ (withTurn t (c.turnsAt p)).map Turn.id ↔
        id = t.id ∨ c.placeOf? id = some p := by
      rw [mem_ids_withTurn, h.mem_turnsAt]
    have hsub : id ∈ (evict c.capacity (withTurn t (c.turnsAt p))).map Turn.id →
        id ∈ (withTurn t (c.turnsAt p)).map Turn.id := fun hid => (hkept.map Turn.id).subset hid
    have helse : (∃ b ∈ c.buckets, b.place ≠ p ∧ b.place = q ∧ id ∈ b.ids) ↔
        q ≠ p ∧ c.placeOf? id = some q := by
      rw [h.inverse]
      grind
    have hholds : (∃ b ∈ (c.insert now p t).buckets, b.place = q ∧ id ∈ b.ids) ↔
        (q ≠ p ∧ c.placeOf? id = some q) ∨
          p = q ∧ id ∈ (evict c.capacity (withTurn t (c.turnsAt p))).map Turn.id := by
      rw [← helse]
      constructor
      · rintro ⟨b, hb, hq, hid⟩
        rcases mem_touch.1 hb with ⟨hb, hne⟩ | rfl
        · exact .inl ⟨b, hb, hne, hq, hid⟩
        · exact .inr ⟨hq, hid⟩
      · rintro (⟨b, hb, hne, hq, hid⟩ | ⟨hq, hid⟩)
        · exact ⟨b, mem_touch.2 (.inl ⟨hb, hne⟩), hq, hid⟩
        · exact ⟨_, mem_touch.2 (.inr rfl), hq, hid⟩
    rw [hholds, placeOf?_insert]
    grind

theorem Consistent.write (h : Consistent c) (now : Time) (p : Place) (t : Turn) :
    Consistent (c.write now p t) :=
  (h.withoutElsewhere t.id p).insert fun _ => h.place_of_withoutElsewhere

theorem Consistent.add (h : Consistent c) (clock : Readings) (p : Place) (t : Turn) :
    Consistent (c.add clock p t) := by
  unfold HotCache.add sweepIfDue
  split
  · exact (h.write clock.touch p t).sweep clock.sweep
  · exact h.write clock.touch p t

/-! ### Runs -/

theorem Consistent.after (h : Consistent c) (e : Event) : Consistent (c.after e) := by
  rcases after_cases c e with he | ⟨p, t, he⟩ | ⟨p, n, he⟩ | ⟨q, he⟩ | ⟨id, he⟩ | he <;> rw [he]
  · exact h
  · exact h.add e.clock p t
  · exact h.recent e.clock.touch p n
  · exact h.dropWhere q
  · exact h.remove id
  · exact h.sweep e.clock.sweep

theorem consistent_opened (capacity : Nat) (ttl : Duration) (maxBuckets : Nat)
    (sweepInterval : Duration) (now : Time) :
    Consistent (opened capacity ttl maxBuckets sweepInterval now) :=
  ⟨by simp [opened], by simp [opened], by simp [opened], by simp [opened, placeOf?, Keyed.find?]⟩

theorem Consistent.run (h : Consistent c) (es : List Event) : Consistent (c.run es) := by
  induction es using List.reverseRecOn with
  | nil => exact h
  | append_singleton es e ih => rw [run_concat]; exact ih.after e

/-- **Buckets and index agree after every run**: no bucket is over the capacity, no identifier occurs
twice in the whole cache, and the index gives an identifier a place exactly if the bucket of that
place holds a turn with it. -/
theorem run_indexes_every_turn (capacity : Nat) (ttl : Duration) (maxBuckets : Nat)
    (sweepInterval : Duration) (start : Time) (es : List Event) :
    let c := (opened capacity ttl maxBuckets sweepInterval start).run es
    (∀ b ∈ c.buckets, b.turns.length ≤ capacity) ∧
      ((c.buckets.flatMap Bucket.turns).map Turn.id).Nodup ∧
      ∀ id p, c.placeOf? id = some p ↔ ∃ b, c.bucket? p = some b ∧ ∃ t ∈ b.turns, t.id = id := by
  intro c
  have h : Consistent c := (consistent_opened ..).run es
  have hcap : c.capacity = capacity := congrArg Prod.fst (settings_run _ es)
  refine ⟨fun b hb => hcap ▸ h.bounded b hb, ?_, fun id p => ?_⟩
  · rw [List.map_flatMap]
    exact h.nodup_ids
  · rw [h.inverse]
    refine exists_congr fun b => ?_
    rw [h.bucket?_eq_some, and_assoc]
    simp [Bucket.ids]

end HotCache

end TieredMemory
