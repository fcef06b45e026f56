import Mathlib
import TieredMemory.Archive.Shelves
import TieredMemory.Proofs.Isolation.Archive
import TieredMemory.Proofs.Keyed

/-!
# The catalogue and the shelves of the archive

The catalogue leads from an identifier to a turn exactly if the turn has the identifier and stands on
the shelf of its user, and no identifier stands on the shelves twice (`Consistent`). A request keeps
some turns and may put a new one in the place of those with its identifier (`Change`), which preserves
this. So the archive keeps its two indices in step through every run of requests, deletes what it is
asked to and nothing else (`run_sound`), and gives the answers that a single log of all turns gives
(`Logged.respondAll`).
-/

namespace TieredMemory.Shelves

open ArchiveLog (Request Response)

variable {a a' : Shelves} {t : Turn} {user id : String}

/-! ### Lookups -/

theorem get?_discard (user id j : String) (a : Shelves) :
    (a.discard user id).get? j = if id = j then none else a.get? j := by
  unfold get? discard
  rw [Keyed.find?_remove]
  split <;> rfl

theorem shelf_discard (user id v : String) (a : Shelves) :
    (a.discard user id).shelf v =
      if user = v then (a.shelf user).filter fun t => t.id ≠ id else a.shelf v := by
  unfold shelf discard
  rw [Keyed.find?_put]
  split <;> rfl

theorem get?_place (t : Turn) (j : String) (a : Shelves) :
    (a.place t).get? j = if t.id = j then some t else a.get? j := by
  unfold get? place
  rw [Keyed.find?_put]
  split <;> rfl

theorem shelf_place (t : Turn) (v : String) (a : Shelves) :
    (a.place t).shelf v =
      if t.user = v then (a.shelf t.user).filter (fun x => x.id ≠ t.id) ++ [t] else a.shelf v := by
  unfold shelf place
  rw [Keyed.find?_put]
  split <;> rfl

theorem find?_foldl_remove (ts : List Turn) (c : List (String × Turn)) (j : String) :
    Keyed.find? Prod.fst j (ts.foldl (fun c t => Keyed.remove Prod.fst t.id c) c) =
      if j ∈ ts.map Turn.id then none else Keyed.find? Prod.fst j c := by
  induction ts generalizing c with
  | nil => simp
  | cons t r ih =>
    rw [List.foldl_cons, ih, Keyed.find?_remove, List.map_cons]
    by_cases ht : t.id = j
    · simp [ht]
    · simp [ht, Ne.symm ht]

theorem get?_deleteUser (user j : String) (a : Shelves) :
    (a.deleteUser user).2.get? j =
      if j ∈ (a.shelf user).map Turn.id then none else a.get? j := by
  unfold get? deleteUser
  simp only [find?_foldl_remove]
  split <;> rfl

theorem shelf_deleteUser (user v : String) (a : Shelves) :
    (a.deleteUser user).2.shelf v = if user = v then [] else a.shelf v := by
  unfold shelf deleteUser
  simp only [Keyed.find?_remove]
  split <;> rfl

/-! ### Both indices in step -/

/-- The catalogue and the shelves agree. -/
structure Consistent (a : Shelves) : Prop where
  /-- There is one shelf for a user. -/
  users : (a.shelves.map Prod.fst).Nodup
  own : ∀ user, ∀ t ∈ a.shelf user, t.user = user
  distinct : ∀ user, ((a.shelf user).map Turn.id).Nodup
  found : ∀ id t, a.get? id = some t ↔ t.id = id ∧ t ∈ a.shelf t.user

/-- What becomes of the turns: some are kept, where they stand, and a new one may come to the end of
its user's shelf. -/
structure Change (keep : Turn → Bool) (new : Option Turn) (a a' : Shelves) : Prop where
  similarity : a'.minSimilarity = a.minSimilarity
  users : (a.shelves.map Prod.fst).Nodup → (a'.shelves.map Prod.fst).Nodup
  /-- What is kept does not have the identifier of the new one. -/
  fresh : ∀ t ∈ new, ∀ x, keep x = true → x.id ≠ t.id
  get? : ∀ id t, a'.get? id = some t ↔
    a.get? id = some t ∧ keep t = true ∨ new = some t ∧ t.id = id
  shelf : ∀ user, a'.shelf user =
    (a.shelf user).filter keep ++ (new.filter fun t => t.user == user).toList

theorem Consistent.empty (minSimilarity : Float) : Consistent { minSimilarity } where
  users := List.nodup_nil
  own user t ht := by cases ht
  distinct user := List.nodup_nil
  found id t := by
    constructor
    · intro h
      cases h
    · rintro ⟨-, h⟩
      cases h

theorem Change.mem_shelf {keep : Turn → Bool} {new : Option Turn} (hc : Change keep new a a') :
    t ∈ a'.shelf user ↔ t ∈ a.shelf user ∧ keep t = true ∨ new = some t ∧ t.user = user := by
  rw [hc.shelf, List.mem_append, List.mem_filter, Option.mem_toList, Option.filter_eq_some_iff,
    beq_iff_eq]

theorem Consistent.change {keep : Turn → Bool} {new : Option Turn} (h : Consistent a)
    (hc : Change keep new a a') : Consistent a' := by
  constructor
  · exact hc.users h.users
  · intro user t ht
    rcases hc.mem_shelf.1 ht with ⟨ht, -⟩ | ⟨-, hu⟩
    · exact h.own user t ht
    · exact hu
  · intro user
    rw [hc.shelf, List.map_append]
    refine List.Nodup.append ?_ ?_ ?_
    · exact (h.distinct user).sublist (List.filter_sublist.map _)
    · cases new.filter fun t => t.user == user <;> simp
    · intro id hid hid'
      obtain ⟨x, hx, rfl⟩ := List.mem_map.1 hid
      obtain ⟨t, ht, hsame⟩ := List.mem_map.1 hid'
      have hnew : new = some t := (Option.filter_eq_some_iff.1 (Option.mem_toList.1 ht)).1
      exact hc.fresh t hnew x (List.mem_filter.1 hx).2 hsame.symm
  · intro id t
    rw [hc.get?, hc.mem_shelf, h.found]
    tauto

/-- The owner of a shelf on which an identifier stands is the one that the catalogue leads to. -/
theorem Consistent.get?_of_mem (h : Consistent a) (ht : t ∈ a.shelf user) :
    a.get? t.id = some t := by
  have hu := h.own user t ht
  exact (h.found t.id t).2 ⟨rfl, hu ▸ ht⟩

theorem Consistent.id_of_get? (h : Consistent a) (ht : a.get? id = some t) : t.id = id :=
  ((h.found id t).1 ht).1

/-! ### What the operations change -/

theorem Change.refl (a : Shelves) : Change (fun _ => true) none a a where
  similarity := rfl
  users h := h
  fresh t ht := by cases ht
  get? id t := by simp
  shelf user := by simp

/-- On the shelves of other users nothing has the identifier of a user's turn. -/
theorem Consistent.filter_shelf (h : Consistent a) {v : String}
    (hother : ∀ t, a.get? id = some t → t.user ≠ v) :
    (a.shelf v).filter (fun x => x.id ≠ id) = a.shelf v := by
  refine List.filter_eq_self.2 fun x hx => decide_eq_true ?_
  rintro rfl
  exact hother x (h.get?_of_mem hx) (h.own v x hx)

theorem delete_of_get? (ht : a.get? id = some t) :
    a.delete t.user id = (true, a.discard t.user id) := by
  simp [delete, ht]

theorem delete_of_other (hother : ∀ t, a.get? id = some t → t.user ≠ user) :
    a.delete user id = (false, a) := by
  unfold delete
  cases ht : a.get? id with
  | none => rfl
  | some t => exact if_pos (hother t ht)

theorem Consistent.discard (h : Consistent a) (ht : a.get? id = some t) :
    Change (fun x => x.id ≠ id) none a (a.discard t.user id) where
  similarity := rfl
  users hn := Keyed.nodup_put Prod.fst hn _
  fresh t ht := by cases ht
  get? j x := by
    rw [get?_discard]
    constructor
    · intro hx
      split at hx
      · cases hx
      · next hj => exact .inl ⟨hx, decide_eq_true fun e => hj (e.symm.trans (h.id_of_get? hx))⟩
    · rintro (⟨hx, hkept⟩ | ⟨hnew, -⟩)
      · rwa [if_neg fun e => of_decide_eq_true hkept ((h.id_of_get? hx).trans e.symm)]
      · cases hnew
  shelf v := by
    rw [shelf_discard]
    by_cases hv : t.user = v
    · subst hv
      simp
    · have hother : ∀ x, a.get? id = some x → x.user ≠ v := by
        intro x hx
        rw [ht] at hx
        cases hx
        exact hv
      rw [if_neg hv, h.filter_shelf hother]
      simp

/-- A turn that is written takes its identifier over from another user's shelf. -/
theorem Consistent.shelf_release (h : Consistent a) (t : Turn) (v : String) :
    (a.release t).shelf v =
      if t.user = v then a.shelf v else (a.shelf v).filter fun x => x.id ≠ t.id := by
  unfold release
  cases hget : a.get? t.id with
  | none =>
    have hother : ∀ x, a.get? t.id = some x → x.user ≠ v := by simp [hget]
    rw [h.filter_shelf hother, ite_self]
  | some previous =>
    have hsame : ∀ x, a.get? t.id = some x → x = previous := by simp [hget]
    simp only
    split
    · next hne =>
      rw [delete_of_get? hget, shelf_discard]
      by_cases hv : previous.user = v
      · rw [if_pos hv, if_neg fun e => hne (hv.trans e.symm), hv]
      · rw [if_neg hv, h.filter_shelf fun x hx => hsame x hx ▸ hv, ite_self]
    · next heq =>
      split
      · rfl
      · next hv =>
        rw [h.filter_shelf fun x hx e => hv ?_]
        rw [← e, hsame x hx]
        exact (Decidable.not_not.1 heq).symm

theorem get?_release {j : String} (hj : t.id ≠ j) : (a.release t).get? j = a.get? j := by
  unfold release
  cases hget : a.get? t.id with
  | none => rfl
  | some previous =>
    simp only
    split
    · rw [delete_of_get? hget, get?_discard, if_neg hj]
    · rfl

theorem nodup_release (t : Turn) (h : (a.shelves.map Prod.fst).Nodup) :
    ((a.release t).shelves.map Prod.fst).Nodup := by
  unfold release
  cases hget : a.get? t.id with
  | none => exact h
  | some previous =>
    simp only
    split
    · rw [delete_of_get? hget]
      exact Keyed.nodup_put Prod.fst h _
    · exact h

theorem minSimilarity_release (t : Turn) (a : Shelves) :
    (a.release t).minSimilarity = a.minSimilarity := by
  unfold release
  cases hget : a.get? t.id with
  | none => rfl
  | some previous =>
    simp only
    split
    · rw [delete_of_get? hget]
      rfl
    · rfl

theorem Consistent.insert (h : Consistent a) (t : Turn) :
    Change (fun x => x.id ≠ t.id) (some t) a (a.insert t) where
  similarity := minSimilarity_release t a
  users hn := Keyed.nodup_put Prod.fst (nodup_release t hn) _
  fresh t' ht x hx := by
    cases ht
    exact of_decide_eq_true hx
  get? j x := by
    rw [Shelves.insert, get?_place]
    by_cases hj : t.id = j
    · rw [if_pos hj]
      constructor
      · intro hx
        exact .inr ⟨hx, by cases hx; exact hj⟩
      · rintro (⟨hx, hkept⟩ | ⟨hx, -⟩)
        · exact absurd ((h.id_of_get? hx).trans hj.symm) (of_decide_eq_true hkept)
        · exact hx
    · rw [if_neg hj, get?_release hj]
      constructor
      · intro hx
        exact .inl ⟨hx, decide_eq_true fun e => hj (e.symm.trans (h.id_of_get? hx))⟩
      · rintro (⟨hx, -⟩ | ⟨hx, hid⟩)
        · exact hx
        · cases hx
          exact absurd hid hj
  shelf v := by
    rw [Shelves.insert, shelf_place, h.shelf_release, if_pos rfl, h.shelf_release]
    by_cases hv : t.user = v
    · subst hv
      simp [Option.filter]
    · simp [hv, Option.filter]

theorem Consistent.deleteUser (h : Consistent a) (user : String) :
    Change (fun x => x.user ≠ user) none a (a.deleteUser user).2 where
  similarity := rfl
  users hn := Keyed.nodup_remove Prod.fst user hn
  fresh t ht := by cases ht
  get? j x := by
    rw [get?_deleteUser]
    have hgone : j ∈ (a.shelf user).map Turn.id ↔ ∃ y, a.get? j = some y ∧ y.user = user := by
      rw [List.mem_map]
      constructor
      · rintro ⟨y, hy, rfl⟩
        exact ⟨y, h.get?_of_mem hy, h.own user y hy⟩
      · rintro ⟨y, hy, rfl⟩
        obtain ⟨hid, hmem⟩ := (h.found j y).1 hy
        exact ⟨y, hmem, hid⟩
    constructor
    · intro hx
      split at hx
      · cases hx
      · next hj => exact .inl ⟨hx, decide_eq_true fun e => hj (hgone.2 ⟨x, hx, e⟩)⟩
    · rintro (⟨hx, hkept⟩ | ⟨hnew, -⟩)
      · rw [if_neg]
        · exact hx
        · intro hj
          obtain ⟨y, hy, hu⟩ := hgone.1 hj
          rw [hx] at hy
          cases hy
          exact of_decide_eq_true hkept hu
      · cases hnew
  shelf v := by
    rw [shelf_deleteUser]
    have hkept : (a.shelf v).filter (fun x => x.user ≠ user) =
        if user = v then [] else a.shelf v := by
      split
      · next huv => exact List.filter_eq_nil_iff.2 fun x hx => by simp [h.own v x hx, huv]
      · next huv =>
        refine List.filter_eq_self.2 fun x hx => decide_eq_true ?_
        rw [h.own v x hx]
        exact Ne.symm huv
    rw [hkept]
    simp

/-! ### Requests -/

/-- The response to a request in a world, and the archive afterwards. -/
def respond (w : World) (a : Shelves) : Request → Response × Shelves
  | .append t =>
    match a.append t w with
    | .ok (t, a, _) => (.written (.ok t), a)
    | .error why => (.written (.error why), a)
  | .insert t => (.written (.ok t), a.insert t)
  | .search user query limit => (.found ((a.search user query limit w).map Prod.fst), a)
  | .select user query embedding n => (.found (.ok ((a.matching user query embedding).take n)), a)
  | .get _ id => (.held (a.get? id), a)
  | .conversation user conversation limit => (.found (a.conversation user conversation limit), a)
  | .delete user id => (.deleted (a.delete user id).1, (a.delete user id).2)
  | .deleteUser user => (.removed (a.deleteUser user).1, (a.deleteUser user).2)

/-- A turn is refused, or it is written with an embedding; the archive has no part in this. -/
theorem respond_append (w : World) (t : Turn) :
    (∃ why, ∀ a, respond w a (.append t) = (.written (.error why), a)) ∨
      ∃ t', ∀ a, respond w a (.append t) = respond w a (.insert t') := by
  cases hu : checkUser t.user with
  | error why =>
    refine .inl ⟨why, fun a => ?_⟩
    simp only [respond, append, hu, bind, Except.bind]
  | ok _ =>
    refine .inr ⟨(ArchiveLog.embedded t w).1, fun a => ?_⟩
    simp only [respond, append, hu, bind, Except.bind, pure, Except.pure]

/-- What a request changes: a new turn is one that is written, and a turn that is not kept is deleted
or its identifier is that of the new one. -/
structure Changes (w : World) (r : Request) (keep : Turn → Bool) (new : Option Turn)
    (a a' : Shelves) : Prop where
  change : Change keep new a a'
  written : ∀ t ∈ new, (a.respond w r).1 = .written (.ok t)
  gone : ∀ t, a.get? t.id = some t → keep t = false →
    r = .delete t.user t.id ∨ r = .deleteUser t.user ∨ ∃ t', new = some t' ∧ t'.id = t.id

theorem Changes.nothing {w : World} {r : Request} : Changes w r (fun _ => true) none a a where
  change := .refl a
  written t ht := by cases ht
  gone t _ ht := by cases ht

theorem Consistent.insert_changes (h : Consistent a) {w : World} {r : Request} (t : Turn)
    (hr : a.respond w r = a.respond w (.insert t)) :
    Changes w r (fun x => x.id ≠ t.id) (some t) a (a.insert t) where
  change := h.insert t
  written t' ht := by
    cases ht
    rw [hr]
    rfl
  gone x _ hgone := .inr (.inr ⟨t, rfl, (Decidable.not_not.1 (of_decide_eq_false hgone)).symm⟩)

theorem Consistent.respond (h : Consistent a) (w : World) (r : Request) :
    ∃ keep new, Changes w r keep new a (a.respond w r).2 := by
  cases r with
  | append t =>
    rcases respond_append w t with ⟨why, hrespond⟩ | ⟨t', hrespond⟩
    · rw [hrespond]
      exact ⟨_, _, .nothing⟩
    · rw [hrespond]
      exact ⟨_, _, h.insert_changes t' (hrespond a)⟩
  | insert t => exact ⟨_, _, h.insert_changes t rfl⟩
  | delete user id =>
    by_cases hown : ∃ t, a.get? id = some t ∧ t.user = user
    · obtain ⟨t, ht, rfl⟩ := hown
      simp only [Shelves.respond, delete_of_get? ht]
      refine ⟨_, _, h.discard ht, ?_, fun x hx hgone => .inl ?_⟩
      · intro t ht
        cases ht
      · obtain rfl : x.id = id := Decidable.not_not.1 (of_decide_eq_false hgone)
        rw [ht] at hx
        cases hx
        rfl
    · simp only [Shelves.respond, delete_of_other fun t ht e => hown ⟨t, ht, e⟩]
      exact ⟨_, _, .nothing⟩
  | deleteUser user =>
    refine ⟨_, _, h.deleteUser user, ?_, fun x _ hgone => .inr (.inl ?_)⟩
    · intro t ht
      cases ht
    · obtain rfl : x.user = user := Decidable.not_not.1 (of_decide_eq_false hgone)
      rfl
  | search | select | get | conversation => exact ⟨_, _, .nothing⟩

/-! ### What the indices are for -/

/-- What holds of the archive while its indices are in step. -/
structure Sound (a : Shelves) : Prop where
  found : ∀ id t, a.get? id = some t ↔ t.id = id ∧ t ∈ a.shelf t.user
  /-- No identifier stands on the shelves twice. -/
  once : (a.all.map Turn.id).Nodup
  delete : ∀ user id, (a.delete user id).1 = true ↔ ∃ t, a.get? id = some t ∧ t.user = user
  count : ∀ user,
    {id | ∃ t, a.get? id = some t ∧ t.user = user}.encard = (a.deleteUser user).1
  others : ∀ user v, v ≠ user → (a.deleteUser user).2.shelf v = a.shelf v ∧
    ∀ id t, t.user = v → ((a.deleteUser user).2.get? id = some t ↔ a.get? id = some t)
  /-- A turn stays as it is unless it is deleted or another one is written under its identifier. -/
  stays : ∀ w r t, a.get? t.id = some t →
    (a.respond w r).2.get? t.id = some t ∨ r = .delete t.user t.id ∨ r = .deleteUser t.user ∨
      ∃ t', (a.respond w r).1 = .written (.ok t') ∧ t'.id = t.id ∧
        (a.respond w r).2.get? t.id = some t'

theorem Consistent.shelf_eq (h : Consistent a) {e : String × List Turn} (he : e ∈ a.shelves) :
    a.shelf e.1 = e.2 := by
  rw [shelf, (Keyed.find?_eq_some_iff Prod.fst h.users).2 ⟨he, rfl⟩]
  rfl

theorem Consistent.once (h : Consistent a) : (a.all.map Turn.id).Nodup := by
  rw [all, List.map_flatMap, List.nodup_flatMap]
  constructor
  · intro e he
    rw [← h.shelf_eq he]
    exact h.distinct e.1
  · -- an identifier on two shelves would lead to one turn, which has one owner
    have hne : a.shelves.Pairwise fun e e' => e.1 ≠ e'.1 := List.pairwise_map.1 h.users
    refine hne.imp_of_mem fun {e e'} he he' hne => ?_
    intro id hid hid'
    obtain ⟨t, ht, rfl⟩ := List.mem_map.1 hid
    obtain ⟨t', ht', hsame⟩ := List.mem_map.1 hid'
    rw [← h.shelf_eq he] at ht
    rw [← h.shelf_eq he'] at ht'
    have hget := h.get?_of_mem ht'
    rw [hsame, h.get?_of_mem ht] at hget
    cases hget
    exact hne ((h.own _ t ht).symm.trans (h.own _ t ht'))

theorem delete_iff :
    (a.delete user id).1 = true ↔ ∃ t, a.get? id = some t ∧ t.user = user := by
  constructor
  · intro hdeleted
    by_contra hnone
    rw [delete_of_other fun t ht e => hnone ⟨t, ht, e⟩] at hdeleted
    cases hdeleted
  · rintro ⟨t, ht, rfl⟩
    rw [delete_of_get? ht]

/-- The identifiers of a user's turns are as many as the turns on the shelf. -/
theorem Consistent.encard_ids (h : Consistent a) (user : String) :
    {id | ∃ t, a.get? id = some t ∧ t.user = user}.encard = (a.deleteUser user).1 := by
  have hids : {id | ∃ t, a.get? id = some t ∧ t.user = user} =
      (((a.shelf user).map Turn.id).toFinset : Set String) := by
    ext id
    simp only [Set.mem_ofPred_eq, List.coe_toFinset, List.mem_map]
    constructor
    · rintro ⟨t, ht, rfl⟩
      obtain ⟨hid, hmem⟩ := (h.found id t).1 ht
      exact ⟨t, hmem, hid⟩
    · rintro ⟨t, ht, rfl⟩
      exact ⟨t, h.get?_of_mem ht, h.own user t ht⟩
  rw [hids, Set.encard_coe_eq_coe_finsetCard, List.toFinset_card_of_nodup (h.distinct user),
    List.length_map]
  rfl

theorem Consistent.sound (h : Consistent a) : Sound a where
  found := h.found
  once := h.once
  delete user id := delete_iff
  count := h.encard_ids
  others user v hv := by
    have hchange := h.deleteUser user
    constructor
    · rw [shelf_deleteUser, if_neg (Ne.symm hv)]
    · rintro id t rfl
      rw [hchange.get?]
      simp [hv]
  stays w r t ht := by
    obtain ⟨keep, new, hr⟩ := h.respond w r
    cases hkeep : keep t with
    | true => exact .inl ((hr.change.get? t.id t).2 (.inl ⟨ht, hkeep⟩))
    | false =>
      refine .inr ?_
      rcases hr.gone t ht hkeep with hdelete | hdelete | ⟨t', hnew, hid⟩
      · exact .inl hdelete
      · exact .inr (.inl hdelete)
      · exact .inr (.inr ⟨t', hr.written t' hnew, hid, (hr.change.get? t.id t').2 (.inr ⟨hnew, hid⟩)⟩)

/-! ### The log -/

/-- The archive is a log of all turns, sorted by users and with a catalogue. -/
structure Logged (a : Shelves) (b : ArchiveLog) : Prop where
  similarity : a.minSimilarity = b.minSimilarity
  consistent : Consistent a
  shelf : ∀ user, a.shelf user = b.ofUser user
  distinct : (b.turns.map Turn.id).Nodup

namespace Logged

variable {b b' : ArchiveLog}

theorem empty (minSimilarity : Float) : Logged { minSimilarity } { minSimilarity } :=
  ⟨rfl, .empty minSimilarity, fun _ => rfl, List.nodup_nil⟩

theorem get? (h : Logged a b) (id : String) : a.get? id = b.get? id := by
  have hlog : b.get? id = Keyed.find? Turn.id id b.turns := rfl
  refine Option.ext fun t => ?_
  rw [h.consistent.found, h.shelf, ArchiveLog.mem_ofUser, hlog,
    Keyed.find?_eq_some_iff Turn.id h.distinct]
  tauto

theorem change {keep : Turn → Bool} {new : Option Turn} (h : Logged a b)
    (hc : Change keep new a a') (hturns : b'.turns = b.turns.filter keep ++ new.toList)
    (hsimilarity : b'.minSimilarity = b.minSimilarity) : Logged a' b' where
  similarity := by rw [hc.similarity, h.similarity, hsimilarity]
  consistent := h.consistent.change hc
  shelf user := by
    rw [hc.shelf, h.shelf]
    unfold ArchiveLog.ofUser
    rw [hturns, List.filter_append, List.filter_filter, List.filter_filter, Option.toList_filter]
    simp only [Bool.and_comm]
  distinct := by
    rw [hturns, List.map_append]
    refine List.Nodup.append ?_ ?_ ?_
    · exact h.distinct.sublist (List.filter_sublist.map _)
    · cases new <;> simp
    · intro id hid hid'
      obtain ⟨x, hx, rfl⟩ := List.mem_map.1 hid
      obtain ⟨t, ht, hsame⟩ := List.mem_map.1 hid'
      exact hc.fresh t (Option.mem_toList.1 ht) x (List.mem_filter.1 hx).2 hsame.symm

theorem insert (h : Logged a b) (t : Turn) : Logged (a.insert t) (b.insert t) :=
  h.change (h.consistent.insert t) rfl rfl

theorem delete (h : Logged a b) (user id : String) :
    (a.delete user id).1 = (b.delete user id).1 ∧
      Logged (a.delete user id).2 (b.delete user id).2 := by
  unfold ArchiveLog.delete
  rw [← h.get?]
  cases ht : a.get? id with
  | none =>
    rw [delete_of_other (by simp [ht])]
    exact ⟨rfl, h⟩
  | some t =>
    simp only
    split
    · next hu =>
      subst hu
      rw [delete_of_get? ht]
      exact ⟨rfl, h.change (h.consistent.discard ht) (List.append_nil _).symm rfl⟩
    · next hu =>
      rw [delete_of_other]
      · exact ⟨rfl, h⟩
      · intro x hx
        rw [ht] at hx
        cases hx
        exact hu

/-- One request has one response, and keeps the archive a log. -/
theorem respond (h : Logged a b) (w : World) (r : Request) :
    (a.respond w r).1 = (b.respond w r).1 ∧ Logged (a.respond w r).2 (b.respond w r).2 := by
  cases r with
  | append t =>
    cases hu : checkUser t.user with
    | error why =>
      simp only [Shelves.respond, append, ArchiveLog.respond, ArchiveLog.append, hu, bind,
        Except.bind, true_and]
      exact h
    | ok _ =>
      simp only [Shelves.respond, append, ArchiveLog.respond, ArchiveLog.append, hu, bind,
        Except.bind, pure, Except.pure, true_and]
      exact h.insert _
  | insert t => exact ⟨rfl, h.insert t⟩
  | search user query limit =>
    refine ⟨?_, h⟩
    simp only [Shelves.respond, search, matching, ArchiveLog.respond, ArchiveLog.search,
      ArchiveLog.matching, h.shelf, h.similarity]
  | select user query embedding n =>
    refine ⟨?_, h⟩
    simp only [Shelves.respond, matching, ArchiveLog.respond, ArchiveLog.matching, h.shelf,
      h.similarity]
  | get user id => exact ⟨congrArg Response.held (h.get? id), h⟩
  | conversation user conversation limit =>
    refine ⟨?_, h⟩
    simp only [Shelves.respond, Shelves.conversation, ArchiveLog.respond, ArchiveLog.conversation,
      ArchiveLog.latest, h.shelf]
  | delete user id =>
    obtain ⟨hdeleted, hafter⟩ := h.delete user id
    exact ⟨congrArg Response.deleted hdeleted, hafter⟩
  | deleteUser user =>
    refine ⟨?_, h.change (h.consistent.deleteUser user) (List.append_nil _).symm rfl⟩
    simp only [Shelves.respond, deleteUser, ArchiveLog.respond, ArchiveLog.deleteUser, h.shelf]

end Logged

/-! ### Runs of requests -/

/-- The responses to requests made one after another, each in a world of its own, and the archive
afterwards. -/
def respondAll {σ : Type} (respond : World → σ → Request → Response × σ) :
    List (World × Request) → σ → List Response × σ
  | [], a => ([], a)
  | e :: es, a =>
    ((respond e.1 a e.2).1 :: (respondAll respond es (respond e.1 a e.2).2).1,
      (respondAll respond es (respond e.1 a e.2).2).2)

theorem Logged.respondAll {b : ArchiveLog} (h : Logged a b) (es : List (World × Request)) :
    (Shelves.respondAll Shelves.respond es a).1 =
        (Shelves.respondAll ArchiveLog.respond es b).1 ∧
      Logged (Shelves.respondAll Shelves.respond es a).2
        (Shelves.respondAll ArchiveLog.respond es b).2 := by
  induction es generalizing a b with
  | nil => exact ⟨rfl, h⟩
  | cons e es ih =>
    obtain ⟨hresponse, hafter⟩ := h.respond e.1 e.2
    obtain ⟨hresponses, hend⟩ := ih hafter
    exact ⟨List.cons_eq_cons.2 ⟨hresponse, hresponses⟩, hend⟩

/-- Whatever is asked of an archive that was empty at first, its catalogue and its shelves are in step,
and it has answered as the log does. -/
theorem run_sound (minSimilarity : Float) (es : List (World × Request)) :
    Sound (respondAll respond es { minSimilarity }).2 ∧
      (respondAll respond es { minSimilarity }).1 =
        (respondAll ArchiveLog.respond es { minSimilarity }).1 := by
  obtain ⟨hresponses, hend⟩ := (Logged.empty minSimilarity).respondAll es
  exact ⟨hend.consistent.sound, hresponses⟩

end TieredMemory.Shelves
