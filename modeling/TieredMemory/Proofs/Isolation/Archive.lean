import TieredMemory.Archive.Log

/-!
# Users of an archive in memory

The log keeps the turns of all users and tells them apart by their identifiers alone. Two logs that
agree on a user's turns give the user the same responses and go on agreeing (`Mirrors.own`), and a
request of another user leaves the user's turns as they are (`Mirrors.other`), as long as the two
have no identifier in common.
-/

namespace TieredMemory.ArchiveLog

/-! ### Requests -/

/-- What a user may ask of the archive. -/
inductive Request where
  | append (t : Turn)
  /-- Writing goes on after the turn has been embedded. -/
  | insert (t : Turn)
  | search (user query : String) (limit : Int)
  /-- A search goes on after the query has been embedded. -/
  | select (user query : String) (embedding : Option Embedding) (n : Nat)
  | get (user id : String)
  | conversation (user conversation : String) (limit : Int)
  | delete (user id : String)
  | deleteUser (user : String)

/-- What the archive responds with. -/
inductive Response where
  | written (t : Except Rejection Turn)
  | found (turns : Except Rejection (List Turn))
  | held (t : Option Turn)
  | deleted (b : Bool)
  | removed (n : Nat)

namespace Request

/-- The user who asks. -/
def user : Request → String
  | append t => t.user
  | insert t => t.user
  | search user .. => user
  | select user .. => user
  | get user _ => user
  | conversation user .. => user
  | delete user _ => user
  | deleteUser user => user

/-- The identifiers in the request. -/
def ids : Request → List String
  | append t => [t.id]
  | insert t => [t.id]
  | get _ id => [id]
  | delete _ id => [id]
  | _ => []

end Request

/-- The response to a request in a world, and the archive afterwards. -/
def respond (w : World) (a : ArchiveLog) : Request → Response × ArchiveLog
  | .append t =>
    match a.append t w with
    | .ok (t, a, _) => (.written (.ok t), a)
    | .error why => (.written (.error why), a)
  | .insert t => (.written (.ok t), a.insert t)
  | .search user query limit => (.found ((a.search user query limit w).map Prod.fst), a)
  | .select user query embedding n => (.found (.ok ((a.matching user query embedding).take n)), a)
  | .get _ id => (.held (a.get? id), a)
  | .conversation user conversation limit => (.found (a.conversation user conversation limit), a)
  | .delete user id => (.deleted (a.delete user id).1, (a.delete user id).2)
  | .deleteUser user => (.removed (a.deleteUser user).1, (a.deleteUser user).2)

/-! ### Agreement -/

variable {u v : String} {mine : String → Prop} {a a' a'' : ArchiveLog} {t : Turn} {id : String}

/-- The archives agree on the user's turns. -/
structure Agree (u : String) (a a' : ArchiveLog) : Prop where
  minSimilarity : a.minSimilarity = a'.minSimilarity
  turns : a.ofUser u = a'.ofUser u

namespace Agree

theorem refl (u : String) (a : ArchiveLog) : Agree u a a := ⟨rfl, rfl⟩

theorem symm (h : Agree u a a') : Agree u a' a := ⟨h.minSimilarity.symm, h.turns.symm⟩

theorem trans (h : Agree u a a') (h' : Agree u a' a'') : Agree u a a'' :=
  ⟨h.minSimilarity.trans h'.minSimilarity, h.turns.trans h'.turns⟩

end Agree

/-- The identifiers of the user's turns are the user's, and those of other turns are not. -/
def Apart (u : String) (mine : String → Prop) (a : ArchiveLog) : Prop :=
  ∀ t ∈ a.turns, mine t.id ↔ t.user = u

theorem mem_ofUser : t ∈ a.ofUser u ↔ t ∈ a.turns ∧ t.user = u := by
  simp [ofUser]

theorem Apart.of_mem_ofUser (h : Apart u mine a) (ht : t ∈ a.ofUser u) : mine t.id :=
  (h t (mem_ofUser.1 ht).1).2 (mem_ofUser.1 ht).2

/-- An identifier of the user's leads to a turn of the user's. -/
theorem Apart.get? (h : Apart u mine a) (hid : mine id) :
    a.get? id = (a.ofUser u).find? fun t => t.id == id := by
  unfold ArchiveLog.get? ofUser
  rw [← List.head?_filter, ← List.head?_filter, List.filter_filter]
  refine congrArg List.head? (List.filter_congr fun t ht => ?_)
  by_cases he : t.id = id
  · have hu : t.user = u := (h t ht).1 (he ▸ hid)
    simp [he, hu]
  · simp [he]

/-! ### Writing and deleting -/

/-- The archive without the turn with an identifier. -/
def without (id : String) (a : ArchiveLog) : ArchiveLog :=
  { a with turns := a.turns.filter fun x => x.id ≠ id }

theorem ofUser_without :
    (a.without id).ofUser u = (a.ofUser u).filter fun x => x.id ≠ id := by
  unfold without ofUser
  rw [List.filter_filter, List.filter_filter]
  simp only [Bool.and_comm]

theorem Agree.without (h : Agree u a a') (id : String) :
    Agree u (a.without id) (a'.without id) := by
  refine { h with turns := ?_ }
  rw [ofUser_without, ofUser_without, h.turns]

theorem agree_without (h : Apart u mine a) (hid : ¬ mine id) : Agree u a (a.without id) := by
  refine ⟨rfl, ?_⟩
  rw [ofUser_without]
  refine (List.filter_eq_self.2 fun t ht => decide_eq_true ?_).symm
  rintro rfl
  exact hid (h.of_mem_ofUser ht)

theorem Apart.without (h : Apart u mine a) (id : String) : Apart u mine (a.without id) :=
  fun t ht => h t (List.mem_filter.1 ht).1

theorem ofUser_insert :
    (a.insert t).ofUser u =
      if t.user = u then (a.without t.id).ofUser u ++ [t] else (a.without t.id).ofUser u := by
  unfold insert ofUser
  rw [List.filter_append]
  by_cases ht : t.user = u <;> simp [ht, ArchiveLog.without]

theorem Agree.insert (h : Agree u a a') (t : Turn) : Agree u (a.insert t) (a'.insert t) := by
  refine { h with turns := ?_ }
  rw [ofUser_insert, ofUser_insert, (h.without t.id).turns]

theorem agree_insert (h : Apart u mine a) (ht : t.user ≠ u) (hid : ¬ mine t.id) :
    Agree u a (a.insert t) := by
  refine ⟨rfl, ?_⟩
  rw [ofUser_insert, if_neg ht]
  exact (agree_without h hid).turns

theorem Apart.insert (h : Apart u mine a) (ht : mine t.id ↔ t.user = u) :
    Apart u mine (a.insert t) := by
  intro x hx
  rcases List.mem_append.1 hx with hx | hx
  · exact h x (List.mem_filter.1 hx).1
  · obtain rfl := List.mem_singleton.1 hx
    exact ht

theorem Agree.delete (h : Agree u a a') (hs : Apart u mine a) (hs' : Apart u mine a')
    (hid : mine id) :
    (a.delete u id).1 = (a'.delete u id).1 ∧ Agree u (a.delete u id).2 (a'.delete u id).2 := by
  unfold ArchiveLog.delete
  rw [hs.get? hid, hs'.get? hid, h.turns]
  split
  · split
    · exact ⟨rfl, h.without id⟩
    · exact ⟨rfl, h⟩
  · exact ⟨rfl, h⟩

/-- A turn is deleted, or the archive is left as it is. -/
theorem delete_inv (v id : String) (a : ArchiveLog) :
    (a.delete v id).2 = a.without id ∨ (a.delete v id).2 = a := by
  unfold delete
  split
  · split
    · exact .inl rfl
    · exact .inr rfl
  · exact .inr rfl

theorem agree_delete (h : Apart u mine a) (hid : ¬ mine id) : Agree u a (a.delete v id).2 := by
  rcases delete_inv v id a with hafter | hafter <;> rw [hafter]
  · exact agree_without h hid
  · exact .refl u a

theorem Apart.delete (h : Apart u mine a) (v id : String) : Apart u mine (a.delete v id).2 := by
  rcases delete_inv v id a with hafter | hafter <;> rw [hafter]
  · exact h.without id
  · exact h

theorem ofUser_deleteUser :
    (a.deleteUser v).2.ofUser u = (a.ofUser u).filter fun t => t.user ≠ v := by
  unfold deleteUser ofUser
  rw [List.filter_filter, List.filter_filter]
  simp only [Bool.and_comm]

theorem agree_deleteUser (hv : v ≠ u) : Agree u a (a.deleteUser v).2 := by
  refine ⟨rfl, ?_⟩
  rw [ofUser_deleteUser]
  refine (List.filter_eq_self.2 fun t ht => decide_eq_true ?_).symm
  exact fun e => hv (e.symm.trans (mem_ofUser.1 ht).2)

/-! ### What does not depend on the archive -/

theorem embedded_keys (t : Turn) (w : World) :
    (embedded t w).1.id = t.id ∧ (embedded t w).1.user = t.user := by
  unfold embedded
  split <;> exact ⟨rfl, rfl⟩

/-- A turn is refused, or it is written with an embedding; the archive has no part in this. -/
theorem respond_append (w : World) (t : Turn) :
    (∃ why, ∀ a, respond w a (.append t) = (.written (.error why), a)) ∨
      ∃ t', t'.id = t.id ∧ t'.user = t.user ∧
        ∀ a, respond w a (.append t) = respond w a (.insert t') := by
  cases hu : checkUser t.user with
  | error why =>
    refine .inl ⟨why, fun a => ?_⟩
    simp only [respond, append, hu, bind, Except.bind]
  | ok _ =>
    obtain ⟨hid, huser⟩ := embedded_keys t w
    refine .inr ⟨_, hid, huser, fun a => ?_⟩
    simp only [respond, append, hu, bind, Except.bind, pure, Except.pure]

theorem Agree.search (h : Agree u a a') (query : String) (limit : Int) (w : World) :
    a.search u query limit w = a'.search u query limit w := by
  unfold ArchiveLog.search matching
  rw [h.turns, h.minSimilarity]

/-! ### Responding -/

/-- Archives that agree on the user's turns respond alike to the user and go on agreeing. -/
theorem Agree.respond (h : Agree u a a') (hs : Apart u mine a) (hs' : Apart u mine a')
    (w : World) {r : Request} (hr : r.user = u) (hids : ∀ id ∈ r.ids, mine id) :
    (a.respond w r).1 = (a'.respond w r).1 ∧ Agree u (a.respond w r).2 (a'.respond w r).2 := by
  cases r with
  | append t =>
    rcases respond_append w t with ⟨why, hrespond⟩ | ⟨t', -, -, hrespond⟩ <;>
      rw [hrespond, hrespond]
    · exact ⟨rfl, h⟩
    · exact ⟨rfl, h.insert t'⟩
  | insert t => exact ⟨rfl, h.insert t⟩
  | search v query limit =>
    obtain rfl : v = u := hr
    refine ⟨?_, h⟩
    simp only [ArchiveLog.respond, h.search]
  | select v query embedding n =>
    obtain rfl : v = u := hr
    refine ⟨?_, h⟩
    simp only [ArchiveLog.respond, matching, h.turns, h.minSimilarity]
  | get v id =>
    have hid := hids id (List.mem_singleton.2 rfl)
    refine ⟨?_, h⟩
    simp only [ArchiveLog.respond, hs.get? hid, hs'.get? hid, h.turns]
  | conversation v conversation limit =>
    obtain rfl : v = u := hr
    refine ⟨?_, h⟩
    simp only [ArchiveLog.respond, ArchiveLog.conversation, latest, h.turns]
  | delete v id =>
    obtain rfl : v = u := hr
    obtain ⟨hdeleted, hafter⟩ := h.delete hs hs' (hids id (List.mem_singleton.2 rfl))
    exact ⟨congrArg Response.deleted hdeleted, hafter⟩
  | deleteUser v =>
    obtain rfl : v = u := hr
    refine ⟨congrArg (Response.removed ∘ List.length) h.turns, { h with turns := ?_ }⟩
    simp only [ArchiveLog.respond, ofUser_deleteUser, h.turns]

/-- A request of another user, with other identifiers, leaves the user's turns as they are. -/
theorem agree_respond (h : Apart u mine a) (w : World) {r : Request} (hr : r.user ≠ u)
    (hids : ∀ id ∈ r.ids, ¬ mine id) : Agree u a (a.respond w r).2 := by
  cases r with
  | append t =>
    rcases respond_append w t with ⟨why, hrespond⟩ | ⟨t', hid, huser, hrespond⟩ <;> rw [hrespond]
    · exact .refl u a
    · exact agree_insert h (huser ▸ hr) (hid ▸ hids t.id (List.mem_singleton.2 rfl))
  | insert t => exact agree_insert h hr (hids t.id (List.mem_singleton.2 rfl))
  | delete v id => exact agree_delete h (hids id (List.mem_singleton.2 rfl))
  | deleteUser v => exact agree_deleteUser hr
  | search | select | get | conversation => exact .refl u a

theorem Apart.respond (h : Apart u mine a) (w : World) {r : Request}
    (hids : ∀ id ∈ r.ids, mine id ↔ r.user = u) : Apart u mine (a.respond w r).2 := by
  cases r with
  | append t =>
    rcases respond_append w t with ⟨why, hrespond⟩ | ⟨t', hid, huser, hrespond⟩ <;> rw [hrespond]
    · exact h
    · refine h.insert ?_
      rw [hid, huser]
      exact hids t.id (List.mem_singleton.2 rfl)
  | insert t => exact h.insert (hids t.id (List.mem_singleton.2 rfl))
  | delete v id => exact h.delete v id
  | deleteUser v => exact fun t ht => h t (List.mem_filter.1 ht).1
  | search | select | get | conversation => exact h

/-- The second archive has the user's turns as the first has them, and in both of them the
identifiers of the user's turns are the user's and those of other turns are not. -/
structure Mirrors (u : String) (mine : String → Prop) (a a' : ArchiveLog) : Prop where
  agree : Agree u a a'
  apart : Apart u mine a
  apart' : Apart u mine a'

/-- A request of the user gets the same response from both archives. -/
theorem Mirrors.own (h : Mirrors u mine a a') (w : World) {r : Request} (hr : r.user = u)
    (hids : ∀ id ∈ r.ids, mine id) :
    (a.respond w r).1 = (a'.respond w r).1 ∧
      Mirrors u mine (a.respond w r).2 (a'.respond w r).2 := by
  have hmine : ∀ id ∈ r.ids, mine id ↔ r.user = u := fun id hid => iff_of_true (hids id hid) hr
  obtain ⟨hresponse, hagree⟩ := h.agree.respond h.apart h.apart' w hr hids
  exact ⟨hresponse, hagree, h.apart.respond w hmine, h.apart'.respond w hmine⟩

/-- A request of another user, with other identifiers, need not be made of the second archive. -/
theorem Mirrors.other (h : Mirrors u mine a a') (w : World) {r : Request} (hr : r.user ≠ u)
    (hids : ∀ id ∈ r.ids, ¬ mine id) : Mirrors u mine (a.respond w r).2 a' where
  agree := (agree_respond h.apart w hr hids).symm.trans h.agree
  apart := h.apart.respond w fun id hid => iff_of_false (hids id hid) hr
  apart' := h.apart'

end TieredMemory.ArchiveLog
