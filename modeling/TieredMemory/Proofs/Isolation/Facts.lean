import TieredMemory.Proofs.FactStore.Merging
import TieredMemory.Proofs.Memory.Calls
import TieredMemory.Proofs.World

/-!
# Users of a fact store

Facts are kept by user and identifier, and a register says whose an identifier is. A request of one
user looks at the facts of that user and at what the register says of the identifiers in the request.
So two stores that agree on what is a user's give the user the same responses and go on agreeing
(`Mirrors.own`), and a request of another user changes nothing that they agree on
(`Mirrors.other`), as long as the two have no identifier in common.
-/

namespace TieredMemory

namespace FactStore

/-! ### Requests -/

/-- What a user may ask of the store. -/
inductive Request where
  | store (user conversation : String) (facts : List Fact)
  /-- Storing goes on after the facts have been embedded. -/
  | insertAll (user : String) (facts : List Fact)
  | search (user query : String) (limit : Int)
  /-- A search goes on after the query has been embedded. -/
  | find (user query : String) (embedding : Option Embedding) (n : Nat)
  | recordAccess (user id : String)
  | get (user id : String)
  | list (user : String)
  | prune (user : String)
  | deleteUser (user : String)

/-- What the store responds with. -/
inductive Response where
  | stored (n : Except Rejection Nat)
  | found (facts : Except Rejection (List Fact))
  | used (b : Bool)
  | held (f : Option Fact)
  | removed (n : Nat)

namespace Request

/-- The user who asks. -/
def user : Request → String
  | store user .. => user
  | insertAll user _ => user
  | search user .. => user
  | find user .. => user
  | recordAccess user _ => user
  | get user _ => user
  | list user => user
  | prune user => user
  | deleteUser user => user

/-- The identifiers in the request. -/
def ids : Request → List String
  | store _ _ facts => facts.map Fact.id
  | insertAll _ facts => facts.map Fact.id
  | recordAccess _ id => [id]
  | get _ id => [id]
  | _ => []

end Request

/-- The response to a request in a world, and the store afterwards. -/
def respond (w : World) (s : FactStore) : Request → Response × FactStore
  | .store user conversation facts =>
    match s.store user conversation facts w with
    | .ok (n, s, _) => (.stored (.ok n), s)
    | .error why => (.stored (.error why), s)
  | .insertAll user facts => (.stored (.ok (s.insertAll user facts).1), (s.insertAll user facts).2)
  | .search user query limit =>
    match s.search user query limit w with
    | .ok (facts, s, _) => (.found (.ok facts), s)
    | .error why => (.found (.error why), s)
  | .find user query embedding n =>
    (.found (.ok (s.find w.now user query embedding n).1), (s.find w.now user query embedding n).2)
  | .recordAccess _ id => (.used (s.recordAccess w.now id).1, (s.recordAccess w.now id).2)
  | .get _ id => (.held (s.get? id), s)
  | .list user => (.found (s.list user), s)
  | .prune user => (.removed (s.prune w.now user).1, (s.prune w.now user).2)
  | .deleteUser user => (.removed (s.deleteUser user).1, (s.deleteUser user).2)

/-! ### Agreement -/

variable {u v : String} {mine : String → Prop} {s s' s'' : FactStore} {f : Fact}

/-- The stores agree on what is the user's: the facts, and the owners of the user's identifiers. -/
structure Agree (u : String) (mine : String → Prop) (s s' : FactStore) : Prop where
  minAccessCount : s.minAccessCount = s'.minAccessCount
  ttl : s.ttl = s'.ttl
  minSimilarity : s.minSimilarity = s'.minSimilarity
  facts : s.ofUser u = s'.ofUser u
  owners : ∀ id, mine id → s.owner? id = s'.owner? id

namespace Agree

theorem refl (u : String) (mine : String → Prop) (s : FactStore) : Agree u mine s s :=
  ⟨rfl, rfl, rfl, rfl, fun _ _ => rfl⟩

theorem symm (h : Agree u mine s s') : Agree u mine s' s :=
  ⟨h.minAccessCount.symm, h.ttl.symm, h.minSimilarity.symm, h.facts.symm,
    fun id hid => (h.owners id hid).symm⟩

theorem trans (h : Agree u mine s s') (h' : Agree u mine s' s'') : Agree u mine s s'' :=
  ⟨h.minAccessCount.trans h'.minAccessCount, h.ttl.trans h'.ttl,
    h.minSimilarity.trans h'.minSimilarity, h.facts.trans h'.facts,
    fun id hid => (h.owners id hid).trans (h'.owners id hid)⟩

end Agree

/-- The identifiers of the user's facts are the user's, and those of other facts are not. -/
def Apart (u : String) (mine : String → Prop) (s : FactStore) : Prop :=
  ∀ a ∈ s.facts.map address, mine a.2 ↔ a.1 = u

theorem Apart.mono (h : Apart u mine s)
    (hsub : s'.facts.map address ⊆ s.facts.map address) : Apart u mine s' :=
  fun a ha => h a (hsub ha)

theorem Apart.of_mem (h : Apart u mine s) (hf : f ∈ s.facts) : mine f.id ↔ f.user = u :=
  h _ (List.mem_map_of_mem hf)

/-! ### Storing -/

theorem ofUser_put (f : Fact) (owners : List (String × String)) (u : String) :
    ofUser { s with facts := Keyed.put address f s.facts, owners } u =
      if f.user = u then Keyed.put address f (s.ofUser u) else s.ofUser u := by
  have hput : (Keyed.put address f s.facts).filter _ = _ :=
    Keyed.filter_put address (fun a => a.1 == u) f
  simpa [ofUser, address] using hput

theorem owner?_put (facts : List Fact) (i v id : String) :
    owner? { s with facts, owners := Keyed.put Prod.fst (i, v) s.owners } id =
      if i = id then some v else s.owner? id := by
  unfold owner?
  rw [Keyed.find?_put]
  split <;> rfl

theorem map_raisedAt_of_ne {g : Fact} (hg : g.user ≠ u) (x : Float) :
    (s.ofUser u).map (raisedAt (address g) x) = s.ofUser u := by
  refine (List.map_congr_left fun f hf => ?_).trans (List.map_id _)
  refine if_neg fun he => hg ?_
  exact (congrArg Prod.fst he).symm.trans (user_of_mem_ofUser hf).2

theorem Agree.insert (h : Agree u mine s s') (f : Fact) :
    (s.insert u f).1 = (s'.insert u f).1 ∧
      Agree u mine (s.insert u f).2 (s'.insert u f).2 := by
  unfold FactStore.insert
  rw [h.facts]
  split
  · refine ⟨rfl, { h with facts := ?_ }⟩
    rw [ofUser_raise, ofUser_raise, h.facts]
  · refine ⟨rfl, { h with facts := ?_, owners := fun id hid => ?_ }⟩
    · rw [ofUser_put, ofUser_put, h.facts]
    · rw [owner?_put, owner?_put, h.owners id hid]

theorem agree_insert (hv : v ≠ u) (hf : ¬ mine f.id) : Agree u mine s (s.insert v f).2 := by
  unfold FactStore.insert
  split
  · next g hg =>
    have hgv := (user_of_mem_ofUser (List.mem_of_find?_eq_some hg)).2
    refine { Agree.refl u mine s with facts := ?_ }
    rw [ofUser_raise, map_raisedAt_of_ne (hgv ▸ hv)]
  · refine { Agree.refl u mine s with facts := ?_, owners := fun id hid => ?_ }
    · rw [ofUser_put, if_neg hv]
    · rw [owner?_put, if_neg]
      rintro rfl
      exact hf hid

theorem Agree.insertAll (h : Agree u mine s s') (fs : List Fact) :
    (s.insertAll u fs).1 = (s'.insertAll u fs).1 ∧
      Agree u mine (s.insertAll u fs).2 (s'.insertAll u fs).2 := by
  induction fs generalizing s s' with
  | nil => exact ⟨rfl, h⟩
  | cons f r ih =>
    obtain ⟨hstored, hinserted⟩ := h.insert f
    obtain ⟨hcount, hall⟩ := ih hinserted
    refine ⟨?_, hall⟩
    simp only [FactStore.insertAll, hstored, hcount]

theorem agree_insertAll (hv : v ≠ u) {fs : List Fact} (hfs : ∀ f ∈ fs, ¬ mine f.id) :
    Agree u mine s (s.insertAll v fs).2 := by
  induction fs generalizing s with
  | nil => exact .refl u mine s
  | cons f r ih =>
    obtain ⟨hf, hr⟩ := List.forall_mem_cons.1 hfs
    exact (agree_insert hv hf).trans (ih hr)

theorem Apart.insertAll (h : Apart u mine s) {fs : List Fact} (hfs : ∀ f ∈ fs, mine f.id ↔ v = u) :
    Apart u mine (s.insertAll v fs).2 := by
  intro a ha
  rcases address_insertAll ha with hold | ⟨f, hf, rfl⟩
  · exact h a hold
  · exact hfs f hf

/-! ### Searching -/

theorem ofUser_recordUses (now : Time) (v : String) (ids : List String) :
    (s.recordUses now v ids).ofUser u =
      (s.ofUser u).map fun f => if f.user = v ∧ f.id ∈ ids then f.recordAccess now else f := by
  unfold recordUses ofUser
  rw [List.filter_map]
  congr 2
  funext f
  simp only [Function.comp]
  split <;> rfl

theorem Agree.find (h : Agree u mine s s') (now : Time) (query : String)
    (embedding : Option Embedding) (n : Nat) :
    (s.find now u query embedding n).1 = (s'.find now u query embedding n).1 ∧
      Agree u mine (s.find now u query embedding n).2 (s'.find now u query embedding n).2 := by
  have hmatching : s.matching u query embedding = s'.matching u query embedding := by
    unfold matching
    rw [h.facts, h.minSimilarity]
  unfold FactStore.find
  simp only [hmatching, true_and]
  refine { h with facts := ?_ }
  rw [ofUser_recordUses, ofUser_recordUses, h.facts]

theorem agree_find (hv : v ≠ u) (now : Time) (query : String) (embedding : Option Embedding)
    (n : Nat) : Agree u mine s (s.find now v query embedding n).2 := by
  refine { Agree.refl u mine s with facts := ?_ }
  simp only [FactStore.find, ofUser_recordUses]
  refine ((List.map_congr_left fun f hf => ?_).trans (List.map_id _)).symm
  have hne : f.user ≠ v := fun e => hv (e.symm.trans (user_of_mem_ofUser hf).2)
  simp [hne]

theorem Apart.find (h : Apart u mine s) (now : Time) (v query : String)
    (embedding : Option Embedding) (n : Nat) :
    Apart u mine (s.find now v query embedding n).2 := by
  have hsame (ids : List String) : (s.recordUses now v ids).facts.map address =
      s.facts.map address := by
    unfold recordUses
    rw [List.map_map]
    refine List.map_congr_left fun f _ => ?_
    simp only [Function.comp]
    split <;> rfl
  intro a ha
  exact h a ((congrArg (a ∈ ·) (hsame _)).mp ha)

/-! ### By identifier -/

theorem address_of_get? {id : String} (h : s.get? id = some f) : f ∈ s.facts ∧ f.id = id := by
  obtain ⟨v, -, hfind⟩ := Option.bind_eq_some_iff.1 h
  have haddress : address f = (v, id) := by simpa using List.find?_some hfind
  exact ⟨List.mem_of_find?_eq_some hfind, congrArg Prod.snd haddress⟩

theorem Agree.get? (h : Agree u mine s s') (hs : Apart u mine s) (hs' : Apart u mine s')
    {id : String} (hid : mine id) : s.get? id = s'.get? id := by
  have hfind : ∀ {s : FactStore}, Apart u mine s → ∀ v, Keyed.find? address (v, id) s.facts =
      if v = u then Keyed.find? address (v, id) (s.ofUser u) else none := by
    intro s hs v
    split
    · next hv =>
      have hfilter := Keyed.find?_filter address (fun a => a.1 == u) (v, id) s.facts
      simp only [hv, beq_self_eq_true, if_true] at hfilter ⊢
      exact hfilter.symm
    · next hv =>
      refine (Keyed.find?_eq_none_iff address).2 fun hmem => hv ?_
      exact (hs _ hmem).1 hid
  unfold FactStore.get?
  rw [h.owners id hid]
  congr 1
  funext v
  rw [hfind hs, hfind hs', h.facts]

theorem ofUser_use (now : Time) (a : String × String) :
    ofUser { s with facts := Keyed.update address a (Fact.recordAccess now) s.facts } u =
      if a.1 = u then Keyed.update address a (Fact.recordAccess now) (s.ofUser u)
      else s.ofUser u := by
  have hkeep : ∀ f, address (Fact.recordAccess now f) = address f := fun _ => rfl
  have hupdate : (Keyed.update address a (Fact.recordAccess now) s.facts).filter _ = _ :=
    Keyed.filter_update address hkeep (fun a => a.1 == u) a
  simpa [ofUser, address] using hupdate

theorem Agree.recordAccess (h : Agree u mine s s') (hs : Apart u mine s) (hs' : Apart u mine s')
    (now : Time) {id : String} (hid : mine id) :
    (s.recordAccess now id).1 = (s'.recordAccess now id).1 ∧
      Agree u mine (s.recordAccess now id).2 (s'.recordAccess now id).2 := by
  unfold FactStore.recordAccess
  rw [h.get? hs hs' hid]
  split
  · exact ⟨rfl, h⟩
  · refine ⟨rfl, { h with facts := ?_ }⟩
    simp only [ofUser_use, h.facts]

theorem agree_recordAccess (hs : Apart u mine s) (now : Time) {id : String} (hid : ¬ mine id) :
    Agree u mine s (s.recordAccess now id).2 := by
  unfold FactStore.recordAccess
  split
  · exact .refl u mine s
  · next f hf =>
    obtain ⟨hmem, rfl⟩ := address_of_get? hf
    refine { Agree.refl u mine s with facts := ?_ }
    simp only [ofUser_use]
    rw [if_neg]
    exact fun hu => hid ((hs.of_mem hmem).2 hu)

theorem Apart.recordAccess (h : Apart u mine s) (now : Time) (id : String) :
    Apart u mine (s.recordAccess now id).2 := by
  unfold FactStore.recordAccess
  split
  · exact h
  · refine h.mono ?_
    simp only [Keyed.map_update address (f := Fact.recordAccess now) fun _ => rfl]
    exact List.Subset.refl _

/-! ### Forgetting -/

/-- The store without some of a user's facts. -/
def without (v : String) (p : Fact → Bool) (s : FactStore) : FactStore :=
  { s with
    facts := s.facts.filter fun f => !(f.user == v && p f)
    owners := withoutOwners ((s.ofUser v).filter p) s.owners }

theorem prune_eq (now : Time) (v : String) (s : FactStore) :
    s.prune now v = (((s.ofUser v).filter (Fact.isStale s.ttl s.minAccessCount now)).length,
      s.without v (Fact.isStale s.ttl s.minAccessCount now)) := rfl

theorem deleteUser_eq (v : String) (s : FactStore) :
    s.deleteUser v = ((s.ofUser v).length, s.without v fun _ => true) := by
  have hkept : (s.facts.filter fun f => decide (f.user ≠ v)) =
      s.facts.filter fun f => !(f.user == v && true) := by
    refine List.filter_congr fun f _ => ?_
    by_cases hf : f.user = v <;> simp [hf]
  unfold deleteUser without
  simp only [hkept, List.filter_true]

theorem owner?_without (p : Fact → Bool) (id : String) :
    (s.without v p).owner? id =
      if ((s.ofUser v).filter p).all fun f => f.id ≠ id then s.owner? id else none := by
  unfold without withoutOwners owner?
  rw [Keyed.find?_filter Prod.fst fun i => ((s.ofUser v).filter p).all fun f => f.id ≠ i]
  split <;> rfl

theorem ofUser_without (p : Fact → Bool) :
    (s.without v p).ofUser u = (s.ofUser u).filter fun f => !(f.user == v && p f) := by
  unfold without ofUser
  rw [List.filter_filter, List.filter_filter]
  simp only [Bool.and_comm]

theorem Agree.without (h : Agree u mine s s') (p : Fact → Bool) :
    Agree u mine (s.without u p) (s'.without u p) := by
  refine { h with facts := ?_, owners := fun id hid => ?_ }
  · rw [ofUser_without, ofUser_without, h.facts]
  · rw [owner?_without, owner?_without, h.facts, h.owners id hid]

theorem agree_without (hv : v ≠ u) (hs : Apart u mine s) (p : Fact → Bool) :
    Agree u mine s (s.without v p) := by
  refine { Agree.refl u mine s with facts := ?_, owners := fun id hid => ?_ }
  · rw [ofUser_without]
    refine (List.filter_eq_self.2 fun f hf => ?_).symm
    have hne : f.user ≠ v := fun e => hv (e.symm.trans (user_of_mem_ofUser hf).2)
    simp [hne]
  · rw [owner?_without, if_pos]
    refine List.all_eq_true.2 fun f hf => decide_eq_true ?_
    rintro rfl
    obtain ⟨hmem, hfv⟩ := user_of_mem_ofUser (List.mem_filter.1 hf).1
    exact hv (hfv.symm.trans ((hs.of_mem hmem).1 hid))

theorem Apart.without (h : Apart u mine s) (v : String) (p : Fact → Bool) :
    Apart u mine (s.without v p) :=
  h.mono (List.map_subset _ (List.filter_subset_self _))

/-! ### What does not depend on the store -/

theorem map_id_embedAll (v : String) (fs : List Fact) (w : World) :
    (embedAll v fs w).1.map Fact.id = fs.map Fact.id := by
  induction fs generalizing w with
  | nil => rfl
  | cons f r ih =>
    simp only [embedAll, List.map_cons, ih]
    cases f.embedding <;> rfl

/-- Storing is refused, or it goes on with embedded facts; the store has no part in this. -/
theorem respond_store (w : World) (v conversation : String) (fs : List Fact) :
    (∃ why, ∀ s, respond w s (.store v conversation fs) = (.stored (.error why), s)) ∨
      ∃ fs', fs'.map Fact.id = fs.map Fact.id ∧
        ∀ s, respond w s (.store v conversation fs) = respond w s (.insertAll v fs') := by
  cases hp : checkPlace v conversation with
  | error why =>
    refine .inl ⟨why, fun s => ?_⟩
    simp only [respond, FactStore.store, hp, bind, Except.bind]
  | ok p =>
    obtain ⟨rfl, -⟩ := checkPlace_inv hp
    refine .inr ⟨_, map_id_embedAll v fs w, fun s => ?_⟩
    simp only [respond, FactStore.store, hp, bind, Except.bind, pure, Except.pure]

/-- A search is refused, or it goes on with an embedding of the query if the user has facts. -/
theorem respond_search (w : World) (v query : String) (limit : Int) :
    (∃ why, ∀ s, respond w s (.search v query limit) = (.found (.error why), s)) ∨
      ∃ embedding n, ∀ s, respond w s (.search v query limit) =
        if (s.ofUser v).isEmpty || n = 0 then (.found (.ok []), s)
        else respond w s (.find v query embedding n) := by
  cases hv : checkUser v with
  | error why =>
    refine .inl ⟨why, fun s => ?_⟩
    simp only [respond, FactStore.search, hv, bind, Except.bind]
  | ok _ =>
    cases hn : checkLimit "max_results" limit with
    | error why =>
      refine .inl ⟨why, fun s => ?_⟩
      simp only [respond, FactStore.search, hv, hn, bind, Except.bind]
    | ok n =>
      refine .inr ⟨(w.embed v "facts.search" query).1, n, fun s => ?_⟩
      simp only [respond, FactStore.search, hv, hn, bind, Except.bind, pure, Except.pure, World.now_embed]
      by_cases hnone : ((s.ofUser v).isEmpty || n = 0) = true
      · simp only [if_pos hnone]
      · simp only [if_neg hnone]


/-! ### Responding -/

/-- Stores that agree on what is the user's respond alike to the user and go on agreeing. -/
theorem Agree.respond (h : Agree u mine s s') (hs : Apart u mine s) (hs' : Apart u mine s')
    (w : World) {r : Request} (hr : r.user = u) (hids : ∀ id ∈ r.ids, mine id) :
    (s.respond w r).1 = (s'.respond w r).1 ∧ Agree u mine (s.respond w r).2 (s'.respond w r).2 := by
  have hinsertAll (fs : List Fact) :
      (s.respond w (.insertAll u fs)).1 = (s'.respond w (.insertAll u fs)).1 ∧
        Agree u mine (s.respond w (.insertAll u fs)).2 (s'.respond w (.insertAll u fs)).2 :=
    (h.insertAll fs).imp_left fun hcount => congrArg (Response.stored ∘ .ok) hcount
  have hfind (query : String) (embedding : Option Embedding) (n : Nat) :
      (s.respond w (.find u query embedding n)).1 = (s'.respond w (.find u query embedding n)).1 ∧
        Agree u mine (s.respond w (.find u query embedding n)).2
          (s'.respond w (.find u query embedding n)).2 :=
    (h.find w.now query embedding n).imp_left fun hfound => congrArg (Response.found ∘ .ok) hfound
  cases r with
  | store v conversation fs =>
    obtain rfl : v = u := hr
    rcases respond_store w v conversation fs with ⟨why, hrespond⟩ | ⟨fs', -, hrespond⟩
    · rw [hrespond, hrespond]
      exact ⟨rfl, h⟩
    · rw [hrespond, hrespond]
      exact hinsertAll fs'
  | insertAll v fs =>
    obtain rfl : v = u := hr
    exact hinsertAll fs
  | search v query limit =>
    obtain rfl : v = u := hr
    rcases respond_search w v query limit with ⟨why, hrespond⟩ | ⟨embedding, n, hrespond⟩
    · rw [hrespond, hrespond]
      exact ⟨rfl, h⟩
    · rw [hrespond, hrespond, h.facts]
      split
      · exact ⟨rfl, h⟩
      · exact hfind query embedding n
  | find v query embedding n =>
    obtain rfl : v = u := hr
    exact hfind query embedding n
  | recordAccess v id =>
    obtain ⟨hused, hafter⟩ := h.recordAccess hs hs' w.now (hids id (List.mem_singleton.2 rfl))
    exact ⟨congrArg Response.used hused, hafter⟩
  | get v id =>
    have hheld := h.get? hs hs' (hids id (List.mem_singleton.2 rfl))
    exact ⟨congrArg Response.held hheld, h⟩
  | list v =>
    obtain rfl : v = u := hr
    refine ⟨?_, h⟩
    simp only [FactStore.respond, FactStore.list, ranked, h.facts]
  | prune v =>
    obtain rfl : v = u := hr
    simp only [FactStore.respond, prune_eq, h.facts, h.ttl, h.minAccessCount, true_and]
    exact h.without _
  | deleteUser v =>
    obtain rfl : v = u := hr
    simp only [FactStore.respond, deleteUser_eq, h.facts, true_and]
    exact h.without _

/-- A request of another user, with other identifiers, changes nothing that is the user's. -/
theorem agree_respond (hs : Apart u mine s) (w : World) {r : Request} (hr : r.user ≠ u)
    (hids : ∀ id ∈ r.ids, ¬ mine id) : Agree u mine s (s.respond w r).2 := by
  cases r with
  | store v conversation fs =>
    rcases respond_store w v conversation fs with ⟨why, hrespond⟩ | ⟨fs', hsame, hrespond⟩
    · rw [hrespond]
      exact .refl u mine s
    · rw [hrespond]
      refine agree_insertAll hr fun f hf => hids f.id ?_
      have hmem : f.id ∈ fs.map Fact.id := hsame ▸ List.mem_map_of_mem hf
      exact hmem
  | insertAll v fs => exact agree_insertAll hr fun f hf => hids f.id (List.mem_map_of_mem hf)
  | search v query limit =>
    rcases respond_search w v query limit with ⟨why, hrespond⟩ | ⟨embedding, n, hrespond⟩
    · rw [hrespond]
      exact .refl u mine s
    · rw [hrespond]
      split
      · exact .refl u mine s
      · exact agree_find hr w.now query embedding n
  | find v query embedding n => exact agree_find hr w.now query embedding n
  | recordAccess v id => exact agree_recordAccess hs w.now (hids id (List.mem_singleton.2 rfl))
  | get v id => exact .refl u mine s
  | list v => exact .refl u mine s
  | prune v => exact agree_without hr hs _
  | deleteUser v =>
    simp only [FactStore.respond, deleteUser_eq]
    exact agree_without hr hs _

theorem Apart.respond (h : Apart u mine s) (w : World) {r : Request}
    (hids : ∀ id ∈ r.ids, mine id ↔ r.user = u) : Apart u mine (s.respond w r).2 := by
  cases r with
  | store v conversation fs =>
    rcases respond_store w v conversation fs with ⟨why, hrespond⟩ | ⟨fs', hsame, hrespond⟩
    · rw [hrespond]
      exact h
    · rw [hrespond]
      refine h.insertAll fun f hf => hids f.id ?_
      have hmem : f.id ∈ fs.map Fact.id := hsame ▸ List.mem_map_of_mem hf
      exact hmem
  | insertAll v fs => exact h.insertAll fun f hf => hids f.id (List.mem_map_of_mem hf)
  | search v query limit =>
    rcases respond_search w v query limit with ⟨why, hrespond⟩ | ⟨embedding, n, hrespond⟩
    · rw [hrespond]
      exact h
    · rw [hrespond]
      split
      · exact h
      · exact h.find w.now v query embedding n
  | find v query embedding n => exact h.find w.now v query embedding n
  | recordAccess v id => exact h.recordAccess w.now id
  | get v id => exact h
  | list v => exact h
  | prune v => exact h.without v _
  | deleteUser v =>
    simp only [FactStore.respond, deleteUser_eq]
    exact h.without v _

/-- The second store has what is the user's in the first, and in both of them the identifiers of the
user's facts are the user's and those of other facts are not. -/
structure Mirrors (u : String) (mine : String → Prop) (s s' : FactStore) : Prop where
  agree : Agree u mine s s'
  apart : Apart u mine s
  apart' : Apart u mine s'

/-- A request of the user gets the same response from both stores. -/
theorem Mirrors.own (h : Mirrors u mine s s') (w : World) {r : Request} (hr : r.user = u)
    (hids : ∀ id ∈ r.ids, mine id) :
    (s.respond w r).1 = (s'.respond w r).1 ∧
      Mirrors u mine (s.respond w r).2 (s'.respond w r).2 := by
  have hmine : ∀ id ∈ r.ids, mine id ↔ r.user = u := fun id hid => iff_of_true (hids id hid) hr
  obtain ⟨hresponse, hagree⟩ := h.agree.respond h.apart h.apart' w hr hids
  exact ⟨hresponse, hagree, h.apart.respond w hmine, h.apart'.respond w hmine⟩

/-- A request of another user, with other identifiers, need not be made of the second store. -/
theorem Mirrors.other (h : Mirrors u mine s s') (w : World) {r : Request} (hr : r.user ≠ u)
    (hids : ∀ id ∈ r.ids, ¬ mine id) : Mirrors u mine (s.respond w r).2 s' where
  agree := (agree_respond h.apart w hr hids).symm.trans h.agree
  apart := h.apart.respond w fun id hid => iff_of_false (hids id hid) hr
  apart' := h.apart'

end FactStore

end TieredMemory
