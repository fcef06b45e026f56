import TieredMemory.Drawers
import TieredMemory.Proofs.FactStore.Run

/-!
# The drawers and the register of the fact store

The register says of an identifier that it is a user's exactly if it is in the user's drawer, as long
as it is in no other drawer as well (`Registered`). An operation changes facts in a drawer without
touching their identifiers, puts one fact into a drawer, or removes some, and each of these keeps the
two tables in step. Hence every request does, unless it leaves an identifier in two drawers
(`Registered.respond`).
-/

namespace TieredMemory.Drawers

open FactStore (Request Response)

variable {d d' : Drawers} {f : Fact} {user v id : String}

/-! ### Lookups -/

/-- The identifiers in a user's drawer. -/
def ids (d : Drawers) (user : String) : List String := (d.drawer user).map Fact.id

theorem mem_ids : id ∈ d.ids user ↔ ∃ f ∈ d.drawer user, f.id = id := List.mem_map

theorem drawer_change {g : List Fact → List Fact} (hg : g [] = []) (user v : String) :
    (d.change user g).drawer v = if user = v then g (d.drawer v) else d.drawer v := by
  unfold drawer change
  rw [Keyed.find?_update Prod.fst (f := fun e => (e.1, g e.2)) fun _ => rfl]
  cases hfind : Keyed.find? Prod.fst v d.drawers with
  | none => simp [hg]
  | some e =>
    have he : e.1 = v := by simpa using List.find?_some hfind
    by_cases hv : user = v
    · simp [hv, he]
    · simp [hv, he, Ne.symm hv]

theorem drawer_enter (user v : String) (f : Fact) :
    (d.enter user f).drawer v =
      if user = v then Keyed.put Fact.id f (d.drawer user) else d.drawer v := by
  unfold drawer enter
  rw [Keyed.find?_put]
  split <;> rfl

theorem owner?_enter (user id : String) (f : Fact) :
    (d.enter user f).owner? id = if f.id = id then some user else d.owner? id := by
  unfold owner? enter
  rw [Keyed.find?_put]
  split <;> rfl

theorem drawer_deleteUser (user v : String) :
    (d.deleteUser user).2.drawer v = if user = v then [] else d.drawer v := by
  unfold drawer deleteUser
  rw [Keyed.find?_remove]
  split <;> rfl

/-- What the register says when the owners of some facts have been struck out. -/
theorem owner?_withoutOwners {gone : List Fact}
    (howners : d'.owners = FactStore.withoutOwners gone d.owners) (id : String) :
    d'.owner? id = if id ∈ gone.map Fact.id then none else d.owner? id := by
  unfold owner?
  rw [howners, FactStore.withoutOwners, Keyed.find?_filter Prod.fst fun i => gone.all fun f => f.id ≠ i]
  by_cases hid : id ∈ gone.map Fact.id
  · obtain ⟨f, hf, rfl⟩ := List.mem_map.1 hid
    rw [if_pos hid, if_neg]
    · rfl
    · intro hall
      exact of_decide_eq_true (List.all_eq_true.1 hall f hf) rfl
  · rw [if_neg hid, if_pos]
    refine List.all_eq_true.2 fun f hf => decide_eq_true ?_
    rintro rfl
    exact hid (List.mem_map_of_mem hf)

/-! ### Both tables in step -/

/-- The register and the drawers agree. -/
structure Registered (d : Drawers) : Prop where
  own : ∀ user, ∀ f ∈ d.drawer user, f.user = user
  distinct : ∀ user, (d.ids user).Nodup
  owner : ∀ id user, d.owner? id = some user ↔ id ∈ d.ids user
  /-- Only a user with a valid identifier has facts. -/
  valid : ∀ user, d.drawer user ≠ [] → checkUser user = .ok ()

/-- No identifier is in the drawers of two users. -/
def Separate (d : Drawers) : Prop := ∀ id user v, id ∈ d.ids user → id ∈ d.ids v → user = v

theorem Registered.empty (minAccessCount : Int) (ttl : Duration) (minSimilarity : Float) :
    Registered { minAccessCount, ttl, minSimilarity } where
  own user f hf := by cases hf
  distinct user := List.nodup_nil
  owner id user := by
    constructor <;> intro h <;> cases h
  valid user h := absurd rfl h

/-- Facts are changed in place, and neither their identifiers nor their users. -/
structure Rewrites (h : String → Fact → Fact) (d d' : Drawers) : Prop where
  owners : d'.owners = d.owners
  drawer : ∀ user, d'.drawer user = (d.drawer user).map (h user)
  id : ∀ user f, (h user f).id = f.id
  user : ∀ user f, (h user f).user = f.user

theorem Rewrites.ids {h : String → Fact → Fact} (hr : Rewrites h d d') (user : String) :
    d'.ids user = d.ids user := by
  unfold Drawers.ids
  rw [hr.drawer, List.map_map]
  exact List.map_congr_left fun f _ => hr.id user f

theorem Rewrites.refl (d : Drawers) : Rewrites (fun _ f => f) d d :=
  ⟨rfl, fun _ => (List.map_id' _).symm, fun _ _ => rfl, fun _ _ => rfl⟩

/-- Changing a drawer fact by fact. -/
theorem rewrites_change {h : Fact → Fact} (hid : ∀ f, (h f).id = f.id)
    (huser : ∀ f, (h f).user = f.user) (user : String) (d : Drawers) :
    Rewrites (fun v f => if user = v then h f else f) d (d.change user (List.map h)) where
  owners := rfl
  drawer v := by
    rw [drawer_change List.map_nil]
    split
    · rfl
    · exact (List.map_id' _).symm
  id v f := by
    split
    · exact hid f
    · rfl
  user v f := by
    split
    · exact huser f
    · rfl

theorem Registered.rewrite {h : String → Fact → Fact} (hd : Registered d) (hr : Rewrites h d d') :
    Registered d' where
  own user f hf := by
    rw [hr.drawer] at hf
    obtain ⟨g, hg, rfl⟩ := List.mem_map.1 hf
    rw [hr.user, hd.own user g hg]
  distinct user := by
    rw [hr.ids]
    exact hd.distinct user
  owner id user := by
    have howner : d'.owner? id = d.owner? id := by
      unfold owner?
      rw [hr.owners]
    rw [howner, hr.ids, hd.owner]
  valid user hne := by
    refine hd.valid user fun hnil => hne ?_
    rw [hr.drawer, hnil, List.map_nil]

theorem mem_ids_enter : id ∈ (d.enter user f).ids v ↔ user = v ∧ id = f.id ∨ id ∈ d.ids v := by
  unfold ids
  rw [drawer_enter]
  split
  · next hv =>
    subst hv
    rw [Keyed.map_put]
    split
    · next hold =>
      constructor
      · exact .inr
      · rintro (⟨-, rfl⟩ | h)
        · exact hold
        · exact h
    · rw [List.mem_append, List.mem_singleton]
      tauto
  · next hv => simp [hv]

/-- A fact is put into the drawer of its user, while its identifier is in no other drawer. -/
theorem Registered.enter (hd : Registered d) (hf : f.user = user) (hvalid : checkUser user = .ok ())
    (hfree : ∀ v, f.id ∈ d.ids v → user = v) : Registered (d.enter user f) where
  own v g hg := by
    rw [drawer_enter] at hg
    split at hg
    · next hv =>
      rcases Keyed.mem_put Fact.id hg with rfl | hg
      · exact hf.trans hv
      · exact hv ▸ hd.own user g hg
    · exact hd.own v g hg
  distinct v := by
    unfold ids
    rw [drawer_enter]
    split
    · exact Keyed.nodup_put Fact.id (hd.distinct user) f
    · exact hd.distinct v
  owner id v := by
    rw [owner?_enter, mem_ids_enter]
    split
    · next hid =>
      subst hid
      rw [Option.some.injEq]
      exact ⟨fun hv => .inl ⟨hv, rfl⟩, fun h => h.elim And.left (hfree v)⟩
    · next hid =>
      rw [hd.owner]
      exact ⟨.inr, fun h => h.resolve_left fun h => hid h.2.symm⟩
  valid v hne := by
    by_cases hv : user = v
    · exact hv ▸ hvalid
    · rw [drawer_enter, if_neg hv] at hne
      exact hd.valid v hne

/-- Some facts are removed from a drawer, and their owners are struck out. -/
structure Drops (user : String) (p : Fact → Bool) (d d' : Drawers) : Prop where
  owners : d'.owners = FactStore.withoutOwners ((d.drawer user).filter p) d.owners
  drawer : ∀ v, d'.drawer v =
    if user = v then (d.drawer v).filter (fun f => !p f) else d.drawer v

theorem drops_prune (now : Time) (user : String) (d : Drawers) :
    Drops user (Fact.isStale d.ttl d.minAccessCount now) d (d.prune now user).2 where
  owners := rfl
  drawer v := drawer_change List.filter_nil user v

theorem drops_deleteUser (user : String) (d : Drawers) :
    Drops user (fun _ => true) d (d.deleteUser user).2 where
  owners := by
    unfold deleteUser
    rw [List.filter_true]
  drawer v := by
    rw [drawer_deleteUser]
    split
    · simp
    · rfl

theorem Drops.sublist {p : Fact → Bool} (hd : Drops user p d d') (v : String) :
    (d'.drawer v).Sublist (d.drawer v) := by
  rw [hd.drawer]
  split
  · exact List.filter_sublist
  · exact .refl _

theorem Registered.drop {p : Fact → Bool} (hd : Registered d) (hdrops : Drops user p d d') :
    Registered d' where
  own v f hf := hd.own v f ((hdrops.sublist v).subset hf)
  distinct v := (hd.distinct v).sublist ((hdrops.sublist v).map Fact.id)
  owner id v := by
    rw [owner?_withoutOwners hdrops.owners]
    by_cases hgone : id ∈ ((d.drawer user).filter p).map Fact.id
    · rw [if_pos hgone]
      obtain ⟨f, hf, rfl⟩ := List.mem_map.1 hgone
      obtain ⟨hmem, hp⟩ := List.mem_filter.1 hf
      refine iff_of_false nofun fun hkept => ?_
      obtain ⟨g, hg, hid⟩ := mem_ids.1 hkept
      -- the register leads from the identifier to one drawer, where it is once
      have huser := (hd.owner f.id user).2 (mem_ids.2 ⟨f, hmem, rfl⟩)
      have hv := (hd.owner f.id v).2 (mem_ids.2 ⟨g, (hdrops.sublist v).subset hg, hid⟩)
      obtain rfl : user = v := Option.some.inj (huser.symm.trans hv)
      rw [hdrops.drawer, if_pos rfl] at hg
      obtain ⟨hg, hq⟩ := List.mem_filter.1 hg
      obtain rfl := List.inj_on_of_nodup_map (hd.distinct user) hg hmem hid
      rw [hp] at hq
      cases hq
    · rw [if_neg hgone, hd.owner, mem_ids, mem_ids, hdrops.drawer]
      split
      · next hv =>
        subst hv
        constructor
        · rintro ⟨f, hf, rfl⟩
          have hp : p f = false := by
            by_contra hp
            rw [Bool.not_eq_false] at hp
            exact hgone (List.mem_map_of_mem (List.mem_filter.2 ⟨hf, hp⟩))
          exact ⟨f, List.mem_filter.2 ⟨hf, by rw [hp]; rfl⟩, rfl⟩
        · rintro ⟨f, hf, rfl⟩
          exact ⟨f, (List.mem_filter.1 hf).1, rfl⟩
      · rfl
  valid v hne := by
    refine hd.valid v fun hnil => hne ?_
    exact List.eq_nil_of_sublist_nil (hnil ▸ hdrops.sublist v)

/-! ### What the operations do -/

/-- Changing the facts with one identifier, which keeps identifiers and users. -/
theorem rewrites_update {h : Fact → Fact} (hid : ∀ f, (h f).id = f.id)
    (huser : ∀ f, (h f).user = f.user) (user id : String) (d : Drawers) :
    Rewrites (fun v f => if user = v then if f.id = id then h f else f else f) d
      (d.change user (Keyed.update Fact.id id h)) := by
  refine rewrites_change (h := fun f => if f.id = id then h f else f) (fun f => ?_) (fun f => ?_) user d
  · split
    · exact hid f
    · rfl
  · split
    · exact huser f
    · rfl

/-- A fact that is offered raises one that agrees with it, or it is put into the drawer. -/
theorem insert_cases (user : String) (f : Fact) (d : Drawers) :
    (∃ h, Rewrites h d (d.insert user f).2) ∨
      (d.insert user f).2 = d.enter user { f with user } := by
  unfold insert
  simp only
  split
  · refine .inl ⟨_, rewrites_update
      (h := fun g => { g with importance := greatest g.importance f.importance }) ?_ ?_ user _ d⟩
    · exact fun _ => rfl
    · exact fun _ => rfl
  · exact .inr rfl

theorem ids_subset_insert (user : String) (f : Fact) (d : Drawers) (v : String) :
    d.ids v ⊆ (d.insert user f).2.ids v := by
  rcases insert_cases user f d with ⟨h, hr⟩ | henter
  · rw [hr.ids]
    exact List.Subset.refl _
  · rw [henter]
    exact fun id hid => mem_ids_enter.2 (.inr hid)

theorem ids_subset_insertAll (user : String) (fs : List Fact) (d : Drawers) (v : String) :
    d.ids v ⊆ (d.insertAll user fs).2.ids v := by
  induction fs generalizing d with
  | nil => exact List.Subset.refl _
  | cons f r ih => exact List.Subset.trans (ids_subset_insert user f d v) (ih _)

/-- Storing facts keeps the tables in step, if no identifier is in two drawers in the end: facts are
only added, so none is in two drawers on the way. -/
theorem Registered.insertAll {fs : List Fact} (hd : Registered d) (hvalid : checkUser user = .ok ())
    (hsep : Separate (d.insertAll user fs).2) : Registered (d.insertAll user fs).2 := by
  induction fs generalizing d with
  | nil => exact hd
  | cons f r ih =>
    have hinsert : Registered (d.insert user f).2 := by
      rcases insert_cases user f d with ⟨h, hr⟩ | henter
      · exact hd.rewrite hr
      · have hmem : f.id ∈ (d.insert user f).2.ids user := by
          rw [henter]
          exact mem_ids_enter.2 (.inl ⟨rfl, rfl⟩)
        rw [henter]
        refine hd.enter rfl hvalid fun v hv => hsep f.id user v ?_ ?_
        · exact ids_subset_insertAll user r _ user hmem
        · exact ids_subset_insertAll user r _ v (ids_subset_insert user f d v hv)
    exact ih hinsert hsep

theorem rewrites_find (now : Time) (user query : String) (embedding : Option Embedding) (n : Nat)
    (d : Drawers) : ∃ h, Rewrites h d (d.find now user query embedding n).2 := by
  refine ⟨_, rewrites_change (fun f => ?_) (fun f => ?_) user d⟩ <;> split <;> rfl

theorem rewrites_recordAccess (now : Time) (id : String) (d : Drawers) :
    ∃ h, Rewrites h d (d.recordAccess now id).2 := by
  unfold recordAccess
  split
  · exact ⟨_, .refl d⟩
  · split
    · exact ⟨_, .refl d⟩
    · exact ⟨_, rewrites_update (h := Fact.recordAccess now) (fun _ => rfl) (fun _ => rfl) _ id d⟩

/-! ### Requests -/

/-- The response to a request in a world, and the drawers afterwards. -/
def respond (w : World) (d : Drawers) : Request → Response × Drawers
  | .store user conversation facts =>
    match d.store user conversation facts w with
    | .ok (n, d, _) => (.stored (.ok n), d)
    | .error why => (.stored (.error why), d)
  | .insertAll user facts => (.stored (.ok (d.insertAll user facts).1), (d.insertAll user facts).2)
  | .search user query limit =>
    match d.search user query limit w with
    | .ok (facts, d, _) => (.found (.ok facts), d)
    | .error why => (.found (.error why), d)
  | .find user query embedding n =>
    (.found (.ok (d.find w.now user query embedding n).1), (d.find w.now user query embedding n).2)
  | .recordAccess _ id => (.used (d.recordAccess w.now id).1, (d.recordAccess w.now id).2)
  | .get _ id => (.held (d.get? id), d)
  | .list user => (.found (d.list user), d)
  | .prune user => (.removed (d.prune w.now user).1, (d.prune w.now user).2)
  | .deleteUser user => (.removed (d.deleteUser user).1, (d.deleteUser user).2)

/-- Storing is refused, or it goes on with embedded facts for a valid user. -/
theorem respond_store (w : World) (user conversation : String) (fs : List Fact) (d : Drawers) :
    (∃ why, d.respond w (.store user conversation fs) = (.stored (.error why), d)) ∨
      checkUser user = .ok () ∧ d.respond w (.store user conversation fs) =
        d.respond w (.insertAll user (FactStore.embedAll user fs w).1) := by
  cases hp : checkPlace user conversation with
  | error why =>
    refine .inl ⟨why, ?_⟩
    simp only [respond, store, hp, bind, Except.bind]
  | ok p =>
    obtain ⟨rfl, hvalid⟩ := checkPlace_inv hp
    refine .inr ⟨hvalid, ?_⟩
    simp only [respond, store, hp, bind, Except.bind, pure, Except.pure]

/-- A search is refused, finds nothing, or goes on with an embedding of the query. -/
theorem respond_search (w : World) (user query : String) (limit : Int) (d : Drawers) :
    (∃ facts, d.respond w (.search user query limit) = (.found facts, d)) ∨
      ∃ embedding n, d.respond w (.search user query limit) =
        d.respond w (.find user query embedding n) := by
  cases hv : checkUser user with
  | error why =>
    refine .inl ⟨.error why, ?_⟩
    simp only [respond, search, hv, bind, Except.bind]
  | ok _ =>
    cases hn : checkLimit "max_results" limit with
    | error why =>
      refine .inl ⟨.error why, ?_⟩
      simp only [respond, search, hv, hn, bind, Except.bind]
    | ok n =>
      by_cases hnone : ((d.drawer user).isEmpty || n = 0) = true
      · refine .inl ⟨.ok [], ?_⟩
        simp only [respond, search, hv, hn, bind, Except.bind, pure, Except.pure, if_pos hnone]
      · refine .inr ⟨(w.embed user "facts.search" query).1, n, ?_⟩
        simp only [respond, search, hv, hn, bind, Except.bind, pure, Except.pure, if_neg hnone,
          World.now_embed]

/-- A request that goes on has been checked when it was made. -/
def IsChecked : Request → Prop
  | .insertAll user _ => checkUser user = .ok ()
  | _ => True

/-- Every request keeps the tables in step, if no identifier is in two drawers afterwards. -/
theorem Registered.respond (hd : Registered d) (w : World) {r : Request} (hr : IsChecked r)
    (hsep : Separate (d.respond w r).2) : Registered (d.respond w r).2 := by
  cases r with
  | store user conversation fs =>
    rcases respond_store w user conversation fs d with ⟨why, hrespond⟩ | ⟨hvalid, hrespond⟩
    · rw [hrespond]
      exact hd
    · rw [hrespond] at hsep ⊢
      exact hd.insertAll hvalid hsep
  | insertAll user fs => exact hd.insertAll hr hsep
  | search user query limit =>
    rcases respond_search w user query limit d with ⟨facts, hrespond⟩ | ⟨embedding, n, hrespond⟩
    · rw [hrespond]
      exact hd
    · rw [hrespond]
      obtain ⟨h, hrewrites⟩ := rewrites_find w.now user query embedding n d
      exact hd.rewrite hrewrites
  | find user query embedding n =>
    obtain ⟨h, hrewrites⟩ := rewrites_find w.now user query embedding n d
    exact hd.rewrite hrewrites
  | recordAccess _ id =>
    obtain ⟨h, hrewrites⟩ := rewrites_recordAccess w.now id d
    exact hd.rewrite hrewrites
  | get _ id => exact hd
  | list user => exact hd
  | prune user => exact hd.drop (drops_prune w.now user d)
  | deleteUser user => exact hd.drop (drops_deleteUser user d)

end TieredMemory.Drawers
