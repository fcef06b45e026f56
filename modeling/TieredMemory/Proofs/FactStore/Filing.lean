import TieredMemory.Proofs.FactStore.Drawers
import TieredMemory.Proofs.Ranking

/-!
# Runs of the drawers

After every run of requests in which no identifier has come to two users, what the register leads to
is what is listed (`run_indexed`). The drawers hold what the one list of all facts holds, and give the
same answers (`Filed.exchanges`).
-/

namespace TieredMemory.Drawers

open FactStore (Request Response Event Exchange)

variable {d : Drawers} {s : FactStore} {f : Fact} {user id : String}

/-! ### The one list of all facts -/

/-- The drawers hold what the list holds, sorted by users, and the registers are the same. -/
structure Filed (d : Drawers) (s : FactStore) : Prop where
  minAccessCount : d.minAccessCount = s.minAccessCount
  ttl : d.ttl = s.ttl
  minSimilarity : d.minSimilarity = s.minSimilarity
  owners : d.owners = s.owners
  drawer : ∀ user, d.drawer user = s.ofUser user

/-- Among the facts of one user, the identifier tells as much as the address. -/
theorem address_eq_iff {g : Fact} (hg : g ∈ s.ofUser user) (id : String) :
    FactStore.address g = (user, id) ↔ g.id = id := by
  have huser := (FactStore.user_of_mem_ofUser hg).2
  exact ⟨congrArg Prod.snd, fun hid => Prod.ext huser hid⟩

namespace Filed

theorem empty (minAccessCount : Int) (ttl : Duration) (minSimilarity : Float) :
    Filed { minAccessCount, ttl, minSimilarity } { minAccessCount, ttl, minSimilarity } :=
  ⟨rfl, rfl, rfl, rfl, fun _ => rfl⟩

theorem insert (h : Filed d s) (user : String) (f : Fact) :
    (d.insert user f).1 = (s.insert user f).1 ∧ Filed (d.insert user f).2 (s.insert user f).2 := by
  have hagrees : (d.drawer user).find? (fun g => FactStore.agrees g { f with user }) =
      (s.ofUser user).find? fun g => FactStore.agrees g f := by
    rw [h.drawer]
    rfl
  unfold Drawers.insert FactStore.insert
  simp only [hagrees]
  cases hfind : (s.ofUser user).find? fun g => FactStore.agrees g f with
  | some g =>
    have huser := (FactStore.user_of_mem_ofUser (List.mem_of_find?_eq_some hfind)).2
    refine ⟨rfl, { h with drawer := fun v => ?_ }⟩
    rw [drawer_change rfl, FactStore.ofUser_raise, h.drawer]
    split
    · next hv =>
      subst hv
      have haddress : FactStore.address g = (user, g.id) := Prod.ext huser rfl
      rw [haddress]
      exact (Keyed.update_congr _ _ _ fun b hb => address_eq_iff hb g.id).symm
    · next hv => exact (FactStore.map_raisedAt_of_ne (fun e => hv (huser.symm.trans e)) _).symm
  | none =>
    refine ⟨rfl, { h with owners := ?_, drawer := fun v => ?_ }⟩
    · simp only [enter, h.owners]
    · simp only [drawer_enter, FactStore.ofUser_put, h.drawer]
      split
      · next hv =>
        subst hv
        exact (Keyed.put_congr _ _ (a := { f with user }) fun b hb => address_eq_iff hb f.id).symm
      · rfl

theorem insertAll (h : Filed d s) (user : String) (fs : List Fact) :
    (d.insertAll user fs).1 = (s.insertAll user fs).1 ∧
      Filed (d.insertAll user fs).2 (s.insertAll user fs).2 := by
  induction fs generalizing d s with
  | nil => exact ⟨rfl, h⟩
  | cons f r ih =>
    obtain ⟨hstored, hinsert⟩ := h.insert user f
    obtain ⟨hcount, hall⟩ := ih hinsert
    refine ⟨?_, hall⟩
    simp only [Drawers.insertAll, FactStore.insertAll, hstored, hcount]

theorem find (h : Filed d s) (now : Time) (user query : String) (embedding : Option Embedding)
    (n : Nat) :
    (d.find now user query embedding n).1 = (s.find now user query embedding n).1 ∧
      Filed (d.find now user query embedding n).2 (s.find now user query embedding n).2 := by
  have hmatching : d.matching user query embedding = s.matching user query embedding := by
    unfold Drawers.matching FactStore.matching
    rw [h.drawer, h.minSimilarity]
  unfold Drawers.find FactStore.find
  simp only [hmatching, true_and]
  refine { h with drawer := fun v => ?_ }
  rw [drawer_change rfl, FactStore.ofUser_recordUses, h.drawer]
  split
  · next hv =>
    subst hv
    refine List.map_congr_left fun g hg => ?_
    simp only [(FactStore.user_of_mem_ofUser hg).2, true_and]
  · next hv =>
    refine ((List.map_congr_left fun g hg => ?_).trans (List.map_id' _)).symm
    exact if_neg fun hused => hv (hused.1.symm.trans (FactStore.user_of_mem_ofUser hg).2)

theorem owner? (h : Filed d s) (id : String) : d.owner? id = s.owner? id := by
  unfold Drawers.owner? FactStore.owner?
  rw [h.owners]

/-- An identifier leads to the same fact in a user's drawer and among all facts. -/
theorem find?_drawer (h : Filed d s) (user id : String) :
    Keyed.find? Fact.id id (d.drawer user) = Keyed.find? FactStore.address (user, id) s.facts := by
  have hfilter := Keyed.find?_filter FactStore.address (fun a => a.1 == user) (user, id) s.facts
  rw [if_pos (beq_self_eq_true user)] at hfilter
  rw [h.drawer, ← hfilter]
  exact (Keyed.find?_congr _ _ fun b hb => address_eq_iff hb id).symm

theorem get? (h : Filed d s) (id : String) : d.get? id = s.get? id := by
  unfold Drawers.get? FactStore.get?
  rw [h.owner?]
  congr 1
  funext user
  exact h.find?_drawer user id

theorem recordAccess (h : Filed d s) (now : Time) (id : String) :
    (d.recordAccess now id).1 = (s.recordAccess now id).1 ∧
      Filed (d.recordAccess now id).2 (s.recordAccess now id).2 := by
  unfold Drawers.recordAccess FactStore.recordAccess FactStore.get?
  rw [h.owner?]
  cases howner : s.owner? id with
  | none => exact ⟨rfl, h⟩
  | some user =>
    simp only [h.find?_drawer, Option.bind_some]
    cases hfind : Keyed.find? FactStore.address (user, id) s.facts with
    | none => exact ⟨rfl, h⟩
    | some g =>
      have haddress : FactStore.address g = (user, id) := by simpa using List.find?_some hfind
      refine ⟨rfl, { h with drawer := fun v => ?_ }⟩
      simp only [haddress, FactStore.ofUser_use]
      rw [drawer_change rfl, h.drawer]
      split
      · next hv =>
        subst hv
        exact (Keyed.update_congr _ _ _ fun b hb => address_eq_iff hb id).symm
      · rfl

/-- Removing facts from a drawer is removing them from the list. -/
theorem drawer_drops {d' : Drawers} {p : Fact → Bool} (h : Filed d s) (hdrops : Drops user p d d')
    (v : String) : d'.drawer v = (s.without user p).ofUser v := by
  rw [hdrops.drawer, FactStore.ofUser_without, h.drawer]
  split
  · next hv =>
    subst hv
    refine List.filter_congr fun f hf => ?_
    rw [(FactStore.user_of_mem_ofUser hf).2, beq_self_eq_true, Bool.true_and]
  · next hv =>
    refine (List.filter_eq_self.2 fun f hf => ?_).symm
    have hne : f.user ≠ user := fun e => hv (e.symm.trans (FactStore.user_of_mem_ofUser hf).2)
    simp [hne]

theorem prune (h : Filed d s) (now : Time) (user : String) :
    (d.prune now user).1 = (s.prune now user).1 ∧
      Filed (d.prune now user).2 (s.prune now user).2 := by
  rw [FactStore.prune_eq, ← h.ttl, ← h.minAccessCount]
  refine ⟨?_, { h with owners := ?_, drawer := h.drawer_drops (drops_prune now user d) }⟩
  · simp only [Drawers.prune, h.drawer]
  · simp only [Drawers.prune, FactStore.without, h.drawer, h.owners]

theorem deleteUser (h : Filed d s) (user : String) :
    (d.deleteUser user).1 = (s.deleteUser user).1 ∧
      Filed (d.deleteUser user).2 (s.deleteUser user).2 := by
  rw [FactStore.deleteUser_eq]
  refine ⟨?_, { h with owners := ?_, drawer := h.drawer_drops (drops_deleteUser user d) }⟩
  · simp only [Drawers.deleteUser, h.drawer]
  · simp only [Drawers.deleteUser, FactStore.without, h.drawer, h.owners, List.filter_true]

theorem store (h : Filed d s) (w : World) (user conversation : String) (fs : List Fact) :
    (d.respond w (.store user conversation fs)).1 = (s.respond w (.store user conversation fs)).1 ∧
      Filed (d.respond w (.store user conversation fs)).2
        (s.respond w (.store user conversation fs)).2 := by
  simp only [Drawers.respond, Drawers.store, FactStore.respond, FactStore.store]
  cases checkPlace user conversation with
  | error why => exact ⟨rfl, h⟩
  | ok p =>
    have hall := h.insertAll p.user (FactStore.embedAll p.user fs w).1
    exact hall.imp_left fun hcount => congrArg (Response.stored ∘ .ok) hcount

theorem search (h : Filed d s) (w : World) (user query : String) (limit : Int) :
    (d.respond w (.search user query limit)).1 = (s.respond w (.search user query limit)).1 ∧
      Filed (d.respond w (.search user query limit)).2 (s.respond w (.search user query limit)).2 := by
  simp only [Drawers.respond, Drawers.search, FactStore.respond, FactStore.search, h.drawer]
  cases checkUser user with
  | error why => exact ⟨rfl, h⟩
  | ok _ =>
    cases checkLimit "max_results" limit with
    | error why => exact ⟨rfl, h⟩
    | ok n =>
      simp only [bind, Except.bind, pure, Except.pure]
      by_cases hnone : ((s.ofUser user).isEmpty || decide (n = 0)) = true
      · simp only [if_pos hnone]
        exact ⟨trivial, h⟩
      · simp only [if_neg hnone]
        have hfind := h.find (w.embed user "facts.search" query).2.now user query
          (w.embed user "facts.search" query).1 n
        exact hfind.imp_left fun hfound => congrArg (Response.found ∘ .ok) hfound

/-- One request has one response, and the drawers go on holding what the list holds. -/
theorem respond (h : Filed d s) (w : World) (r : Request) :
    (d.respond w r).1 = (s.respond w r).1 ∧ Filed (d.respond w r).2 (s.respond w r).2 := by
  cases r with
  | store user conversation fs => exact h.store w user conversation fs
  | insertAll user fs =>
    exact (h.insertAll user fs).imp_left fun hcount => congrArg (Response.stored ∘ .ok) hcount
  | search user query limit => exact h.search w user query limit
  | find user query embedding n =>
    exact (h.find w.now user query embedding n).imp_left fun hfound =>
      congrArg (Response.found ∘ .ok) hfound
  | recordAccess _ id => exact (h.recordAccess w.now id).imp_left (congrArg Response.used)
  | get _ id => exact ⟨congrArg Response.held (h.get? id), h⟩
  | list user =>
    refine ⟨?_, h⟩
    simp only [Drawers.respond, FactStore.respond, list, FactStore.list, FactStore.ranked, h.drawer]
  | prune user => exact (h.prune w.now user).imp_left (congrArg Response.removed)
  | deleteUser user => exact (h.deleteUser user).imp_left (congrArg Response.removed)

end Filed

/-! ### What the register is good for -/

/-- The fact is in the list of some user. -/
def Listed (d : Drawers) (f : Fact) : Prop := ∃ user fs, d.list user = .ok fs ∧ f ∈ fs

/-- What can be reached through the register is what is in the drawers. -/
structure Sound (d : Drawers) : Prop where
  owner : ∀ id user, d.owner? id = some user ↔ id ∈ (d.drawer user).map Fact.id
  own : ∀ user, ∀ f ∈ d.drawer user, f.user = user
  once : ∀ f g, d.Listed f → d.Listed g → f.id = g.id → f = g
  got : ∀ id f, d.get? id = some f ↔ d.Listed f ∧ f.id = id
  used : ∀ now id, (d.recordAccess now id).1 = true ↔ ∃ f, d.Listed f ∧ f.id = id
  /-- A use is counted for the fact with the identifier and for no other. -/
  counted : ∀ now id, (d.recordAccess now id).2.owners = d.owners ∧
    ∀ user, (d.recordAccess now id).2.drawer user = (d.drawer user).map fun f =>
      if f.id = id then { f with accessCount := f.accessCount + 1, lastAccessed := now } else f

theorem list_eq_ok_iff {fs : List Fact} :
    d.list user = .ok fs ↔ checkUser user = .ok () ∧
      fs = descending (fun a b => floatThen a.importance b.importance (a.lastAccessed < b.lastAccessed))
        (d.drawer user) := by
  unfold list
  cases checkUser user with
  | error why => simp [Except.map]
  | ok _ => simp [Except.map, eq_comm]

theorem Registered.listed_iff (hd : Registered d) : d.Listed f ↔ ∃ user, f ∈ d.drawer user := by
  constructor
  · rintro ⟨user, fs, hlist, hf⟩
    obtain ⟨-, rfl⟩ := list_eq_ok_iff.1 hlist
    exact ⟨user, (descending_perm _ _).mem_iff.1 hf⟩
  · rintro ⟨user, hf⟩
    have hvalid := hd.valid user (List.ne_nil_of_mem hf)
    exact ⟨user, _, list_eq_ok_iff.2 ⟨hvalid, rfl⟩, (descending_perm _ _).mem_iff.2 hf⟩

theorem Registered.get?_eq_some_iff (hd : Registered d) :
    d.get? id = some f ↔ (∃ user, f ∈ d.drawer user) ∧ f.id = id := by
  have hfind (user : String) := Keyed.find?_eq_some_iff Fact.id (a := f) (k := id) (hd.distinct user)
  constructor
  · intro hget
    obtain ⟨user, -, hf⟩ := Option.bind_eq_some_iff.1 hget
    obtain ⟨hmem, hid⟩ := (hfind user).1 hf
    exact ⟨⟨user, hmem⟩, hid⟩
  · rintro ⟨⟨user, hf⟩, rfl⟩
    have howner := (hd.owner f.id user).2 (mem_ids.2 ⟨f, hf, rfl⟩)
    exact Option.bind_eq_some_iff.2 ⟨user, howner, (hfind user).2 ⟨hf, rfl⟩⟩

theorem recordAccess_eq (now : Time) (id : String) (d : Drawers) :
    (d.recordAccess now id).1 = (d.get? id).isSome := by
  unfold recordAccess get?
  cases howner : d.owner? id with
  | none => rfl
  | some user =>
    simp only [Option.bind_some]
    cases Keyed.find? Fact.id id (d.drawer user) <;> rfl

/-- A use is counted in every drawer alike, since the identifier is in no other than the owner's. -/
theorem Registered.drawer_recordAccess (hd : Registered d) (now : Time) (id user : String) :
    (d.recordAccess now id).2.drawer user =
      Keyed.update Fact.id id (Fact.recordAccess now) (d.drawer user) := by
  have hother (h : d.owner? id ≠ some user) :
      Keyed.update Fact.id id (Fact.recordAccess now) (d.drawer user) = d.drawer user :=
    Keyed.update_of_notMem Fact.id _ (mt (hd.owner id user).2 h)
  unfold recordAccess
  cases howner : d.owner? id with
  | none => exact (hother (by simp [howner])).symm
  | some v =>
    simp only
    cases hfind : Keyed.find? Fact.id id (d.drawer v) with
    | none =>
      exact absurd ((hd.owner id v).1 howner) ((Keyed.find?_eq_none_iff Fact.id).1 hfind)
    | some g =>
      simp only
      rw [drawer_change rfl]
      split
      · rfl
      · next hv => exact (hother (by simp [howner, hv])).symm

theorem owners_recordAccess (now : Time) (id : String) (d : Drawers) :
    (d.recordAccess now id).2.owners = d.owners := by
  obtain ⟨h, hr⟩ := rewrites_recordAccess now id d
  exact hr.owners

theorem Registered.sound (hd : Registered d) : Sound d where
  owner := hd.owner
  own := hd.own
  once f g hf hg hid := by
    have hget := hd.get?_eq_some_iff.2 ⟨hd.listed_iff.1 hf, hid⟩
    rw [hd.get?_eq_some_iff.2 ⟨hd.listed_iff.1 hg, rfl⟩] at hget
    exact (Option.some.inj hget).symm
  got id f := by rw [hd.get?_eq_some_iff, hd.listed_iff]
  used now id := by
    rw [recordAccess_eq, Option.isSome_iff_exists]
    simp only [hd.get?_eq_some_iff, hd.listed_iff]
  counted now id := ⟨owners_recordAccess now id d, hd.drawer_recordAccess now id⟩

/-! ### Runs -/

/-- The drawers after a request. -/
def after (d : Drawers) (e : Event) : Drawers := (d.respond e.world e.request).2

/-- The drawers after a list of requests. -/
def run (d : Drawers) (es : List Event) : Drawers := es.foldl after d

/-- What can be seen of a run. -/
def exchanges (d : Drawers) : List Event → List Exchange
  | [] => []
  | e :: es => ⟨e.world.now, e.request, (d.respond e.world e.request).1⟩ :: (d.after e).exchanges es

theorem run_concat (d : Drawers) (es : List Event) (e : Event) :
    d.run (es ++ [e]) = (d.run es).after e := List.foldl_append

theorem Filed.exchanges (h : Filed d s) (es : List Event) : d.exchanges es = s.exchanges es := by
  induction es generalizing d s with
  | nil => rfl
  | cons e es ih =>
    obtain ⟨hresponse, hafter⟩ := h.respond e.world e.request
    simp only [Drawers.exchanges, FactStore.exchanges, FactStore.exchange, hresponse]
    exact congrArg _ (ih hafter)

/-- A run keeps the tables in step as long as no identifier is in two drawers. -/
theorem Registered.run {es : List Event} (hd : Registered d)
    (hchecked : ∀ e ∈ es, IsChecked e.request)
    (hsep : ∀ past, past <+: es → Separate (d.run past)) : Registered (d.run es) := by
  induction es using List.reverseRecOn with
  | nil => exact hd
  | append_singleton es e ih =>
    have hpast := ih (fun e' he => hchecked e' (List.mem_append_left _ he))
      fun past hpast => hsep past (hpast.trans (List.prefix_append es [e]))
    have hend := hsep (es ++ [e]) (List.prefix_refl _)
    rw [run_concat] at hend ⊢
    exact hpast.respond e.world (hchecked e (by simp)) hend

/-- The user has had a fact with the identifier at some time of a run. -/
def HasHeld (d : Drawers) (es : List Event) (user id : String) : Prop :=
  ∃ past, past <+: es ∧ id ∈ ((d.run past).drawer user).map Fact.id

/-- In every state of a run in which no identifier comes to two users, the register leads to the facts
in the drawers and to nothing else; and the drawers answer as the list of all facts does. -/
theorem run_indexed (minAccessCount : Int) (ttl : Duration) (minSimilarity : Float)
    (es : List Event) (hchecked : ∀ e ∈ es, IsChecked e.request)
    (hone : ∀ id user user', HasHeld { minAccessCount, ttl, minSimilarity } es user id →
      HasHeld { minAccessCount, ttl, minSimilarity } es user' id → user = user') :
    (∀ past, past <+: es → Sound (run { minAccessCount, ttl, minSimilarity } past)) ∧
      exchanges { minAccessCount, ttl, minSimilarity } es =
        FactStore.exchanges { minAccessCount, ttl, minSimilarity } es := by
  refine ⟨fun past hpast => ?_, (Filed.empty minAccessCount ttl minSimilarity).exchanges es⟩
  have hregistered : Registered (run { minAccessCount, ttl, minSimilarity } past) := by
    refine (Registered.empty minAccessCount ttl minSimilarity).run
      (fun e he => hchecked e (hpast.subset he)) fun past' hpast' id user user' hid hid' => ?_
    exact hone id user user' ⟨past', hpast'.trans hpast, hid⟩ ⟨past', hpast'.trans hpast, hid'⟩
  exact hregistered.sound

/-- Two users store facts; one offers the other's identifier with what is known already, and one
stores under an identifier again. -/
def errands : List Event := [
  ⟨{}, .store "ann" "c" [FactStore.learned "f1" "likes" "tea" 0.4,
    FactStore.learned "f2" "lives in" "Lisbon" 0.5]⟩,
  ⟨{ now := 1 }, .store "bob" "c" [FactStore.learned "g1" "likes" "tea" 0.4,
    FactStore.learned "f1" "Likes" "TEA" 0.8]⟩,
  ⟨{ now := 2 }, .store "ann" "d" [FactStore.learned "f1" "likes" "coffee" 0.7]⟩,
  ⟨{ now := 3 }, .recordAccess "ann" "f1"⟩,
  ⟨{ now := 4 }, .deleteUser "bob"⟩]

theorem mem_drawers_of_mem (h : f ∈ d.drawer user) : ∃ e ∈ d.drawers, e.1 = user ∧ f ∈ e.2 := by
  unfold drawer at h
  cases hfind : Keyed.find? Prod.fst user d.drawers with
  | none =>
    rw [hfind] at h
    cases h
  | some e =>
    rw [hfind] at h
    exact ⟨e, List.mem_of_find?_eq_some hfind, by simpa using List.find?_some hfind, h⟩

theorem run_errands :
    (∀ id user user', HasHeld {} errands user id → HasHeld {} errands user' id → user = user') ∧
      Sound (run {} errands) ∧
      ((run {} errands).get? "f1").map (fun f => (f.value, f.accessCount)) = some ("coffee", 2) ∧
      ((run {} errands).get? "g1").isNone = true := by
  have hnamed : ∀ past ∈ errands.inits, ∀ e ∈ (run {} past).drawers, ∀ f ∈ e.2,
      e.1 = if f.id = "g1" then "bob" else "ann" := by decide +kernel
  have howner : ∀ {id user : String}, HasHeld {} errands user id →
      user = if id = "g1" then "bob" else "ann" := by
    rintro id user ⟨past, hpast, hid⟩
    obtain ⟨f, hf, rfl⟩ := List.mem_map.1 hid
    obtain ⟨e, he, rfl, hfe⟩ := mem_drawers_of_mem hf
    exact hnamed past ((List.mem_inits _ _).2 hpast) e he f hfe
  have hone : ∀ id user user', HasHeld {} errands user id → HasHeld {} errands user' id →
      user = user' := fun id user user' h h' => (howner h).trans (howner h').symm
  have hchecked : ∀ e ∈ errands, IsChecked e.request := by
    simp [errands, IsChecked]
  have hsound := (run_indexed 2 2592000000000 0.3 errands hchecked hone).1
  exact ⟨hone, hsound errands (List.prefix_refl _), by decide +kernel, by decide +kernel⟩

end TieredMemory.Drawers
