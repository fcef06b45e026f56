import Mathlib.Data.List.Forall2
import Mathlib.Data.List.Induction
import TieredMemory.Proofs.Isolation.Facts

/-!
# Runs of a fact store

A run is a list of requests, each of them in the world that it finds: the clock and the embedder may
be what they like every time. A request brings in facts, or it counts a use of some of the facts, or
it removes some facts of its user, and it does nothing else (`respond_cases`). Whatever identifiers
are offered in a run, if none of them is used twice, then no two stored facts share one
(`Known.run`).
-/

namespace TieredMemory

/-! ### From an offered fact to the stored one -/

/-- The second fact is the first one with an embedding, which is the old one if there was one. -/
structure Fact.Embedded (f g : Fact) : Prop where
  eq : g = { f with embedding := g.embedding }
  embedding : f.embedding.isSome = true → g.embedding = f.embedding

/-- The second fact is the first one as it is stored for a user. Its importance may have been raised,
an embedding may have been added, and it may have been used. -/
structure Fact.StoredAs (user : String) (f g : Fact) : Prop where
  eq : g = { f with
    user
    importance := g.importance
    embedding := g.embedding
    lastAccessed := g.lastAccessed
    accessCount := g.accessCount }
  embedding : f.embedding.isSome = true → g.embedding = f.embedding

section

variable {user : String} {f g : Fact}

theorem Fact.Embedded.refl (f : Fact) : f.Embedded f := ⟨rfl, fun _ => rfl⟩

theorem Fact.Embedded.id_eq (h : f.Embedded g) : g.id = f.id := by rw [h.eq]

theorem Fact.Embedded.pair_eq (h : f.Embedded g) : g.pair = f.pair := by rw [h.eq]; rfl

theorem Fact.Embedded.importance_eq (h : f.Embedded g) : g.importance = f.importance := by
  rw [h.eq]

/-- Storing an embedded fact. -/
theorem Fact.Embedded.storedAs (h : f.Embedded g) (user : String) :
    f.StoredAs user { g with user } where
  eq := by rw [h.eq]
  embedding := h.embedding

theorem Fact.StoredAs.id_eq (h : f.StoredAs user g) : g.id = f.id := by rw [h.eq]

theorem Fact.StoredAs.user_eq (h : f.StoredAs user g) : g.user = user := by rw [h.eq]

theorem Fact.StoredAs.raisedAt (h : f.StoredAs user g) (a : String × String) (x : Float) :
    f.StoredAs user (FactStore.raisedAt a x g) := by
  unfold FactStore.raisedAt
  split
  · exact ⟨by rw [h.eq], h.embedding⟩
  · exact h

theorem Fact.StoredAs.recordAccess (h : f.StoredAs user g) (now : Time) :
    f.StoredAs user (g.recordAccess now) where
  eq := by
    unfold Fact.recordAccess
    rw [h.eq]
  embedding := h.embedding

end

namespace FactStore

theorem embedded_embedAll (user : String) (fs : List Fact) (w : World) :
    List.Forall₂ Fact.Embedded fs (embedAll user fs w).1 := by
  induction fs generalizing w with
  | nil => exact .nil
  | cons f r ih =>
    simp only [embedAll]
    refine .cons ?_ (ih _)
    cases h : f.embedding with
    | some e => exact .refl f
    | none =>
      refine ⟨rfl, fun hsome => ?_⟩
      rw [h] at hsome
      cases hsome

/-! ### Requests -/

/-- The facts that a request brings in. A request for a place that is not valid is refused. -/
def Request.offered : Request → List Fact
  | store user conversation facts => if (checkPlace user conversation).isOk then facts else []
  | insertAll _ facts => facts
  | _ => []

/-- Facts may be gone afterwards. -/
def Request.isRemoval : Request → Bool
  | prune _ => true
  | deleteUser _ => true
  | _ => false

/-- How many facts were stored. -/
def Response.count : Response → Nat
  | stored (.ok n) => n
  | _ => 0

/-- The identifiers of the facts that a search found, or of the fact that was said to be used. -/
def Request.uses : Request → Response → List String
  | search .., .found (.ok facts) => facts.map Fact.id
  | find .., .found (.ok facts) => facts.map Fact.id
  | recordAccess _ id, .used true => [id]
  | _, _ => []

/-- A use of the facts with the identifiers is counted. -/
def counted (now : Time) (ids : List String) (s : FactStore) : FactStore :=
  { s with facts := s.facts.map fun f => if f.id ∈ ids then f.recordAccess now else f }

variable {s : FactStore} {user : String} {f g : Fact}

theorem ofUser_counted (now : Time) (ids : List String) (v : String) :
    (s.counted now ids).ofUser v =
      (s.ofUser v).map fun f => if f.id ∈ ids then f.recordAccess now else f := by
  unfold counted ofUser
  rw [List.filter_map]
  congr 2
  funext f
  simp only [Function.comp]
  split <;> rfl

theorem counted_nil (now : Time) (s : FactStore) : s.counted now [] = s := by
  simp [counted]

/-- Facts with distinct identifiers are told apart by these. -/
theorem eq_of_id (hids : (s.facts.map Fact.id).Nodup) (hf : f ∈ s.facts) (hg : g ∈ s.facts)
    (hid : f.id = g.id) : f = g :=
  List.inj_on_of_nodup_map hids hf hg hid

theorem mem_facts_of_mem_matching {query : String} {embedding : Option Embedding}
    (h : f ∈ s.matching user query embedding) : f ∈ s.ofUser user := by
  obtain ⟨p, hp, rfl⟩ := List.mem_map.1 h
  have hscored := (List.mem_filter.1 ((List.mergeSort_perm _ _).mem_iff.1 hp)).1
  obtain ⟨f, hf, rfl⟩ := List.mem_map.1 hscored
  exact hf

/-- A search counts a use of what it finds. -/
theorem find_eq_counted (hids : (s.facts.map Fact.id).Nodup) (now : Time) (user query : String)
    (embedding : Option Embedding) (n : Nat) :
    (s.find now user query embedding n).2 =
        s.counted now ((s.find now user query embedding n).1.map Fact.id) ∧
      (s.find now user query embedding n).1.map Fact.id ⊆ s.facts.map Fact.id := by
  have hfound : (s.find now user query embedding n).1.map Fact.id =
      ((s.matching user query embedding).take n).map Fact.id := by
    simp only [find, List.map_map]
    rfl
  have hmine : ∀ f ∈ (s.matching user query embedding).take n, f ∈ s.facts ∧ f.user = user :=
    fun f hf => user_of_mem_ofUser (mem_facts_of_mem_matching (List.mem_of_mem_take hf))
  rw [hfound]
  constructor
  · simp only [find, recordUses, counted]
    congr 1
    refine List.map_congr_left fun f hf => ?_
    have hiff : f.user = user ∧ f.id ∈ ((s.matching user query embedding).take n).map Fact.id ↔
        f.id ∈ ((s.matching user query embedding).take n).map Fact.id := by
      refine ⟨And.right, fun hid => ⟨?_, hid⟩⟩
      obtain ⟨g, hg, hgf⟩ := List.mem_map.1 hid
      obtain ⟨hgs, hgu⟩ := hmine g hg
      rw [← eq_of_id hids hgs hf hgf, hgu]
    simp only [hiff]
  · intro id hid
    obtain ⟨f, hf, rfl⟩ := List.mem_map.1 hid
    exact List.mem_map_of_mem (hmine f hf).1

/-- What is said to be used has a use counted. -/
theorem recordAccess_eq_counted (hids : (s.facts.map Fact.id).Nodup) (now : Time) (id : String) :
    (s.recordAccess now id).2 = s.counted now (if (s.recordAccess now id).1 then [id] else []) ∧
      (if (s.recordAccess now id).1 then [id] else []) ⊆ s.facts.map Fact.id := by
  unfold FactStore.recordAccess
  cases hget : s.get? id with
  | none => exact ⟨(counted_nil now s).symm, by simp⟩
  | some f =>
    obtain ⟨hmem, rfl⟩ := address_of_get? hget
    constructor
    · simp only [counted, Keyed.update, if_true, List.mem_singleton]
      congr 1
      refine List.map_congr_left fun g hg => ?_
      have hiff : address g = address f ↔ g.id = f.id :=
        ⟨congrArg Prod.snd, fun hid => congrArg address (eq_of_id hids hg hmem hid)⟩
      simp only [hiff]
    · simpa using ⟨f, hmem, rfl⟩

/-- Facts for a valid place are embedded and stored. -/
theorem respond_store_of_isOk (w : World) (user conversation : String) (fs : List Fact)
    (hplace : (checkPlace user conversation).isOk = true) :
    s.respond w (.store user conversation fs) =
      s.respond w (.insertAll user (embedAll user fs w).1) := by
  cases hp : checkPlace user conversation with
  | error why =>
    rw [hp] at hplace
    cases hplace
  | ok p =>
    obtain ⟨rfl, -⟩ := checkPlace_inv hp
    simp only [respond, store, hp, bind, Except.bind, pure, Except.pure]

/-- **A request brings in facts, counts uses, or removes facts of its user.** -/
theorem respond_cases (w : World) (r : Request) (hids : (s.facts.map Fact.id).Nodup) :
    (∃ fs, List.Forall₂ Fact.Embedded r.offered fs ∧
      (s.respond w r).2 = (s.insertAll r.user fs).2 ∧
      (s.respond w r).1.count = (s.insertAll r.user fs).1 ∧
      r.uses (s.respond w r).1 = []) ∨
    (r.offered = [] ∧ (s.respond w r).1.count = 0 ∧
      (s.respond w r).2 = s.counted w.now (r.uses (s.respond w r).1) ∧
      r.uses (s.respond w r).1 ⊆ s.facts.map Fact.id) ∨
    (r.offered = [] ∧ r.isRemoval = true ∧ r.uses (s.respond w r).1 = [] ∧
      ∃ p, (s.respond w r).2 = s.without r.user p ∧
        (p = Fact.isStale s.ttl s.minAccessCount w.now ∨ r = .deleteUser r.user)) := by
  have hidle : ∀ {r : Request} {a : Response}, r.offered = [] → a.count = 0 → r.uses a = [] →
      s.respond w r = (a, s) → r.offered = [] ∧ (s.respond w r).1.count = 0 ∧
        (s.respond w r).2 = s.counted w.now (r.uses (s.respond w r).1) ∧
        r.uses (s.respond w r).1 ⊆ s.facts.map Fact.id := by
    intro r a hoffered hcount huses hrespond
    rw [hrespond, huses, counted_nil]
    exact ⟨hoffered, hcount, rfl, List.nil_subset _⟩
  cases r with
  | store v conversation fs =>
    left
    cases hp : checkPlace v conversation with
    | error why =>
      have hoffered : (Request.store v conversation fs).offered = [] := by
        simp [Request.offered, hp, Except.isOk, Except.toBool]
      rw [hoffered]
      refine ⟨[], .nil, ?_⟩
      simp only [respond, store, hp, bind, Except.bind]
      exact ⟨rfl, rfl, rfl⟩
    | ok p =>
      have hoffered : (Request.store v conversation fs).offered = fs := by
        simp [Request.offered, hp, Except.isOk, Except.toBool]
      rw [hoffered, respond_store_of_isOk w v conversation fs (by rw [hp]; rfl)]
      exact ⟨_, embedded_embedAll v fs w, rfl, rfl, rfl⟩
  | insertAll v fs => exact .inl ⟨fs, List.forall₂_same.2 fun f _ => .refl f, rfl, rfl, rfl⟩
  | search v query limit =>
    refine .inr (.inl ?_)
    rcases respond_search w v query limit with ⟨why, hrespond⟩ | ⟨embedding, n, hrespond⟩
    · exact hidle rfl rfl rfl (hrespond s)
    · by_cases hnone : ((s.ofUser v).isEmpty || n = 0) = true
      · exact hidle rfl rfl rfl ((hrespond s).trans (if_pos hnone))
      · rw [hrespond, if_neg hnone]
        exact ⟨rfl, rfl, find_eq_counted hids w.now v query embedding n⟩
  | find v query embedding n =>
    exact .inr (.inl ⟨rfl, rfl, find_eq_counted hids w.now v query embedding n⟩)
  | recordAccess v id =>
    refine .inr (.inl ⟨rfl, rfl, ?_⟩)
    have huses : (Request.recordAccess v id).uses (s.respond w (.recordAccess v id)).1 =
        if (s.recordAccess w.now id).1 then [id] else [] := by
      simp only [respond]
      cases (s.recordAccess w.now id).1 <;> rfl
    rw [huses]
    exact recordAccess_eq_counted hids w.now id
  | get v id => exact .inr (.inl (hidle rfl rfl rfl rfl))
  | list v => exact .inr (.inl (hidle rfl rfl rfl rfl))
  | prune v => exact .inr (.inr ⟨rfl, rfl, rfl, _, rfl, .inl rfl⟩)
  | deleteUser v =>
    refine .inr (.inr ⟨rfl, rfl, rfl, fun _ => true, ?_, .inr rfl⟩)
    simp only [respond, deleteUser_eq]
    rfl

/-! ### Storing under new identifiers -/

/-- A fact with a new identifier raises one with its pair, or it comes after all others. -/
theorem insert_cases (user : String) (hnew : f.id ∉ s.facts.map Fact.id) :
    (∃ g ∈ s.ofUser user, g.pair = f.pair ∧
      s.insert user f = (false, s.raise (address g) f.importance)) ∨
    (∀ g ∈ s.ofUser user, g.pair ≠ f.pair) ∧ (s.insert user f).1 = true ∧
      (s.insert user f).2.facts = s.facts ++ [{ f with user }] := by
  unfold insert
  cases h : (s.ofUser user).find? fun g => agrees g f with
  | some g =>
    have hagrees := List.find?_some h
    exact .inl ⟨g, List.mem_of_find?_eq_some h, agrees_iff.1 hagrees, rfl⟩
  | none =>
    refine .inr ⟨fun g hg hpair => ?_, rfl, Keyed.put_of_notMem address ?_⟩
    · exact List.find?_eq_none.1 h g hg (agrees_iff.2 hpair)
    · intro hmem
      obtain ⟨g, hg, haddress⟩ := List.mem_map.1 hmem
      have hid : g.id = f.id := congrArg Prod.snd haddress
      exact hnew (hid ▸ List.mem_map_of_mem hg)

theorem notMem_of_nodup_concat {ids : List String} {id : String} (h : (ids ++ [id]).Nodup) :
    id ∉ ids :=
  fun hmem => (List.nodup_append.1 h).2.2 id hmem id (List.mem_singleton.2 rfl) rfl

/-- No two facts share an identifier, and all identifiers are among the given ones. -/
structure Known (ids : List String) (s : FactStore) : Prop where
  nodup : (s.facts.map Fact.id).Nodup
  subset : s.facts.map Fact.id ⊆ ids

namespace Known

variable {ids : List String}

theorem of_sublist {t : FactStore} (h : s.Known ids)
    (hsub : (t.facts.map Fact.id).Sublist (s.facts.map Fact.id)) : t.Known ids :=
  ⟨h.nodup.sublist hsub, List.Subset.trans hsub.subset h.subset⟩

theorem of_eq {t : FactStore} (h : s.Known ids)
    (hsame : t.facts.map Fact.id = s.facts.map Fact.id) : t.Known ids :=
  h.of_sublist (by rw [hsame])

theorem mono {ids' : List String} (h : s.Known ids) (hsub : ids ⊆ ids') : s.Known ids' :=
  ⟨h.nodup, List.Subset.trans h.subset hsub⟩

theorem insert (h : s.Known ids) (hnew : f.id ∉ ids) :
    (s.insert user f).2.Known (ids ++ [f.id]) := by
  have hold : f.id ∉ s.facts.map Fact.id := fun hmem => hnew (h.subset hmem)
  rcases insert_cases user hold with ⟨g, -, -, hinsert⟩ | ⟨-, -, hfacts⟩
  · have hsame : (s.insert user f).2.facts.map Fact.id = s.facts.map Fact.id := by
      have haddresses := congrArg (List.map Prod.snd) (s.map_address_raise (address g) f.importance)
      rw [hinsert]
      rwa [List.map_map, List.map_map] at haddresses
    exact (h.of_eq hsame).mono (List.subset_append_left _ _)
  · constructor
    · rw [hfacts, List.map_append, List.map_singleton]
      exact h.nodup.append (List.nodup_singleton _) (List.disjoint_singleton.2 hold)
    · rw [hfacts, List.map_append, List.map_singleton]
      exact List.append_subset.2
        ⟨List.Subset.trans h.subset (List.subset_append_left _ _), List.subset_append_right _ _⟩

theorem insertAll {fs : List Fact} (h : s.Known ids) (hids : (ids ++ fs.map Fact.id).Nodup) :
    (s.insertAll user fs).2.Known (ids ++ fs.map Fact.id) := by
  induction fs generalizing s ids with
  | nil => simpa [FactStore.insertAll] using h
  | cons f r ih =>
    rw [List.map_cons, List.append_cons] at hids ⊢
    exact ih (h.insert (notMem_of_nodup_concat hids.of_append_left)) hids

theorem counted (h : s.Known ids) (now : Time) (used : List String) :
    (s.counted now used).Known ids := by
  refine h.of_eq ?_
  simp only [FactStore.counted, List.map_map]
  refine List.map_congr_left fun f _ => ?_
  simp only [Function.comp]
  split <;> rfl

theorem without (h : s.Known ids) (user : String) (p : Fact → Bool) :
    (s.without user p).Known ids :=
  h.of_sublist (List.filter_sublist.map Fact.id)

end Known

/-! ### Runs -/

/-- A request in the world that it finds. -/
structure Event where
  world : World
  request : Request

/-- What can be seen of a request. -/
structure Exchange where
  time : Time
  request : Request
  response : Response

/-- The facts whose use an exchange shows. -/
def Exchange.uses (x : Exchange) : List String := x.request.uses x.response

/-- The store after a request. -/
def after (s : FactStore) (e : Event) : FactStore := (s.respond e.world e.request).2

/-- What can be seen of a request to the store. -/
def exchange (s : FactStore) (e : Event) : Exchange :=
  ⟨e.world.now, e.request, (s.respond e.world e.request).1⟩

/-- The store after a list of requests. -/
def run (s : FactStore) (es : List Event) : FactStore := es.foldl after s

/-- What can be seen of a run. -/
def exchanges (s : FactStore) : List Event → List Exchange
  | [] => []
  | e :: es => s.exchange e :: (s.after e).exchanges es

/-- The facts that a run brings in, whoever they are for. -/
def offers (es : List Event) : List Fact := es.flatMap fun e => e.request.offered

/-- The facts that a run brings in for a user. -/
def offersTo (user : String) (es : List Event) : List Fact :=
  es.flatMap fun e => if e.request.user = user then e.request.offered else []

theorem run_append (s : FactStore) (es es' : List Event) :
    s.run (es ++ es') = (s.run es).run es' := List.foldl_append

theorem run_concat (s : FactStore) (es : List Event) (e : Event) :
    s.run (es ++ [e]) = (s.run es).after e := run_append s es [e]

theorem exchanges_append (s : FactStore) (es es' : List Event) :
    s.exchanges (es ++ es') = s.exchanges es ++ (s.run es).exchanges es' := by
  induction es generalizing s with
  | nil => rfl
  | cons e r ih => exact congrArg (_ :: ·) (ih (s.after e))

theorem exchanges_concat (s : FactStore) (es : List Event) (e : Event) :
    s.exchanges (es ++ [e]) = s.exchanges es ++ [(s.run es).exchange e] :=
  exchanges_append s es [e]

theorem offers_append (es es' : List Event) : offers (es ++ es') = offers es ++ offers es' :=
  List.flatMap_append

theorem offers_concat (es : List Event) (e : Event) :
    offers (es ++ [e]) = offers es ++ e.request.offered := by
  simp [offers]

theorem offersTo_subset (user : String) (es : List Event) : offersTo user es ⊆ offers es := by
  intro f hf
  obtain ⟨e, he, hfe⟩ := List.mem_flatMap.1 hf
  refine List.mem_flatMap.2 ⟨e, he, ?_⟩
  split at hfe
  · exact hfe
  · cases hfe

theorem offersTo_concat (es : List Event) (e : Event) :
    offersTo user (es ++ [e]) =
      offersTo user es ++ if e.request.user = user then e.request.offered else [] := by
  simp [offersTo]

theorem exists_of_mem_embedded {fs fs' : List Fact} (h : List.Forall₂ Fact.Embedded fs fs')
    (hg : g ∈ fs') : ∃ f ∈ fs, f.Embedded g := by
  induction h with
  | nil => cases hg
  | @cons f g' r r' hf _ ih =>
    rcases List.mem_cons.1 hg with rfl | hg
    · exact ⟨f, List.mem_cons_self, hf⟩
    · obtain ⟨f', hf', hembedded⟩ := ih hg
      exact ⟨f', List.mem_cons_of_mem f hf', hembedded⟩

theorem map_id_of_embedded {fs fs' : List Fact} (h : List.Forall₂ Fact.Embedded fs fs') :
    fs'.map Fact.id = fs.map Fact.id := by
  induction h with
  | nil => rfl
  | cons hf _ ih => rw [List.map_cons, List.map_cons, hf.id_eq, ih]

theorem Known.after {ids : List String} (h : s.Known ids) {e : Event}
    (hids : (ids ++ e.request.offered.map Fact.id).Nodup) :
    (s.after e).Known (ids ++ e.request.offered.map Fact.id) := by
  unfold FactStore.after
  rcases respond_cases e.world e.request h.nodup with
    ⟨fs, hfs, hrespond, -⟩ | ⟨hoffered, -, hrespond, -⟩ | ⟨hoffered, -, -, p, hrespond, -⟩
  · rw [hrespond, ← map_id_of_embedded hfs]
    exact h.insertAll (map_id_of_embedded hfs ▸ hids)
  · rw [hrespond, hoffered]
    exact (h.counted _ _).mono (List.subset_append_left _ _)
  · rw [hrespond, hoffered]
    exact (h.without _ _).mono (List.subset_append_left _ _)

/-- **If no identifier is offered twice in a run of a new store, no two facts share one.** -/
theorem Known.run {es : List Event} (hnew : s.facts = []) (hids : ((offers es).map Fact.id).Nodup) :
    (s.run es).Known ((offers es).map Fact.id) := by
  induction es using List.reverseRecOn with
  | nil =>
    have hempty : s.facts.map Fact.id = [] := by rw [hnew]; rfl
    exact ⟨hempty ▸ List.nodup_nil, hempty ▸ List.nil_subset _⟩
  | append_singleton es e ih =>
    rw [offers_concat, List.map_append] at hids ⊢
    rw [run_concat]
    exact (ih hids.of_append_left).after hids

/-- A fact about which nothing matters but what it says and how important it is. -/
def learned (id key value : String) (importance : Float) : Fact where
  id := id
  user := ""
  conversation := "c"
  key := key
  value := value
  kind := .preference
  importance := importance
  embedding := none
  lastAccessed := 0
  accessCount := 1
  createdAt := 0

end FactStore

end TieredMemory
