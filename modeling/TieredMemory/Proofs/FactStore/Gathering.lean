import TieredMemory.Proofs.FactStore.Run

/-!
# What a store has gathered

Facts that agree in key and value, letter case aside, are one pair. In a run that takes nothing out of
a new store, whatever the batches in which facts come and whatever is searched, used, looked up or
listed in between, every pair is kept as the first fact that came with it, and once. Its importance
is the greatest of those that came with it. So the counts that are given back add up to the number of
facts, what is known already changes nothing when it comes again, and the importances are the same for
all batches and orders of the same facts (`run_gathers`).
-/

namespace TieredMemory.FactStore

variable {s s' : FactStore} {user : String} {f g : Fact} {ids : List String}
  {offered : String → List Fact}

/-- The pair of a fact with the importance that the fact gives it. -/
def weighed (f : Fact) : (String × String) × Float := (f.pair, f.importance)

/-- What has been offered, with some more for a user. -/
def more (user : String) (fs : List Fact) (offered : String → List Fact) (v : String) : List Fact :=
  offered v ++ if user = v then fs else []

theorem more_nil (user : String) (offered : String → List Fact) : more user [] offered = offered := by
  funext v
  simp [more]

theorem more_cons (user : String) (f : Fact) (fs : List Fact) (offered : String → List Fact) :
    more user (f :: fs) offered = more user fs (more user [f] offered) := by
  funext v
  by_cases hv : user = v <;> simp [more, hv]

/-! ### The first fact of a pair -/

/-- Every pair is kept as the first fact that was offered with it, and nothing else is kept. -/
def KeepsFirst (offered : String → List Fact) (s : FactStore) : Prop :=
  ∀ v k, Option.Rel (Fact.StoredAs v) (Keyed.find? Fact.pair k (offered v))
    (Keyed.find? Fact.pair k (s.ofUser v))

theorem rel_or {α β : Type} {r : α → β → Prop} {a a' : Option α} {b b' : Option β}
    (h : Option.Rel r a b) (h' : Option.Rel r a' b') : Option.Rel r (a.or a') (b.or b') := by
  cases h with
  | none => exact h'
  | some hr => exact .some hr

theorem find?_concat (k : String × String) (fs : List Fact) (f : Fact) :
    Keyed.find? Fact.pair k (fs ++ [f]) =
      (Keyed.find? Fact.pair k fs).or (if f.pair = k then some f else none) := by
  unfold Keyed.find?
  rw [List.find?_append]
  by_cases hk : f.pair = k <;> simp [hk]

/-- A pair that has been there keeps its first fact. -/
theorem find?_concat_of_mem {fs : List Fact} (hf : f.pair ∈ fs.map Fact.pair)
    (k : String × String) :
    Keyed.find? Fact.pair k (fs ++ [f]) = Keyed.find? Fact.pair k fs := by
  rw [find?_concat]
  cases hfind : Keyed.find? Fact.pair k fs with
  | some first => rfl
  | none =>
    have hne : f.pair ≠ k := by
      rintro rfl
      exact (Keyed.find?_eq_none_iff Fact.pair).1 hfind hf
    rw [if_neg hne, Option.none_or]

namespace KeepsFirst

/-- Changes that leave a stored fact the one that was offered. -/
theorem map (h : s.KeepsFirst offered) {change : Fact → Fact}
    (hof : ∀ v, s'.ofUser v = (s.ofUser v).map change)
    (hchange : ∀ v f g, Fact.StoredAs v f g → Fact.StoredAs v f (change g))
    (hpair : ∀ g, (change g).pair = g.pair) : s'.KeepsFirst offered := by
  intro v k
  rw [hof, Keyed.find?_map Fact.pair hpair]
  have hk := h v k
  generalize Keyed.find? Fact.pair k (offered v) = a at hk ⊢
  generalize Keyed.find? Fact.pair k (s.ofUser v) = b at hk ⊢
  cases hk with
  | none => exact .none
  | some hfg => exact .some (hchange v _ _ hfg)

/-- Only offered pairs are kept. -/
theorem pair_mem (h : s.KeepsFirst offered) (hg : g ∈ s.ofUser user) :
    g.pair ∈ (offered user).map Fact.pair := by
  by_contra hnone
  have hrel := h user g.pair
  rw [(Keyed.find?_eq_none_iff Fact.pair).2 hnone] at hrel
  cases hfind : Keyed.find? Fact.pair g.pair (s.ofUser user) with
  | none => exact (Keyed.find?_eq_none_iff Fact.pair).1 hfind (List.mem_map_of_mem hg)
  | some f =>
    rw [hfind] at hrel
    cases hrel

theorem insert {f₀ : Fact} (h : s.KeepsFirst offered) (hnew : f.id ∉ s.facts.map Fact.id)
    (hf : f₀.Embedded f) : (s.insert user f).2.KeepsFirst (more user [f₀] offered) := by
  intro v k
  unfold more
  rcases insert_cases user hnew with ⟨g, hg, hpair, hinsert⟩ | ⟨-, -, hfacts⟩
  -- a fact with the pair is there, so the new one is not the first
  · have hraised : (s.insert user f).2.KeepsFirst offered := by
      rw [hinsert]
      exact h.map (ofUser_raise (address g) f.importance)
        (fun _ _ _ hfg => hfg.raisedAt (address g) f.importance) (pair_raisedAt _ _)
    split
    · next hv =>
      subst hv
      have hmem : f₀.pair ∈ (offered user).map Fact.pair := by
        rw [← hf.pair_eq, ← hpair]
        exact h.pair_mem hg
      rw [find?_concat_of_mem hmem]
      exact hraised user k
    · rw [List.append_nil]
      exact hraised v k
  · have hof : (s.insert user f).2.ofUser v =
        s.ofUser v ++ if user = v then [{ f with user }] else [] := by
      rw [ofUser, hfacts, List.filter_append, ofUser]
      by_cases hv : user = v <;> simp [hv]
    rw [hof]
    split
    · next hv =>
      subst hv
      have hself : ({ f with user } : Fact).pair = f₀.pair := hf.pair_eq
      rw [find?_concat, find?_concat, hself]
      refine rel_or (h user k) ?_
      split
      · exact .some (hf.storedAs user)
      · exact .none
    · rw [List.append_nil, List.append_nil]
      exact h v k

theorem insertAll {fs₀ fs : List Fact} (h : s.KeepsFirst offered) (hknown : s.Known ids)
    (hids : (ids ++ fs.map Fact.id).Nodup) (hfs : List.Forall₂ Fact.Embedded fs₀ fs) :
    (s.insertAll user fs).2.KeepsFirst (more user fs₀ offered) := by
  induction hfs generalizing s ids offered with
  | nil => rwa [more_nil]
  | @cons f₀ f r₀ r hf _ ih =>
    rw [List.map_cons, List.append_cons] at hids
    have hnew := notMem_of_nodup_concat hids.of_append_left
    rw [more_cons]
    exact ih (h.insert (fun hmem => hnew (hknown.subset hmem)) hf) (hknown.insert hnew) hids

theorem counted (h : s.KeepsFirst offered) (now : Time) (used : List String) :
    (s.counted now used).KeepsFirst offered := by
  refine h.map (ofUser_counted now used) (fun v f g hfg => ?_) fun g => ?_
  · split
    · exact hfg.recordAccess now
    · exact hfg
  · split <;> rfl

end KeepsFirst

/-! ### The greatest importance of a pair -/

theorem map_weighed_of_embedded {fs fs' : List Fact} (h : List.Forall₂ Fact.Embedded fs fs') :
    fs'.map weighed = fs.map weighed := by
  induction h with
  | nil => rfl
  | cons hf _ ih =>
    rw [List.map_cons, List.map_cons, ih, weighed, weighed, hf.pair_eq, hf.importance_eq]

/-- The importances that have been offered for the pairs of each user. -/
def Weighs (offered : String → List Fact) (v : String) (k : String × String) (x : Float) : Prop :=
  (k, x) ∈ (offered v).map weighed

theorem weighs_more_iff {fs : List Fact} {v : String} {k : String × String} {x : Float} :
    Weighs (more user fs offered) v k x ↔
      Weighs offered v k x ∨ v = user ∧ ∃ f ∈ fs, f.pair = k ∧ f.importance = x := by
  unfold Weighs more
  by_cases hv : user = v
  · simp [hv, weighed]
  · simp [hv, Ne.symm hv]

/-- Counting uses changes neither what there is nor how important it is. -/
theorem Joins.counted {weighs : String → String × String → Float → Prop} (h : s.Joins weighs)
    (now : Time) (used : List String) : (s.counted now used).Joins weighs where
  distinct := by
    have hpair : ∀ g : Fact, (if g.id ∈ used then g.recordAccess now else g).pair = g.pair :=
      fun g => by split <;> rfl
    have haddress : ∀ g : Fact,
        address (if g.id ∈ used then g.recordAccess now else g) = address g :=
      fun g => by split <;> rfl
    constructor
    · simp only [FactStore.counted, List.map_map, Function.comp_def, haddress]
      exact h.distinct.addresses
    · intro v
      rw [ofUser_counted, List.map_map]
      simp only [Function.comp_def, hpair]
      exact h.distinct.pairs v
  numbers := h.numbers
  joins v k := by
    have hsame : (s.counted now used).importance? v k = s.importance? v k := by
      unfold importance?
      rw [ofUser_counted, Keyed.find?_map Fact.pair fun g => by split <;> rfl, Option.map_map]
      congr 1
      funext g
      simp only [Function.comp]
      split <;> rfl
    rw [hsame]
    exact h.joins v k

/-! ### Runs that take nothing out -/

/-- What a store keeps of what has been offered. -/
structure Gathered (offered : String → List Fact) (s : FactStore) : Prop where
  first : s.KeepsFirst offered
  joins : s.Joins (Weighs offered)

theorem Gathered.insertAll {fs₀ fs : List Fact} (h : s.Gathered offered) (hknown : s.Known ids)
    (hids : (ids ++ fs.map Fact.id).Nodup) (hfs : List.Forall₂ Fact.Embedded fs₀ fs)
    (hnumbers : ∀ f ∈ fs₀, f.importance.isNaN = false) :
    (s.insertAll user fs).2.Gathered (more user fs₀ offered) where
  first := h.first.insertAll hknown hids hfs
  joins := by
    obtain ⟨-, hnodup, hdisjoint⟩ := List.nodup_append.1 hids
    have hnew : ∀ f ∈ fs, (user, f.id) ∉ s.facts.map address := by
      intro f hf hmem
      obtain ⟨g, hg, haddress⟩ := List.mem_map.1 hmem
      have hid : g.id = f.id := congrArg Prod.snd haddress
      exact hdisjoint g.id (hknown.subset (List.mem_map_of_mem hg)) f.id (List.mem_map_of_mem hf) hid
    have hnan : ∀ f ∈ fs, f.importance.isNaN = false := by
      intro f hf
      obtain ⟨f₀, hf₀, hembedded⟩ := exists_of_mem_embedded hfs hf
      rw [hembedded.importance_eq]
      exact hnumbers f₀ hf₀
    refine (h.joins.insertAll hnodup hnew hnan).congr fun v k x => ?_
    rw [weighs_more_iff]
    have hmem : (∃ f ∈ fs, f.pair = k ∧ f.importance = x) ↔
        ∃ f ∈ fs₀, f.pair = k ∧ f.importance = x := by
      have hiff : (k, x) ∈ fs.map weighed ↔ (k, x) ∈ fs₀.map weighed := by
        rw [map_weighed_of_embedded hfs]
      simpa [weighed] using hiff
    rw [hmem]

/-! ### Counting what is stored -/

/-- How many facts a user was told to have stored. -/
def Exchange.storedFor (user : String) (x : Exchange) : Nat :=
  if x.request.user = user then x.response.count else 0

theorem length_insert (hnew : f.id ∉ s.facts.map Fact.id) (v : String) :
    ((s.insert user f).2.ofUser v).length =
      (s.ofUser v).length + if user = v ∧ (s.insert user f).1 = true then 1 else 0 := by
  rcases insert_cases user hnew with ⟨g, -, -, hinsert⟩ | ⟨-, hstored, hfacts⟩
  · rw [hinsert, ofUser_raise]
    simp
  · rw [hstored, ofUser, hfacts, List.filter_append, ofUser]
    by_cases hv : user = v <;> simp [hv]

theorem length_insertAll {fs : List Fact} (h : s.Known ids) (hids : (ids ++ fs.map Fact.id).Nodup)
    (v : String) :
    ((s.insertAll user fs).2.ofUser v).length =
      (s.ofUser v).length + if user = v then (s.insertAll user fs).1 else 0 := by
  induction fs generalizing s ids with
  | nil => simp [FactStore.insertAll]
  | cons f r ih =>
    rw [List.map_cons, List.append_cons] at hids
    have hnew := notMem_of_nodup_concat hids.of_append_left
    have hold : f.id ∉ s.facts.map Fact.id := fun hmem => hnew (h.subset hmem)
    simp only [FactStore.insertAll]
    rw [ih (h.insert hnew) hids, length_insert hold]
    by_cases hv : user = v
    · cases (s.insert user f).1 <;> simp [hv]
      omega
    · simp [hv]

/-! ### What is known comes again -/

/-- A fact that is at least as important is not raised. -/
theorem raise_of_le (haddresses : (s.facts.map address).Nodup) (hg : g ∈ s.facts) {x : Float}
    (hx : x ≤ g.importance) : s.raise (address g) x = s := by
  have hkeep : s.facts.map (raisedAt (address g) x) = s.facts := by
    refine (List.map_congr_left fun f hf => ?_).trans (List.map_id _)
    unfold raisedAt
    split
    · next hsame =>
      obtain rfl := List.inj_on_of_nodup_map haddresses hf hg hsame
      rw [Number.greatest_eq_left hx]
      rfl
    · rfl
  have hraise : s.raise (address g) x = { s with facts := s.facts.map (raisedAt (address g) x) } :=
    rfl
  rw [hraise, hkeep]

/-- Facts whose pairs are there and at least as important are not stored and change nothing. -/
theorem insertAll_of_known (h : s.Distinct) {fs : List Fact}
    (hfs : ∀ f ∈ fs, ∃ x, s.importance? user f.pair = some x ∧ f.importance ≤ x) :
    s.insertAll user fs = (0, s) := by
  induction fs with
  | nil => rfl
  | cons f r ih =>
    obtain ⟨⟨x, hx, hle⟩, hr⟩ := List.forall_mem_cons.1 hfs
    obtain ⟨g, hfind, rfl⟩ := Option.map_eq_some_iff.1 hx
    have hinsert : s.insert user f = (false, s) := by
      have hagrees : (s.ofUser user).find? (fun g => agrees g f) = some g := by
        rw [← hfind]
        unfold Keyed.find?
        congr 1
        funext g
        rw [Bool.eq_iff_iff, agrees_iff, decide_eq_true_iff]
      have hg := (user_of_mem_ofUser (List.mem_of_find?_eq_some hfind)).1
      simp only [FactStore.insert, hagrees, raise_of_le h.addresses hg hle]
    simp only [FactStore.insertAll, hinsert, ih hr]
    rfl

/-! ### Runs -/

/-- A run of a new store that takes nothing out of it, in which importances are numbers and no
identifier is offered twice. -/
structure Gathering (s : FactStore) (es : List Event) : Prop where
  new : s.facts = []
  keeps : ∀ e ∈ es, e.request.isRemoval = false
  ids : ((offers es).map Fact.id).Nodup
  numbers : ∀ f ∈ offers es, f.importance.isNaN = false

namespace Gathering

variable {es : List Event} {e : Event}

theorem of_concat (h : Gathering s (es ++ [e])) : Gathering s es where
  new := h.new
  keeps e he := h.keeps e (List.mem_append_left _ he)
  ids := by
    have hids := h.ids
    rw [offers_concat, List.map_append] at hids
    exact hids.of_append_left
  numbers f hf := h.numbers f (by rw [offers_concat]; exact List.mem_append_left _ hf)

theorem gathered (h : Gathering s es) :
    (s.run es).Gathered (offersTo · es) ∧
      ∀ v, ((s.exchanges es).map (Exchange.storedFor v)).sum = ((s.run es).ofUser v).length := by
  induction es using List.reverseRecOn with
  | nil =>
    have hnone : ∀ v, s.ofUser v = [] := by simp [ofUser, h.new]
    have hno : ∀ v k x, ¬ Weighs (offersTo · []) v k x := by
      intro v k x hmem
      cases hmem
    refine ⟨⟨fun v k => ?_, ⟨⟨?_, fun v => ?_⟩, fun v k x hx => absurd hx (hno v k x),
      fun v k => ?_⟩⟩, fun v => ?_⟩
    · rw [run, List.foldl_nil, hnone]
      exact .none
    · rw [run, List.foldl_nil, h.new]
      exact List.nodup_nil
    · rw [run, List.foldl_nil, hnone]
      exact List.nodup_nil
    · have hnothing : (s.run []).importance? v k = none := by
        simp [run, importance?, hnone, Keyed.find?]
      rw [hnothing]
      exact {
        isSome := fun x hx => absurd hx (hno v k x)
        mem := fun x hx => by cases hx
        greatest := fun x y hx => by cases hx }
    · rw [run, List.foldl_nil, hnone]
      rfl
  | append_singleton es e ih =>
    have hids := h.ids
    rw [offers_concat, List.map_append] at hids
    obtain ⟨hgathered, hcount⟩ := ih h.of_concat
    have hknown := Known.run h.new hids.of_append_left
    have hoffered : (offersTo · (es ++ [e])) =
        more e.request.user e.request.offered (offersTo · es) := by
      funext v
      exact offersTo_concat es e
    have hsum : ∀ v, ((s.exchanges (es ++ [e])).map (Exchange.storedFor v)).sum =
        ((s.run es).ofUser v).length + ((s.run es).exchange e).storedFor v := by
      intro v
      rw [exchanges_concat, List.map_append, List.sum_append, hcount]
      rfl
    rw [run_concat, hoffered]
    simp only [hsum]
    unfold FactStore.after Exchange.storedFor exchange
    rcases respond_cases e.world e.request hknown.nodup with
      ⟨fs, hfs, hrespond, hresponse, -⟩ | ⟨hnone, hresponse, hrespond, -⟩ | ⟨-, hremoval, -⟩
    · rw [hrespond, hresponse]
      rw [← map_id_of_embedded hfs] at hids
      have hnumbers : ∀ f ∈ e.request.offered, f.importance.isNaN = false := fun f hf =>
        h.numbers f (by rw [offers_concat]; exact List.mem_append_right _ hf)
      exact ⟨hgathered.insertAll hknown hids hfs hnumbers,
        fun v => (length_insertAll hknown hids v).symm⟩
    · rw [hrespond, hresponse, hnone, more_nil]
      refine ⟨⟨hgathered.first.counted _ _, hgathered.joins.counted _ _⟩, fun v => ?_⟩
      rw [ofUser_counted, List.length_map, ite_self, Nat.add_zero]
    · rw [h.keeps e (List.mem_append_right _ (List.mem_singleton.2 rfl))] at hremoval
      cases hremoval

end Gathering

/-- What a user's facts in a store are, after facts have been offered. -/
structure Represents (user : String) (offered : List Fact) (s : FactStore) : Prop where
  /-- No two facts agree in key and value, letter case aside. -/
  pairs : ((s.ofUser user).map Fact.pair).Nodup
  /-- What is stored with a pair is the first fact that was offered with it, and nothing is stored
  with a pair that was not offered. -/
  first : ∀ k, Option.Rel (Fact.StoredAs user) (Keyed.find? Fact.pair k offered)
    (Keyed.find? Fact.pair k (s.ofUser user))
  /-- The importance of a pair is the greatest that was offered with it. -/
  greatest : ∀ k, IsJoin (fun x => (k, x) ∈ offered.map weighed) (s.importance? user k)

theorem Gathering.represents {es : List Event} (h : Gathering s es) (user : String) :
    (s.run es).Represents user (offersTo user es) where
  pairs := h.gathered.1.joins.distinct.pairs user
  first := h.gathered.1.first user
  greatest := h.gathered.1.joins.joins user

/-- A fact that agrees with an offered or a stored one is known, with at least the importance. -/
theorem Represents.known {offered : List Fact} (h : s.Represents user offered)
    (hg : g ∈ offered ++ s.ofUser user) (hpair : g.pair = f.pair)
    (hle : f.importance ≤ g.importance) :
    ∃ x, s.importance? user f.pair = some x ∧ f.importance ≤ x := by
  rcases List.mem_append.1 hg with hoffered | hstored
  · have hmem : (f.pair, g.importance) ∈ offered.map weighed :=
      hpair ▸ List.mem_map_of_mem hoffered
    obtain ⟨x, hx⟩ := Option.isSome_iff_exists.1 ((h.greatest f.pair).isSome g.importance hmem)
    exact ⟨x, hx, Number.le_trans hle ((h.greatest f.pair).greatest x g.importance hx hmem)⟩
  · refine ⟨g.importance, ?_, hle⟩
    have hfind := (Keyed.find?_eq_some_iff Fact.pair h.pairs).2 ⟨hstored, hpair⟩
    rw [importance?, hfind]
    rfl

/-- Both are the greatest of the same numbers, so they are equal as numbers. -/
theorem beq_of_isJoin {among : Float → Prop} {o o' : Option Float} (h : IsJoin among o)
    (h' : IsJoin among o') : (o == o') = true := by
  cases o with
  | none =>
    cases o' with
    | none => rfl
    | some y => exact absurd (h.isSome y (h'.mem y rfl)) (by simp)
  | some x =>
    cases o' with
    | none => exact absurd (h'.isSome x (h.mem x rfl)) (by simp)
    | some y =>
      have hyx : y ≤ x := h.greatest x y rfl (h'.mem y rfl)
      have hxy : x ≤ y := h'.greatest y x rfl (h.mem x rfl)
      obtain ⟨hx, hy⟩ := Number.isNaN_eq_false_of_le hxy
      refine (Number.beq_iff_rank_eq hx hy).2 (le_antisymm ?_ ?_)
      · exact (Number.le_iff_rank_le hx hy).1 hxy
      · exact (Number.le_iff_rank_le hy hx).1 hyx

/-- A run that only brings in facts and reads them leaves every pair once, as the first fact that
came with it and with the greatest importance that came with it, and the counts that it gave back add
up to what is stored. Facts that agree with offered or stored ones and are not more important change
nothing when they are stored again. And another run in which the same pairs came with the same
importances, in whatever batches and order, leaves equal importances. -/
theorem run_gathers {s : FactStore} {es : List Event} (h : Gathering s es) (user : String) :
    (s.run es).Represents user (offersTo user es) ∧
    ((s.exchanges es).map (Exchange.storedFor user)).sum = ((s.run es).ofUser user).length ∧
    (∀ w conversation fs, (checkPlace user conversation).isOk = true →
      (∀ f ∈ fs, ∃ g ∈ offersTo user es ++ (s.run es).ofUser user,
        g.pair = f.pair ∧ f.importance ≤ g.importance) →
      (s.run es).respond w (.store user conversation fs) = (.stored (.ok 0), s.run es)) ∧
    ∀ s' es', Gathering s' es' →
      ((offersTo user es').map weighed).Perm ((offersTo user es).map weighed) →
      ∀ k, ((s'.run es').importance? user k == (s.run es).importance? user k) = true := by
  have hrep := h.represents user
  refine ⟨hrep, h.gathered.2 user, fun w conversation fs hplace hfs => ?_,
    fun s' es' h' hperm k => ?_⟩
  · have hknown : ∀ f ∈ (embedAll user fs w).1,
        ∃ x, (s.run es).importance? user f.pair = some x ∧ f.importance ≤ x := by
      intro f hf
      obtain ⟨f₀, hf₀, hembedded⟩ := exists_of_mem_embedded (embedded_embedAll user fs w) hf
      obtain ⟨g, hg, hpair, hle⟩ := hfs f₀ hf₀
      exact hrep.known hg (hpair.trans hembedded.pair_eq.symm) (hembedded.importance_eq ▸ hle)
    have hinsert := insertAll_of_known h.gathered.1.joins.distinct hknown
    rw [respond_store_of_isOk w user conversation fs hplace]
    simp only [respond, hinsert]
  · refine beq_of_isJoin ((h'.represents user).greatest k) ((hrep.greatest k).congr fun x => ?_)
    exact hperm.mem_iff.symm

/-- The same said twice in one batch and once more later, with reading in between. -/
def tellings : List Event := [
  ⟨{}, .store "u" "c" [learned "f1" "likes" "tea" 0.4, learned "f2" "Likes" "TEA" 0.8,
    learned "f3" "lives in" "Lisbon" 0.5]⟩,
  ⟨{ now := 1 }, .search "u" "tea" 5⟩,
  ⟨{ now := 2 }, .recordAccess "u" "f1"⟩,
  ⟨{ now := 3 }, .store "u" "d" [learned "f4" "LIKES" "tea" 0.6]⟩,
  ⟨{ now := 4 }, .list "u"⟩]

/-- The same in one batch and in another order. -/
def retellings : List Event := [
  ⟨{}, .store "u" "c" [learned "g1" "likes" "Tea" 0.8, learned "g2" "Lives in" "Lisbon" 0.5,
    learned "g3" "likes" "tea" 0.6, learned "g4" "likes" "tea" 0.4]⟩]

theorem run_tellings :
    (Gathering {} tellings ∧ Gathering {} retellings) ∧
    (((({} : FactStore).run tellings).ofUser "u").map fun f => (f.id, f.importance)) =
      [("f1", 0.8), ("f3", 0.5)] ∧
    ((({} : FactStore).exchanges tellings).map (Exchange.storedFor "u")).sum = 2 ∧
    (({} : FactStore).run tellings).Represents "u" (offersTo "u" tellings) ∧
    (({} : FactStore).run tellings).respond { now := 5 }
        (.store "u" "e" [learned "f5" "likes" "TEA" 0.7]) =
      (.stored (.ok 0), ({} : FactStore).run tellings) ∧
    ((({} : FactStore).run retellings).importance? "u" ("likes", "tea") ==
      (({} : FactStore).run tellings).importance? "u" ("likes", "tea")) = true := by
  have hold : Gathering {} tellings :=
    ⟨rfl, by decide, by decide +kernel, by decide +kernel⟩
  have hnew : Gathering {} retellings :=
    ⟨rfl, by decide, by decide +kernel, by decide +kernel⟩
  have hstored : (((({} : FactStore).run tellings).ofUser "u").map fun f =>
      (f.id, f.importance)) = [("f1", 0.8), ("f3", 0.5)] := by decide +kernel
  obtain ⟨hrep, hcount, hagain, hother⟩ := run_gathers hold "u"
  have hknown : ∀ f ∈ [learned "f5" "likes" "TEA" 0.7],
      ∃ g ∈ offersTo "u" tellings ++ (({} : FactStore).run tellings).ofUser "u",
        g.pair = f.pair ∧ f.importance ≤ g.importance := by
    intro f hf
    have hplace : (checkPlace "u" "c").isOk = true := by decide +kernel
    have hoffered : learned "f2" "Likes" "TEA" 0.8 ∈ offersTo "u" tellings := by
      simp [offersTo, tellings, Request.user, Request.offered, hplace]
    rw [List.mem_singleton.1 hf]
    exact ⟨_, List.mem_append_left _ hoffered, by decide +kernel, by decide +kernel⟩
  have hperm : ((offersTo "u" retellings).map weighed).Perm
      ((offersTo "u" tellings).map weighed) := by decide +kernel
  have htwo : ((({} : FactStore).run tellings).ofUser "u").length = 2 := by decide +kernel
  exact ⟨⟨hold, hnew⟩, hstored, hcount.trans htwo, hrep,
    hagain { now := 5 } "e" _ (by decide +kernel) hknown, hother {} retellings hnew hperm _⟩

end TieredMemory.FactStore
