import TieredMemory.FactStore
import TieredMemory.Proofs.Keyed
import TieredMemory.Proofs.Number.Order

/-!
# Storing joins

What a user's facts say is a map: from the key and the value of a fact, both in lower case, to an
importance. Storing a fact under a new identifier changes this map at one pair only, where it takes
the greater of the importance that was there and the new one. So after facts have been stored in
any order, each pair has the greatest importance with which it was stored (`joins_insertAll`).
-/

namespace TieredMemory

/-- The key and the value in lower case. -/
def Fact.pair (f : Fact) : String × String := (Text.lower f.key, Text.lower f.value)

/-! ### The greatest of some numbers -/

/-- The outcome is the greatest of the numbers, and none only if there are none. -/
structure IsJoin (among : Float → Prop) (o : Option Float) : Prop where
  isSome : ∀ x, among x → o.isSome = true
  mem : ∀ x, o = some x → among x
  greatest : ∀ x y, o = some x → among y → y ≤ x

/-- The greater of what there is and another number. -/
def joined (y : Float) : Option Float → Float
  | none => y
  | some x => greatest x y

namespace IsJoin

variable {among among' : Float → Prop} {o o' : Option Float}

theorem congr (hiff : ∀ x, among x ↔ among' x) (h : IsJoin among o) : IsJoin among' o := by
  obtain rfl : among = among' := funext fun x => propext (hiff x)
  exact h

theorem insert {y : Float} (h : IsJoin among o) (hnan : ∀ x, among x → x.isNaN = false)
    (hy : y.isNaN = false) : IsJoin (fun x => among x ∨ x = y) (some (joined y o)) where
  isSome _ _ := rfl
  mem := by
    rintro _ ⟨⟩
    cases o with
    | none => exact .inr rfl
    | some x =>
      simp only [joined, TieredMemory.greatest]
      split
      · exact .inr rfl
      · exact .inl (h.mem x rfl)
  greatest := by
    rintro _ z ⟨⟩ hz
    cases o with
    | none =>
      rcases hz with hz | rfl
      · exact absurd (h.isSome z hz) (by simp)
      · exact Number.le_refl hy
    | some x =>
      have hx := hnan x (h.mem x rfl)
      rcases hz with hz | rfl
      · exact Number.le_trans (h.greatest x z rfl hz) (Number.le_greatest_left hx hy)
      · exact Number.le_greatest_right hx hy

/-- Where numbers that are not apart are equal, there is one greatest number. -/
theorem eq (h : IsJoin among o) (h' : IsJoin among o')
    (hanti : ∀ x y, among x → among y → x ≤ y → y ≤ x → x = y) : o = o' := by
  have hle : ∀ {o o' : Option Float}, IsJoin among o → IsJoin among o' → ∀ x, o = some x →
      o' = some x := by
    intro o o' h h' x hx
    have hmem := h.mem x hx
    obtain ⟨y, hy⟩ := Option.isSome_iff_exists.1 (h'.isSome x hmem)
    rw [hy, hanti x y hmem (h'.mem y hy) (h'.greatest y x hy hmem)
      (h.greatest x y hx (h'.mem y hy))]
  exact Option.ext fun x => ⟨hle h h' x, hle h' h x⟩

end IsJoin

namespace FactStore

variable {user v : String} {s : FactStore} {f g : Fact} {k : String × String}

/-! ### What the facts say -/

/-- The importance of a pair among the user's facts. -/
def importance? (s : FactStore) (user : String) (k : String × String) : Option Float :=
  (Keyed.find? Fact.pair k (s.ofUser user)).map Fact.importance

/-- No two facts are at one address, and no two of a user have one pair. -/
structure Distinct (s : FactStore) : Prop where
  addresses : (s.facts.map address).Nodup
  pairs : ∀ user, ((s.ofUser user).map Fact.pair).Nodup

theorem agrees_iff : agrees f g = true ↔ f.pair = g.pair := by
  simp [agrees, Fact.pair]

theorem user_of_mem_ofUser (h : f ∈ s.ofUser user) : f ∈ s.facts ∧ f.user = user := by
  simpa [ofUser] using h

/-! ### Storing one fact -/

/-- The fact with its importance raised if it is at the address. -/
def raisedAt (a : String × String) (x : Float) (f : Fact) : Fact :=
  if address f = a then { f with importance := greatest f.importance x } else f

theorem pair_raisedAt (a : String × String) (x : Float) (f : Fact) :
    (raisedAt a x f).pair = f.pair := by
  unfold raisedAt
  split <;> rfl

theorem map_address_raise (a : String × String) (x : Float) :
    (s.raise a x).facts.map address = s.facts.map address :=
  Keyed.map_update address (f := fun g => { g with importance := greatest g.importance x })
    (fun _ => rfl) a s.facts

theorem ofUser_raise (a : String × String) (x : Float) (v : String) :
    (s.raise a x).ofUser v = (s.ofUser v).map (raisedAt a x) := by
  have hfilter : (s.raise a x).ofUser v = (s.facts.map (raisedAt a x)).filter (·.user == v) := rfl
  rw [hfilter, List.filter_map, ofUser]
  congr 2
  funext g
  simp only [Function.comp, raisedAt]
  split <;> rfl

theorem filter_put_of_notMem (hnew : address f ∉ s.facts.map address) (v : String) :
    (Keyed.put address f s.facts).filter (fun g => g.user == v) =
      if f.user = v then s.ofUser v ++ [f] else s.ofUser v := by
  rw [Keyed.put_of_notMem address hnew, List.filter_append]
  by_cases hv : f.user = v <;> simp [hv, ofUser]

/-- A fact with a new identifier raises the one with its pair, or it comes after all others. -/
theorem insert_inv (hnew : (user, f.id) ∉ s.facts.map address) :
    (∃ g ∈ s.ofUser user, Keyed.find? Fact.pair f.pair (s.ofUser user) = some g ∧
      (∀ v, (s.insert user f).2.ofUser v =
        (s.ofUser v).map (raisedAt (address g) f.importance)) ∧
      (s.insert user f).2.facts.map address = s.facts.map address) ∨
    (Keyed.find? Fact.pair f.pair (s.ofUser user) = none ∧
      (∀ v, (s.insert user f).2.ofUser v =
        if user = v then s.ofUser v ++ [{ f with user }] else s.ofUser v) ∧
      (s.insert user f).2.facts.map address = s.facts.map address ++ [(user, f.id)]) := by
  have hfind : (s.ofUser user).find? (fun g => agrees g f) =
      Keyed.find? Fact.pair f.pair (s.ofUser user) := by
    unfold Keyed.find?
    congr 1
    funext g
    rw [Bool.eq_iff_iff, agrees_iff, decide_eq_true_iff]
  unfold insert
  rw [hfind]
  cases h : Keyed.find? Fact.pair f.pair (s.ofUser user) with
  | some g =>
    exact .inl ⟨g, List.mem_of_find?_eq_some h, rfl, ofUser_raise _ _, map_address_raise _ _⟩
  | none =>
    refine .inr ⟨rfl, filter_put_of_notMem (f := { f with user }) hnew, ?_⟩
    have hput := Keyed.put_of_notMem address (a := { f with user }) hnew
    simp only [hput, List.map_append, List.map_singleton]
    rfl

/-- Storing a fact under a new identifier joins its importance to what its pair has. -/
theorem Distinct.importance?_insert (h : s.Distinct) (hnew : (user, f.id) ∉ s.facts.map address)
    (v : String) (k : String × String) :
    (s.insert user f).2.importance? v k =
      if v = user ∧ k = f.pair then some (joined f.importance (s.importance? user f.pair))
      else s.importance? v k := by
  rcases insert_inv hnew with ⟨g, hg, hfind, hof, -⟩ | ⟨hfind, hof, -⟩
  · obtain ⟨hgs, hgu⟩ := user_of_mem_ofUser hg
    have hgpair : g.pair = f.pair := by simpa using List.find?_some hfind
    simp only [importance?, hof, Keyed.find?_map Fact.pair (pair_raisedAt _ _)]
    split
    · next hk =>
      obtain ⟨rfl, rfl⟩ := hk
      simp [hfind, joined, raisedAt]
    · next hk =>
      cases hx : Keyed.find? Fact.pair k (s.ofUser v) with
      | none => rfl
      | some x =>
        obtain ⟨hxs, rfl⟩ := user_of_mem_ofUser (List.mem_of_find?_eq_some hx)
        have hxk : x.pair = k := by simpa using List.find?_some hx
        have hne : address x ≠ address g := by
          intro he
          obtain rfl := List.inj_on_of_nodup_map h.addresses hxs hgs he
          exact hk ⟨hgu, hxk.symm.trans hgpair⟩
        simp [raisedAt, hne]
  · simp only [importance?, hof]
    by_cases hv : user = v
    · subst hv
      rw [if_pos rfl, Keyed.find?, List.find?_append]
      by_cases hk : k = f.pair
      · subst hk
        have hself : ({ f with user } : Fact).pair = f.pair := rfl
        rw [Keyed.find?] at hfind
        simp [hfind, joined, hself, Keyed.find?]
      · have hne : ({ f with user } : Fact).pair ≠ k := Ne.symm hk
        simp [hne, hk, Keyed.find?]
    · simp [hv, Ne.symm hv]

theorem Distinct.insert (h : s.Distinct) (hnew : (user, f.id) ∉ s.facts.map address) :
    (s.insert user f).2.Distinct := by
  rcases insert_inv hnew with ⟨g, -, -, hof, haddresses⟩ | ⟨hfind, hof, haddresses⟩
  · refine ⟨haddresses ▸ h.addresses, fun v => ?_⟩
    have hpairs : Fact.pair ∘ raisedAt (address g) f.importance = Fact.pair :=
      funext (pair_raisedAt _ _)
    rw [hof, List.map_map, hpairs]
    exact h.pairs v
  · have hnone := (Keyed.find?_eq_none_iff Fact.pair).1 hfind
    constructor
    · rw [haddresses]
      exact h.addresses.append (List.nodup_singleton _) (List.disjoint_singleton.2 hnew)
    · intro v
      rw [hof]
      split
      · next hv =>
        subst hv
        rw [List.map_append, List.map_singleton]
        exact (h.pairs _).append (List.nodup_singleton _) (List.disjoint_singleton.2 hnone)
      · exact h.pairs v

/-- No address comes in but that of the fact. -/
theorem address_insert {a : String × String} (ha : a ∈ (s.insert user f).2.facts.map address) :
    a ∈ s.facts.map address ∨ a = (user, f.id) := by
  unfold insert at ha
  split at ha
  · rw [map_address_raise] at ha
    exact .inl ha
  · obtain ⟨x, hx, rfl⟩ := List.mem_map.1 ha
    rcases Keyed.mem_put address hx with rfl | hx
    · exact .inr rfl
    · exact .inl (List.mem_map_of_mem hx)

theorem address_insertAll {fs : List Fact} {a : String × String}
    (ha : a ∈ (s.insertAll user fs).2.facts.map address) :
    a ∈ s.facts.map address ∨ ∃ f ∈ fs, a = (user, f.id) := by
  induction fs generalizing s with
  | nil => exact .inl ha
  | cons f r ih =>
    rcases ih ha with hinserted | ⟨g, hg, rfl⟩
    · exact (address_insert hinserted).imp_right fun hf => ⟨f, List.mem_cons_self, hf⟩
    · exact .inr ⟨g, List.mem_cons_of_mem f hg, rfl⟩

/-! ### Storing facts -/

/-- What has been offered for the pairs of each user: importances, all of them numbers. -/
structure Joins (offered : String → String × String → Float → Prop) (s : FactStore) : Prop where
  distinct : s.Distinct
  numbers : ∀ v k x, offered v k x → x.isNaN = false
  joins : ∀ v k, IsJoin (offered v k) (s.importance? v k)

variable {offered : String → String × String → Float → Prop}

theorem Joins.congr {offered' : String → String × String → Float → Prop}
    (hiff : ∀ v k x, offered v k x ↔ offered' v k x) (h : s.Joins offered) : s.Joins offered' := by
  obtain rfl : offered = offered' := by
    funext v k x
    exact propext (hiff v k x)
  exact h

theorem Joins.insert (h : s.Joins offered) (hnew : (user, f.id) ∉ s.facts.map address)
    (hf : f.importance.isNaN = false) :
    (s.insert user f).2.Joins fun v k x =>
      offered v k x ∨ v = user ∧ f.pair = k ∧ f.importance = x where
  distinct := h.distinct.insert hnew
  numbers := by
    rintro v k x (hx | ⟨-, -, rfl⟩)
    · exact h.numbers v k x hx
    · exact hf
  joins v k := by
    rw [h.distinct.importance?_insert hnew]
    split
    · next hk =>
      obtain ⟨rfl, rfl⟩ := hk
      refine ((h.joins v f.pair).insert (h.numbers v f.pair) hf).congr fun x => ?_
      simp [eq_comm]
    · next hk =>
      refine (h.joins v k).congr fun x => ?_
      have : ¬ (v = user ∧ f.pair = k ∧ f.importance = x) := fun hx => hk ⟨hx.1, hx.2.1.symm⟩
      simp [this]

/-- **After facts have been stored, each pair has the greatest importance that was offered for it**,
before or now. -/
theorem Joins.insertAll {fs : List Fact} (h : s.Joins offered) (hids : (fs.map Fact.id).Nodup)
    (hnew : ∀ f ∈ fs, (user, f.id) ∉ s.facts.map address)
    (hfs : ∀ f ∈ fs, f.importance.isNaN = false) :
    (s.insertAll user fs).2.Joins fun v k x =>
      offered v k x ∨ v = user ∧ ∃ f ∈ fs, f.pair = k ∧ f.importance = x := by
  induction fs generalizing s offered with
  | nil => simpa [FactStore.insertAll] using h
  | cons f r ih =>
    obtain ⟨hid, hr⟩ := List.nodup_cons.1 hids
    obtain ⟨hnewf, hnewr⟩ := List.forall_mem_cons.1 hnew
    obtain ⟨hf, hfsr⟩ := List.forall_mem_cons.1 hfs
    have hnew' : ∀ g ∈ r, (user, g.id) ∉ (s.insert user f).2.facts.map address := by
      intro g hg hmem
      rcases address_insert hmem with hold | hsame
      · exact hnewr g hg hold
      · have hgf : g.id = f.id := congrArg Prod.snd hsame
        exact hid (hgf ▸ List.mem_map_of_mem hg)
    have hrest := ih (h.insert hnewf hf) hr hnew' hfsr
    have hoffered : ∀ v k x,
        ((offered v k x ∨ v = user ∧ f.pair = k ∧ f.importance = x) ∨
          v = user ∧ ∃ g ∈ r, g.pair = k ∧ g.importance = x) ↔
        offered v k x ∨ v = user ∧ ∃ g ∈ f :: r, g.pair = k ∧ g.importance = x := by
      intro v k x
      rw [List.exists_mem_cons_iff, or_assoc, ← and_or_left]
    exact hrest.congr hoffered

end FactStore

end TieredMemory
