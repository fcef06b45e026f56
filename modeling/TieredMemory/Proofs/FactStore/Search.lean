import Mathlib.Data.List.Forall2
import Mathlib.Data.Prod.Lex
import TieredMemory.Proofs.FactStore.Merging
import TieredMemory.Proofs.Ranking
import TieredMemory.Proofs.Validation
import TieredMemory.Proofs.World

/-!
# Searching the facts of a user

The facts that are like enough to a query (`hits`) are ranked by how like they are, then by
importance, then by their latest use, and those that are equal in all three stay as they stand in the
store (`pairwise_matching`). Comparing two facts is comparing the ranks of their numbers, so ranking
is sorting by a key in a linear order. A search returns the first ones of the ranking and counts a
use of each of them and of no other fact (`search_spec`).
-/

namespace TieredMemory.FactStore

/-- The user's facts that are like enough to the query, as they stand in the store. -/
def hits (user query : String) (embedding : Option Embedding) (s : FactStore) : List Fact :=
  (s.ofUser user).filter fun f => s.minSimilarity ≤ likeness query embedding f

/-- One fact is better for a query than another: it is more like the query, or as like and more
important, or as important, too, and used later. -/
def RanksAbove (query : String) (embedding : Option Embedding) (f g : Fact) : Prop :=
  likeness query embedding g < likeness query embedding f ∨
    (likeness query embedding g == likeness query embedding f) = true ∧
      (g.importance < f.importance ∨
        (g.importance == f.importance) = true ∧ g.lastAccessed < f.lastAccessed)

/-- One of the user's facts is to be returned before another one: it ranks above, or neither does and
it stands before the other one in the store. -/
def Precedes (user query : String) (embedding : Option Embedding) (s : FactStore) (f g : Fact) :
    Prop :=
  RanksAbove query embedding f g ∨
    ¬ RanksAbove query embedding g f ∧ [f, g].Sublist (s.ofUser user)

section

variable {user query : String} {embedding : Option Embedding} {s : FactStore} {f g : Fact}

/-! ### Ranking -/

/-- What a fact is ranked by. -/
def rankingKey (query : String) (embedding : Option Embedding) (f : Fact) :
    Number.Rank ×ₗ Number.Rank ×ₗ Time :=
  toLex (Number.rank (likeness query embedding f),
    toLex (Number.rank f.importance, f.lastAccessed))

/-- What a fact is ranked by compares with every number. -/
structure Comparable (query : String) (embedding : Option Embedding) (f : Fact) : Prop where
  likeness : (likeness query embedding f).isNaN = false
  importance : f.importance.isNaN = false

/-- A fact that is like enough is like to some degree. -/
theorem comparable_of_mem_hits (h : f ∈ s.hits user query embedding)
    (himportance : ∀ f ∈ s.ofUser user, f.importance.isNaN = false) :
    Comparable query embedding f := by
  obtain ⟨hmem, hlike⟩ := List.mem_filter.1 h
  simp only [decide_eq_true_eq] at hlike
  exact ⟨(Number.isNaN_eq_false_of_le hlike).2, himportance f hmem⟩

theorem rankingKey_lt_iff (hf : Comparable query embedding f) (hg : Comparable query embedding g) :
    rankingKey query embedding g < rankingKey query embedding f ↔ RanksAbove query embedding f g := by
  unfold RanksAbove rankingKey
  rw [Number.lt_iff_rank_lt hg.likeness hf.likeness, Number.beq_iff_rank_eq hg.likeness hf.likeness,
    Number.lt_iff_rank_lt hg.importance hf.importance,
    Number.beq_iff_rank_eq hg.importance hf.importance]
  simp only [Prod.Lex.toLex_lt_toLex]

theorem ranksBelow_iff (hf : Comparable query embedding f) (hg : Comparable query embedding g) :
    ranksBelow (likeness query embedding f, f) (likeness query embedding g, g) =
      decide (rankingKey query embedding f < rankingKey query embedding g) := by
  rw [Bool.eq_iff_iff, decide_eq_true_eq, ranksBelow, Number.floatThen_iff hf.likeness hg.likeness,
    Number.floatThen_iff hf.importance hg.importance]
  simp only [rankingKey, Prod.Lex.toLex_lt_toLex, decide_eq_true_eq]

/-- The ranking is one of the hits with their scores, which it leaves out in the end. -/
theorem matching_eq_map (user query : String) (embedding : Option Embedding) (s : FactStore) :
    s.matching user query embedding =
      (descending ranksBelow
        ((s.hits user query embedding).map fun f => (likeness query embedding f, f))).map Prod.snd := by
  unfold matching
  simp only [List.filter_map]
  rfl

theorem matching_perm (user query : String) (embedding : Option Embedding) (s : FactStore) :
    (s.matching user query embedding).Perm (s.hits user query embedding) := by
  have hperm := (descending_perm ranksBelow
    ((s.hits user query embedding).map fun f => (likeness query embedding f, f))).map Prod.snd
  rw [← matching_eq_map, List.map_map] at hperm
  simpa [Function.comp_def] using hperm

theorem matching_eq (himportance : ∀ f ∈ s.ofUser user, f.importance.isNaN = false) :
    s.matching user query embedding =
      descending (fun f g => decide (rankingKey query embedding f < rankingKey query embedding g))
        (s.hits user query embedding) := by
  rw [matching_eq_map,
    map_descending fun f g => decide (rankingKey query embedding f < rankingKey query embedding g)]
  · rw [List.map_map]
    simp [Function.comp_def]
  · intro a ha b hb
    obtain ⟨f, hf, rfl⟩ := List.mem_map.1 ha
    obtain ⟨g, hg, rfl⟩ := List.mem_map.1 hb
    exact ranksBelow_iff (comparable_of_mem_hits hf himportance)
      (comparable_of_mem_hits hg himportance)

/-- Of two hits the first one ranks above, or neither does and it stands before the other one. -/
theorem pairwise_matching (query : String) (embedding : Option Embedding)
    (himportance : ∀ f ∈ s.ofUser user, f.importance.isNaN = false) :
    (s.matching user query embedding).Pairwise (Precedes user query embedding s) := by
  have hcomparable : ∀ f ∈ s.hits user query embedding, Comparable query embedding f :=
    fun f hf => comparable_of_mem_hits hf himportance
  rw [matching_eq himportance]
  exact pairwise_descending_above (rankingKey query embedding)
    (fun f hf g hg => (rankingKey_lt_iff (hcomparable f hf) (hcomparable g hg)).symm)
    List.filter_sublist

/-! ### Counting the uses -/

/-- What is found is the user's, and no fact is found twice. -/
theorem mem_take_matching (h : (s.facts.map address).Nodup) (user query : String)
    (embedding : Option Embedding) (n : Nat) :
    (∀ f ∈ (s.matching user query embedding).take n, f ∈ s.facts ∧ f.user = user) ∧
      (((s.matching user query embedding).take n).map address).Nodup := by
  have hperm := matching_perm user query embedding s
  constructor
  · intro f hf
    have hof := (List.mem_filter.1 (hperm.mem_iff.1 (List.mem_of_mem_take hf))).1
    exact user_of_mem_ofUser hof
  · have hsub : (s.hits user query embedding).Sublist s.facts :=
      List.filter_sublist.trans List.filter_sublist
    have hmatching := (hperm.map address).nodup_iff.2 (h.sublist (hsub.map address))
    exact hmatching.sublist ((List.take_sublist n _).map address)

/-- A fact of the user's whose identifier is found is found itself. -/
theorem mem_found_iff (h : (s.facts.map address).Nodup) {found : List Fact}
    (hmem : ∀ f ∈ found, f ∈ s.facts ∧ f.user = user)
    (hf : f ∈ s.facts) : f.user = user ∧ f.id ∈ found.map Fact.id ↔ f ∈ found := by
  constructor
  · rintro ⟨hu, hid⟩
    obtain ⟨g, hg, hgid⟩ := List.mem_map.1 hid
    obtain ⟨hgs, hgu⟩ := hmem g hg
    have hsame : address g = address f := Prod.ext (hgu.trans hu.symm) hgid
    exact List.inj_on_of_nodup_map h hgs hf hsame ▸ hg
  · intro hfound
    exact ⟨(hmem f hfound).2, List.mem_map_of_mem hfound⟩

/-- Once uses are counted, the facts that were found have one more, now, and the others are as they
were. -/
theorem forall₂_recordUses (h : (s.facts.map address).Nodup) {now : Time} {found : List Fact}
    (hmem : ∀ f ∈ found, f ∈ s.facts ∧ f.user = user) :
    List.Forall₂
      (fun f f' => f ∈ found ∧ f' = f.recordAccess now ∨ f ∉ found ∧ f' = f)
      s.facts (s.recordUses now user (found.map Fact.id)).facts := by
  refine List.forall₂_map_right_iff.2 (List.forall₂_same.2 fun f hf => ?_)
  split
  · next hu => exact .inl ⟨(mem_found_iff h hmem hf).1 hu, rfl⟩
  · next hu => exact .inr ⟨fun hfound => hu ((mem_found_iff h hmem hf).2 hfound), rfl⟩

/-! ### The whole search -/

/-- What a search for the query at the time has to do: `taken` are the facts that it returns, as they
were in the store `s`, and `s'` is the store afterwards. -/
structure Answered (now : Time) (user query : String) (embedding : Option Embedding) (n : Nat)
    (s : FactStore) (taken : List Fact) (s' : FactStore) : Prop where
  /-- They are the first ones when all hits are put in their order. -/
  first : ∃ rest, (taken ++ rest).Perm (s.hits user query embedding) ∧
    (taken ++ rest).Pairwise (Precedes user query embedding s)
  length : taken.length = min n (s.hits user query embedding).length
  alike : ∀ f ∈ taken, f.user = user ∧ s.minSimilarity ≤ likeness query embedding f
  /-- What is left out does not rank above them. -/
  omitted : ∀ f ∈ s.hits user query embedding, f ∉ taken →
    ∀ g ∈ taken, ¬ RanksAbove query embedding f g
  uses : List.Forall₂
    (fun f f' =>
      f ∈ taken ∧ f' = { f with accessCount := f.accessCount + 1, lastAccessed := now } ∨
        f ∉ taken ∧ f' = f)
    s.facts s'.facts
  rest : s' = { s with facts := s'.facts }

theorem Precedes.not_ranksAbove (h : Precedes user query embedding s f g)
    (hf : Comparable query embedding f) (hg : Comparable query embedding g) :
    ¬ RanksAbove query embedding g f := by
  rcases h with habove | ⟨hnot, -⟩
  · intro hcontrary
    rw [← rankingKey_lt_iff hf hg] at habove
    rw [← rankingKey_lt_iff hg hf] at hcontrary
    exact lt_asymm habove hcontrary
  · exact hnot

theorem answered_find (hn : (s.facts.map address).Nodup)
    (himportance : ∀ f ∈ s.ofUser user, f.importance.isNaN = false) (now : Time) (n : Nat) :
    Answered now user query embedding n s ((s.matching user query embedding).take n)
      (s.find now user query embedding n).2 := by
  have hperm := matching_perm user query embedding s
  have hleading := leading_take hperm (pairwise_matching query embedding himportance) n
  have htaken : ∀ f ∈ (s.matching user query embedding).take n,
      f ∈ s.hits user query embedding := fun f hf => hperm.mem_iff.1 (List.mem_of_mem_take hf)
  constructor
  · exact hleading.first
  · exact hleading.length
  · intro f hf
    obtain ⟨hmem, hlike⟩ := List.mem_filter.1 (htaken f hf)
    exact ⟨(user_of_mem_ofUser hmem).2, by simpa using hlike⟩
  · intro f hf hout g hg
    exact (hleading.omitted f hf hout g hg).not_ranksAbove
      (comparable_of_mem_hits (htaken g hg) himportance) (comparable_of_mem_hits hf himportance)
  · exact forall₂_recordUses hn (mem_take_matching hn user query embedding n).1
  · rfl

/-- A search of an accepted user up to an accepted limit has an outcome: the first ones of the ranking.
Where there is nothing to be found it does without the embedding. -/
theorem search_eq {limit : Int} (hu : checkUser user = .ok ()) (hlimit : 0 ≤ limit) (query : String)
    (s : FactStore) (w : World) :
    ∃ w', s.search user query limit w =
      .ok ((s.find w.now user query (w.embed user "facts.search" query).1 limit.toNat).1,
        (s.find w.now user query (w.embed user "facts.search" query).1 limit.toNat).2, w') := by
  unfold search
  rw [hu, checkLimit_of_nonneg hlimit]
  simp only [bind, Except.bind, pure, Except.pure, World.now_embed]
  split
  · next hnone =>
    have hperm := matching_perm user query (w.embed user "facts.search" query).1 s
    have htake := take_eq_nil_of_idle hperm List.filter_sublist hnone
    refine ⟨w, ?_⟩
    simp [find, recordUses, htake]
  · exact ⟨_, rfl⟩

end

/-- A search returns the best hits up to the limit, counts a use of each of them, and changes nothing
else. -/
theorem search_spec {user : String} {limit : Int} {s : FactStore}
    (hn : (s.facts.map address).Nodup) (hu : checkUser user = .ok ()) (hlimit : 0 ≤ limit)
    (himportance : ∀ f ∈ s.ofUser user, f.importance.isNaN = false) (query : String) (w : World) :
    ∃ taken s' w',
      s.search user query limit w = .ok (taken.map (Fact.recordAccess w.now), s', w') ∧
        Answered w.now user query (w.embed user "facts.search" query).1 limit.toNat s taken s' := by
  obtain ⟨w', hsearch⟩ := search_eq hu hlimit query s w
  exact ⟨_, _, w', hsearch, answered_find hn himportance w.now limit.toNat⟩

/-- Three facts that are as like the word they share: the last one is more important, and the others
differ in nothing but their place. -/
def drinks : FactStore where
  facts := [⟨"f1", "u", "c", "drink", "tea", .preference, 0.5, none, 7, 1, 0⟩,
    ⟨"f2", "u", "c", "drink", "milk", .preference, 0.5, none, 7, 1, 0⟩,
    ⟨"f3", "u", "c", "drink", "juice", .preference, 0.9, none, 5, 1, 0⟩]

theorem search_drinks :
    (drinks.facts.map address).Nodup ∧ checkUser "u" = .ok () ∧ (0 : Int) ≤ 2 ∧
      (∀ f ∈ drinks.ofUser "u", f.importance.isNaN = false) ∧
      ∃ taken s' w',
        drinks.search "u" "drink" 2 { now := 9 } = .ok (taken.map (Fact.recordAccess 9), s', w') ∧
          Answered 9 "u" "drink" none 2 drinks taken s' :=
  have hn : (drinks.facts.map address).Nodup := by decide
  have hu : checkUser "u" = .ok () := by decide +kernel
  have himportance : ∀ f ∈ drinks.ofUser "u", f.importance.isNaN = false := by decide +kernel
  ⟨hn, hu, by decide, himportance, search_spec hn hu (by decide) himportance "drink" { now := 9 }⟩

end TieredMemory.FactStore
