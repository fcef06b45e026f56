import TieredMemory.Proofs.Archive.Shelves
import TieredMemory.Proofs.HotCache.Eviction
import TieredMemory.Proofs.Ranking
import TieredMemory.Proofs.Validation

/-!
# Searching the archive in memory

The turns of a user that are like enough to a query (`hits`) are ranked by importance, then by time, and
those that are equal in both stay as they stand on the shelf (`pairwise_matching`). How like a turn is
decides whether it is found, and not before which other one. A search returns the first ones of the
ranking (`search_eq`). What it returns is what the catalogue has, however often turns were written again,
taken over by other users or deleted before: no identifier twice, and nothing left out that has a higher
rank.
-/

namespace TieredMemory.Shelves

open ArchiveLog (Request likeness ranksBelow)

/-- The user's turns that are like enough to the query, as they stand on the shelf. -/
def hits (user query : String) (embedding : Option Embedding) (a : Shelves) : List Turn :=
  (a.shelf user).filter fun t => a.minSimilarity ≤ likeness query embedding t

/-- One turn is better than another: more important, or as important and later. -/
def RanksAbove (s t : Turn) : Prop :=
  t.importance < s.importance ∨ (t.importance == s.importance) = true ∧ t.createdAt < s.createdAt

/-- One of the user's turns is to be returned before another one: it ranks above, or neither does and
it stands before the other one on the shelf. -/
def Precedes (user : String) (a : Shelves) (s t : Turn) : Prop :=
  RanksAbove s t ∨ ¬ RanksAbove t s ∧ [s, t].Sublist (a.shelf user)

/-- What a search up to a limit has to return. -/
structure Selected (user query : String) (embedding : Option Embedding) (n : Nat) (a : Shelves)
    (found : List Turn) : Prop where
  /-- They are the first ones when all hits are put in their order. -/
  leading : Leading (Precedes user a) n (a.hits user query embedding) found
  current : ∀ t ∈ found,
    a.get? t.id = some t ∧ t.user = user ∧ a.minSimilarity ≤ likeness query embedding t
  once : (found.map Turn.id).Nodup
  /-- A turn in the catalogue is left out for want of room only, and if none that is returned ranks
  below it. -/
  omitted : ∀ t, a.get? t.id = some t → t.user = user →
    a.minSimilarity ≤ likeness query embedding t → t ∉ found →
      found.length = n ∧ ∀ s ∈ found, ¬ RanksAbove t s

variable {a : Shelves} {user query : String} {embedding : Option Embedding} {s t : Turn}

/-! ### Ranking -/

theorem ranksAbove_iff (hs : s.importance.isNaN = false) (ht : t.importance.isNaN = false) :
    RanksAbove s t ↔ HotCache.weight t < HotCache.weight s := by
  unfold RanksAbove HotCache.weight
  rw [Number.lt_iff_rank_lt ht hs, Number.beq_iff_rank_eq ht hs, Prod.Lex.toLex_lt_toLex]

theorem ranksBelow_eq (hs : s.importance.isNaN = false) (ht : t.importance.isNaN = false) :
    ranksBelow s t = decide (HotCache.weight s < HotCache.weight t) := by
  rw [Bool.eq_iff_iff, decide_eq_true_iff]
  exact HotCache.isLesser_iff hs ht

theorem mem_hits : t ∈ a.hits user query embedding ↔
    t ∈ a.shelf user ∧ a.minSimilarity ≤ likeness query embedding t := by
  rw [hits, List.mem_filter, decide_eq_true_iff]

theorem matching_perm (user query : String) (embedding : Option Embedding) (a : Shelves) :
    (a.matching user query embedding).Perm (a.hits user query embedding) :=
  descending_perm ranksBelow _

/-- Of two hits the first one ranks above, or neither does and it stands before the other one. -/
theorem pairwise_matching (query : String) (embedding : Option Embedding)
    (himportance : ∀ t ∈ a.shelf user, t.importance.isNaN = false) :
    (a.matching user query embedding).Pairwise (Precedes user a) := by
  have hnumber : ∀ t ∈ a.hits user query embedding, t.importance.isNaN = false :=
    fun t ht => himportance t (mem_hits.1 ht).1
  have hkey : a.matching user query embedding =
      descending (fun s t => decide (HotCache.weight s < HotCache.weight t))
        (a.hits user query embedding) :=
    descending_congr fun s hs t ht => ranksBelow_eq (hnumber s hs) (hnumber t ht)
  rw [hkey]
  exact pairwise_descending_above HotCache.weight
    (fun s hs t ht => ranksAbove_iff (hnumber s hs) (hnumber t ht)) List.filter_sublist

theorem Precedes.not_ranksAbove (h : Precedes user a s t) (hs : s.importance.isNaN = false)
    (ht : t.importance.isNaN = false) : ¬ RanksAbove t s := by
  rcases h with habove | ⟨hnot, -⟩
  · intro hcontrary
    rw [ranksAbove_iff hs ht] at habove
    rw [ranksAbove_iff ht hs] at hcontrary
    exact lt_asymm habove hcontrary
  · exact hnot

/-! ### The whole search -/

theorem Consistent.selected (h : Consistent a)
    (himportance : ∀ t ∈ a.shelf user, t.importance.isNaN = false) (query : String)
    (embedding : Option Embedding) (n : Nat) :
    Selected user query embedding n a ((a.matching user query embedding).take n) := by
  have hperm := matching_perm user query embedding a
  have hleading := leading_take hperm (pairwise_matching query embedding himportance) n
  have htaken : ∀ t ∈ (a.matching user query embedding).take n,
      t ∈ a.hits user query embedding := fun t ht => hperm.mem_iff.1 (List.mem_of_mem_take ht)
  constructor
  · exact hleading
  · intro t ht
    obtain ⟨hmem, hlike⟩ := mem_hits.1 (htaken t ht)
    exact ⟨h.get?_of_mem hmem, h.own user t hmem, hlike⟩
  · have hids := (hperm.map Turn.id).nodup_iff.2
      ((h.distinct user).sublist (List.filter_sublist.map Turn.id))
    exact hids.sublist ((List.take_sublist n _).map Turn.id)
  · intro t hget hu hlike hout
    have hmem : t ∈ a.shelf user := hu ▸ ((h.found t.id t).1 hget).2
    have hhit := mem_hits.2 ⟨hmem, hlike⟩
    refine ⟨hleading.length_eq hhit hout, fun s hs => ?_⟩
    exact (hleading.omitted t hhit hout s hs).not_ranksAbove
      (himportance s (mem_hits.1 (htaken s hs)).1) (himportance t hmem)

/-- A search returns the first ones of the ranking, or refuses the user. Where there is nothing to be
found it does without the embedding. -/
theorem search_eq (user query : String) (n : Nat) (a : Shelves) (w : World) :
    (a.search user query n w).map Prod.fst =
      (checkUser user).map fun _ =>
        (a.matching user query (w.embed user "archive.search" query).1).take n := by
  unfold search
  rw [checkLimit_of_nonneg (Int.natCast_nonneg n), Int.toNat_natCast]
  cases checkUser user with
  | error why => rfl
  | ok _ =>
    simp only [bind, Except.bind, pure, Except.pure]
    split
    · next hnone =>
      have hperm := matching_perm user query (w.embed user "archive.search" query).1 a
      simp only [Except.map, take_eq_nil_of_idle hperm List.filter_sublist hnone]
    · rfl

/-- Whatever was asked of an archive that was empty at first, a search returns the best of the user's
turns that are like enough to the query, by any embedding of it, and leaves the archive as it is. The
log of all turns answers the same. -/
theorem search_selects_best (minSimilarity : Float) (es : List (World × Request)) {user : String}
    (himportance : ∀ t ∈ (respondAll respond es { minSimilarity }).2.shelf user,
      t.importance.isNaN = false) (query : String) (n : Nat) (w : World) :
    let a := (respondAll respond es { minSimilarity }).2
    (∀ embedding, ∃ found,
        respond w a (.select user query embedding n) = (.found (.ok found), a) ∧
          Selected user query embedding n a found) ∧
      (∃ found,
        respond w a (.search user query n) = (.found ((checkUser user).map fun _ => found), a) ∧
          Selected user query (w.embed user "archive.search" query).1 n a found) ∧
      (ArchiveLog.respond w (respondAll ArchiveLog.respond es { minSimilarity }).2
        (.search user query n)).1 = (respond w a (.search user query n)).1 := by
  intro a
  have hlogged := (Logged.empty minSimilarity).respondAll es
  have hselected := hlogged.2.consistent.selected himportance query
  refine ⟨fun embedding => ⟨_, rfl, hselected embedding n⟩, ⟨_, ?_, hselected _ n⟩,
    (hlogged.2.respond w _).1.symm⟩
  rw [← search_eq]
  rfl

/-- A turn about tea. -/
def sip (id user : String) (createdAt : Time) (importance : Float) : Turn :=
  { HotCache.bareTurn id importance with user, createdAt, text := "green tea" }

/-- Of three turns one is written again, and another user takes one over. -/
def sips : List (World × Request) :=
  [({}, .append (sip "t1" "u" 1 0.5)), ({}, .append (sip "t2" "u" 0 0.9)),
    ({}, .append (sip "t3" "u" 1 0.5)), ({}, .append (sip "t1" "u" 1 0.5)),
    ({}, .append (sip "t2" "v" 2 0.7)), ({}, .append (sip "t4" "u" 2 0.5))]

theorem search_selects_best_sips :
    let a := (respondAll respond sips { minSimilarity := 0.5 }).2
    (∀ t ∈ a.shelf "u", t.importance.isNaN = false) ∧
      ∃ found, respond {} a (.search "u" "tea" 2) = (.found (.ok found), a) ∧
        Selected "u" "tea" none 2 a found := by
  intro a
  have himportance : ∀ t ∈ a.shelf "u", t.importance.isNaN = false := by decide +kernel
  have hu : checkUser "u" = .ok () := by decide +kernel
  obtain ⟨-, ⟨found, hfound, hselected⟩, -⟩ :=
    search_selects_best 0.5 sips himportance "tea" 2 {}
  rw [hu] at hfound
  exact ⟨himportance, found, hfound, hselected⟩

end TieredMemory.Shelves
