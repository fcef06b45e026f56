import Mathlib
import TieredMemory.Proofs.Archive.Rows
import TieredMemory.Proofs.Outcome

/-!
# The full-text index of a table

The index holds one entry for each row, with the text and the user of the row, and no two rows have
one identifier (`Indexed`). Every statement that a call runs keeps this, also when the call is cut
short (`Indexed.appendInterrupted`). Hence a search finds nothing but the turns that are there
(`Indexed.search`): none that was deleted or replaced, and none twice.
-/

namespace TieredMemory

/-- The entry of a row. -/
def Row.entry (r : Row) : IndexEntry := ⟨r.id, r.user, r.text⟩

@[simp] theorem Row.entry_id (r : Row) : r.entry.id = r.id := rfl

@[simp] theorem Row.entry_user (r : Row) : r.entry.user = r.user := rfl

namespace Contents

variable {c : Contents} {r : Row}

/-- Each row has its entry, and no identifier occurs twice. -/
structure Indexed (c : Contents) : Prop where
  entries : c.entries = c.rows.map Row.entry
  distinct : (c.rows.map Row.id).Nodup

theorem Indexed.empty : Indexed {} := ⟨rfl, List.nodup_nil⟩

/-- A row is known by its identifier. -/
theorem Indexed.eq_of_id (h : c.Indexed) {r' : Row} (hr : r ∈ c.rows) (hr' : r' ∈ c.rows)
    (hid : r.id = r'.id) : r = r' :=
  List.inj_on_of_nodup_map h.distinct hr hr' hid

theorem Indexed.row? (h : c.Indexed) (hr : r ∈ c.rows) : c.row? r.id = some r := by
  cases hfound : c.row? r.id with
  | none => simpa using List.find?_eq_none.1 hfound r hr
  | some r' =>
    have hid : r'.id = r.id := by simpa using List.find?_some hfound
    rw [h.eq_of_id (List.mem_of_find?_eq_some hfound) hr hid]

theorem Indexed.deleteWhere (h : c.Indexed) (p : Row → Bool) : (c.deleteWhere p).Indexed := by
  refine ⟨?_, h.distinct.sublist (List.filter_sublist.map Row.id)⟩
  simp only [Contents.deleteWhere, h.entries, List.filter_map]
  congr 1
  refine List.filter_congr fun r hr => ?_
  -- an entry goes exactly if its own row goes, since no other row has the identifier
  have hany : (c.rows.any fun r' => p r' && r'.id == r.id) = p r := by
    rw [Bool.eq_iff_iff, List.any_eq_true]
    constructor
    · rintro ⟨r', hr', hp⟩
      simp only [Bool.and_eq_true, beq_iff_eq] at hp
      exact h.eq_of_id hr' hr hp.2 ▸ hp.1
    · exact fun hp => ⟨r, hr, by simp [hp]⟩
  simp only [Function.comp_apply, Row.entry_id, hany]

theorem Indexed.insert (h : c.Indexed) (hr : r.id ∉ c.rows.map Row.id) : (c.insert r).Indexed := by
  refine ⟨by simp [Contents.insert, h.entries, Row.entry], ?_⟩
  simp only [Contents.insert, List.map_append, List.map_cons, List.map_nil]
  exact List.nodup_append.2 ⟨h.distinct, List.nodup_singleton _, fun x hx y hy he =>
    hr (List.mem_singleton.1 hy ▸ he ▸ hx)⟩

/-- The rows whose entries match are the rows that match. -/
theorem Indexed.matching (h : c.Indexed) (user : String) (literals : List String) :
    c.matching user literals = c.rows.filter fun r =>
      r.user == user && FullText.isMatch literals (FullText.terms r.text) := by
  unfold Contents.matching
  rw [h.entries, List.filter_map, List.filterMap_map]
  refine (List.filterMap_congr fun r hr => ?_).trans List.filterMap_some
  exact h.row? (List.mem_of_mem_filter hr)

theorem notMem_deleteWhere_id (id : String) (c : Contents) :
    id ∉ ((c.deleteWhere fun r => r.id == id).rows).map Row.id := by
  simp [Contents.deleteWhere]

end Contents

namespace ArchiveTable

variable {a : ArchiveTable} {t : Turn}

/-- What is seen and what is durable are both indexed. -/
structure Indexed (a : ArchiveTable) : Prop where
  working : a.working.Indexed
  durable : a.durable.Indexed

theorem Indexed.empty : Indexed {} := ⟨.empty, .empty⟩

theorem Indexed.connect (h : a.Indexed) : a.connect.Indexed := ⟨h.durable, h.durable⟩

theorem Indexed.commit (h : a.Indexed) : (a.run .commit).Indexed := ⟨h.working, h.working⟩

theorem Indexed.deleteWhere (h : a.Indexed) (p : Row → Bool) :
    Indexed { a with working := a.working.deleteWhere p } := ⟨h.working.deleteWhere p, h.durable⟩

/-- After the third statement nothing is left to interrupt. -/
theorem appendInterrupted_of_le {n : Nat} (h : 3 ≤ n) :
    a.appendInterrupted n t = a.runAll (appendStatements t) := by
  unfold appendInterrupted
  rw [List.take_of_length_le (by simpa [appendStatements] using h)]

/-- Writing a turn keeps the index, however far it gets. -/
theorem Indexed.appendInterrupted (h : a.Indexed) (n : Nat) (t : Turn) :
    (a.appendInterrupted n t).Indexed := by
  have hdelete : (a.run (.delete t.id)).Indexed := h.deleteWhere _
  have hinsert : ((a.run (.delete t.id)).run (.insert (Row.ofTurn t))).Indexed :=
    ⟨hdelete.working.insert (Contents.notMem_deleteWhere_id t.id a.working), h.durable⟩
  match n with
  | 0 => exact h
  | 1 => exact hdelete
  | 2 => exact hinsert
  | n + 3 =>
    rw [appendInterrupted_of_le (by omega)]
    exact hinsert.commit

/-! ### Searching -/

theorem bestOf_sublist (n : Nat) (rows : List Row) :
    ∃ found : List Row, bestOf n rows = found.map Row.toTurn ∧ found.Subperm rows :=
  ⟨_, rfl, (List.take_sublist n _).subperm.trans (List.mergeSort_perm rows _).subperm⟩

/-- The turns of rows of the user's, each at most once, are there as they are found. -/
theorem Indexed.bestOf (h : a.Indexed) {user : String} {p : Row → Bool} (n : Nat)
    (hp : ∀ r, p r = true → r.user = user) :
    ((bestOf n (a.working.rows.filter p)).map Turn.id).Nodup ∧
      ∀ t ∈ bestOf n (a.working.rows.filter p),
        t.user = user ∧ (a.working.row? t.id).map Row.toTurn = some t := by
  obtain ⟨found, he, hfound⟩ := bestOf_sublist n (a.working.rows.filter p)
  have hsub : found.Subperm a.working.rows := hfound.trans List.filter_sublist.subperm
  rw [he]
  constructor
  · obtain ⟨rows, hperm, hrows⟩ := hsub
    rw [List.map_map]
    exact (hperm.map Row.id).nodup_iff.1 (h.working.distinct.sublist (hrows.map Row.id))
  · intro t ht
    obtain ⟨r, hr, rfl⟩ := List.mem_map.1 ht
    have hrow := List.mem_filter.1 (hfound.subset hr)
    exact ⟨hp r hrow.2, by rw [Row.toTurn_id, h.working.row? hrow.1, Option.map_some]⟩

/-- A search finds turns of the user's that are there as they are found, each at most once. -/
theorem Indexed.search (h : a.Indexed) {user query : String} {limit : Int}
    {found : List Turn} {notice : Option Notice}
    (hs : a.search user query limit = .ok (found, notice)) :
    (found.map Turn.id).Nodup ∧ ∀ t ∈ found, t.user = user ∧ a.get? t.id = .ok (some t) := by
  obtain ⟨-, -, hs⟩ := bind_eq_ok hs
  obtain ⟨n, -, hs⟩ := bind_eq_ok hs
  split at hs
  · cases hs
    simp
  · obtain ⟨⟨⟩, hopen, hs⟩ := bind_eq_ok hs
    obtain ⟨-, -, hs⟩ := bind_eq_ok hs
    have hget (id : String) : a.get? id = .ok ((a.working.row? id).map Row.toTurn) := by
      simp only [ArchiveTable.get?, hopen]
      rfl
    simp only [hget, Except.ok.injEq]
    split at hs
    · cases hs
      rw [h.working.matching]
      exact h.bestOf n (by simp +contextual)
    · cases hs
      exact h.bestOf n (by simp +contextual)

end ArchiveTable

end TieredMemory
