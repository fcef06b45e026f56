import TieredMemory.Archive.Log
import TieredMemory.Proofs.Archive.Rows
import TieredMemory.Proofs.Calendar.Date

/-!
# Rows come by time

A table keeps the time of a turn as a text and sorts its rows by this text. The text has a fraction
only if there are microseconds, so that one text may begin with another one; still the texts of valid
moments are in the order of the moments, and every text is read back. So the rows of turns with such
times come in the order of their times, forward and backward, and a table ranks them as a log does.
-/

namespace TieredMemory

variable {s t : Turn}

theorem Row.ranksBelow_ofTurn (hs : Moment.IsDated s.createdAt) (ht : Moment.IsDated t.createdAt)
    (hs' : s.importance.isNaN = false) (ht' : t.importance.isNaN = false) :
    Row.ranksBelow (ofTurn s) (ofTurn t) = ArchiveLog.ranksBelow s t := by
  have himportance {t : Turn} (h : t.importance.isNaN = false) :
      (ofTurn t).importance = some t.importance := by
    simp only [ofTurn, h, Bool.false_eq_true, if_false]
  simp only [Row.ranksBelow, himportance hs', himportance ht', ArchiveLog.ranksBelow,
    createdAt_lt_iff hs ht]

/-- To sort the rows of turns by the texts of their times is to sort the turns by their times. -/
structure SortedByTime (ts : List Turn) : Prop where
  forward : ascending (fun r s => decide (r.createdAt < s.createdAt)) (ts.map Row.ofTurn) =
    (ascending (fun s t => decide (s.createdAt < t.createdAt)) ts).map Row.ofTurn
  backward : descending (fun r s => decide (r.createdAt < s.createdAt)) (ts.map Row.ofTurn) =
    (descending (fun s t => decide (s.createdAt < t.createdAt)) ts).map Row.ofTurn
  /-- Among turns of one importance the later one is ranked higher. -/
  ranked : (∀ t ∈ ts, t.importance.isNaN = false) →
    descending Row.ranksBelow (ts.map Row.ofTurn) =
      (descending ArchiveLog.ranksBelow ts).map Row.ofTurn

theorem sortedByTime {ts : List Turn} (h : ∀ t ∈ ts, Moment.IsDated t.createdAt) :
    SortedByTime ts where
  forward := Row.ascending_map_ofTurn h
  backward := by
    refine (map_descending _ fun s hs t ht => ?_).symm
    rw [decide_eq_decide, Row.createdAt_lt_iff (h s hs) (h t ht)]
  ranked himportance := by
    refine (map_descending _ fun s hs t ht => ?_).symm
    rw [Row.ranksBelow_ofTurn (h s hs) (h t ht) (himportance s hs) (himportance t ht)]

namespace Moment

/-- Of two valid moments one is before the other, field by field or as a time, exactly if its stored
text comes first; a stored text is read back as its moment; and so rows that are sorted by stored texts
are in the order of time. -/
theorem stored_chronological {a b : Moment} (ha : a.Valid) (hb : b.Valid) :
    (a.fields < b.fields ↔ a.stored < b.stored) ∧ (a.toTime < b.toTime ↔ a.stored < b.stored) ∧
      ofStored? a.stored = some a ∧
      ∀ ts : List Turn, (∀ t ∈ ts, ∃ m : Moment, m.Valid ∧ m.toTime = t.createdAt) →
        SortedByTime ts := by
  have hstored := stored_lt_iff_fields_lt ha.fits hb.fits
  refine ⟨hstored.symm, (toTime_lt_iff ha hb).trans hstored.symm, ofStored?_stored ha.fits,
    fun ts hts => sortedByTime fun t ht => isDated_iff.2 (hts t ht)⟩

/-- The last second of a leap day. -/
def leapDayEnd (micro : Nat) : Moment := ⟨2024, 2, 29, 23, 59, 59, micro⟩

example : (leapDayEnd 0).stored = "2024-02-29T23:59:59" ∧
    (leapDayEnd 10).stored = "2024-02-29T23:59:59.000010" := by decide +kernel

/-- The text of a whole second is the beginning of the text of a fraction of it. -/
theorem stored_chronological_leapDayEnd :
    (leapDayEnd 0).Valid ∧ (leapDayEnd 10).Valid ∧
      ((leapDayEnd 0).toTime < (leapDayEnd 10).toTime ↔
        (leapDayEnd 0).stored < (leapDayEnd 10).stored) ∧
      ofStored? (leapDayEnd 0).stored = some (leapDayEnd 0) ∧
      SortedByTime [note "u" "t1" (leapDayEnd 10).toTime, note "u" "t2" (leapDayEnd 0).toTime] := by
  have h0 : (leapDayEnd 0).Valid := by constructor <;> decide
  have h10 : (leapDayEnd 10).Valid := by constructor <;> decide
  obtain ⟨-, htime, hread, hsorted⟩ := stored_chronological h0 h10
  refine ⟨h0, h10, htime, hread, hsorted _ fun t ht => ?_⟩
  simp only [List.mem_cons, List.not_mem_nil, or_false] at ht
  rcases ht with rfl | rfl
  · exact ⟨_, h10, rfl⟩
  · exact ⟨_, h0, rfl⟩

end Moment

end TieredMemory
