import Mathlib
import TieredMemory.Archive.Table
import TieredMemory.Proofs.Calendar
import TieredMemory.Proofs.Json.RoundTrip
import TieredMemory.Proofs.Number.Order
import TieredMemory.Proofs.Ranking

/-!
# Rows of turns

A row keeps everything of a turn but its embedding (`toTurn_ofTurn`), provided that the turn is
*storable*: its time has a year of four digits, and its importance is a finite number other than the
negative zero, which a row gives back as zero. Rows are in the order of their times although they are
compared by the stored texts (`createdAt_lt_iff`, `ascending_map_ofTurn`).
-/

namespace TieredMemory

/-- A turn that a row gives back. -/
structure Turn.Storable (t : Turn) : Prop where
  dated : Moment.IsDated t.createdAt
  finite : t.importance.isFinite = true
  signed : t.importance ≠ -0.0

/-- The turn without its embedding. -/
def Turn.plain (t : Turn) : Turn := { t with embedding := none }

@[simp] theorem Turn.plain_id (t : Turn) : t.plain.id = t.id := rfl

@[simp] theorem Turn.plain_user (t : Turn) : t.plain.user = t.user := rfl

theorem Role.ofName?_name (r : Role) : Role.ofName? r.name = some r := by
  cases r <;> rfl

/-- Stored flags are read back. -/
theorem Flags.ofStored_stored (f : Flags) : Flags.ofStored f.stored = f := by
  unfold Flags.ofStored Flags.stored
  rw [Json.read?_writtenBools]
  simp [Json.boolMembers, Json.assign, Json.lookup?]

/-- Stored entities are read back. -/
theorem entitiesOfStored_writtenStrings (xs : List String) :
    entitiesOfStored (Json.writtenStrings xs) = xs := by
  unfold entitiesOfStored
  rw [Json.read?_writtenStrings]
  simp only [List.filterMap_map]
  exact List.filterMap_some

namespace Row

variable {s t : Turn}

@[simp] theorem ofTurn_id (t : Turn) : (ofTurn t).id = t.id := rfl

@[simp] theorem ofTurn_user (t : Turn) : (ofTurn t).user = t.user := rfl

@[simp] theorem ofTurn_conversation (t : Turn) : (ofTurn t).conversation = t.conversation := rfl

@[simp] theorem toTurn_id (r : Row) : r.toTurn.id = r.id := rfl

@[simp] theorem toTurn_user (r : Row) : r.toTurn.user = r.user := rfl

theorem importance_ofTurn (h : t.Storable) : (ofTurn t).importance = some t.importance := by
  show (if t.importance.isNaN then none else some t.importance) = some t.importance
  rw [Number.isNaN_of_isFinite h.finite]
  rfl

/-- A row gives its turn back without the embedding. -/
theorem toTurn_ofTurn (h : t.Storable) : (ofTurn t).toTurn = t.plain := by
  have htime : ((Moment.ofStored? (ofTurn t).createdAt).map Moment.toTime).getD 0 = t.createdAt :=
    Moment.time_ofStored?_stored h.dated
  have himportance : (if (ofTurn t).importance.getD 0 == 0 then 0 else
      (ofTurn t).importance.getD 0) = t.importance := by
    rw [importance_ofTurn h, Option.getD_some]
    split
    · next hzero =>
      have := Number.eq_zero_of_beq (Number.isNaN_of_isFinite h.finite) hzero
      exact (this.resolve_right h.signed).symm
    · rfl
  unfold toTurn
  rw [htime, himportance]
  simp only [ofTurn, Role.ofName?_name, Option.getD_some, Flags.ofStored_stored,
    entitiesOfStored_writtenStrings, Turn.plain]

theorem createdAt_lt_iff (hs : Moment.IsDated s.createdAt) (ht : Moment.IsDated t.createdAt) :
    (ofTurn s).createdAt < (ofTurn t).createdAt ↔ s.createdAt < t.createdAt :=
  Moment.stored_lt_iff hs ht

/-- Sorting rows by the stored texts is sorting their turns by the times. -/
theorem ascending_map_ofTurn {ts : List Turn} (h : ∀ t ∈ ts, Moment.IsDated t.createdAt) :
    ascending (fun r s => decide (r.createdAt < s.createdAt)) (ts.map ofTurn) =
      (ascending (fun s t => decide (s.createdAt < t.createdAt)) ts).map ofTurn := by
  refine (map_ascending _ fun s hs t ht => ?_).symm
  rw [decide_eq_decide, createdAt_lt_iff (h s hs) (h t ht)]

theorem map_toTurn_map_ofTurn {ts : List Turn} (h : ∀ t ∈ ts, t.Storable) :
    (ts.map ofTurn).map toTurn = ts.map Turn.plain := by
  rw [List.map_map]
  exact List.map_congr_left fun t ht => toTurn_ofTurn (h t ht)

end Row

/-- A turn of a user with the given identifier at the given time. -/
def note (user id : String) (time : Time) : Turn where
  id := id
  user := user
  conversation := "c"
  role := .assistant
  text := "a note"
  createdAt := time
  importance := 0.5
  flags := ⟨true, false, true⟩
  entities := ["a \"quoted\" name", "naïve 😀"]
  embedding := none

theorem storable_note (user id : String) {time : Time} (h : Moment.IsDated time) :
    (note user id time).Storable :=
  ⟨h, (by decide : (0.5 : Float).isFinite = true), (by decide : (0.5 : Float) ≠ -0.0)⟩

end TieredMemory
