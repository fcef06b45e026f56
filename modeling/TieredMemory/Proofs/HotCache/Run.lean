import Mathlib.Data.List.Induction
import TieredMemory.HotCache

/-!
# Runs of the hot cache

A run is a list of events: something is asked of the cache, and the clock shows some times meanwhile.
An event that is refused changes nothing. No event changes the settings of a cache.
-/

namespace TieredMemory.HotCache

/-- What may be asked of a cache. -/
inductive Action where
  /-- Add a turn to a conversation of a user. -/
  | add (user conversation : String) (turn : Turn)
  /-- Read the latest turns of a conversation. -/
  | recent (user conversation : String) (limit : Int)
  /-- Forget a conversation. -/
  | clear (user conversation : String)
  /-- Remove the turn with the identifier. -/
  | remove (id : String)
  /-- Forget all conversations of a user. -/
  | deleteUser (user : String)
  /-- Sweep. -/
  | sweep

/-- Something that is asked of a cache, with what the clock shows in the course of it. -/
structure Event where
  clock : Readings
  action : Action

/-- The times that the clock shows, in the order in which it is read. -/
def Readings.times (clock : Readings) : List Time := [clock.touch, clock.due, clock.sweep]

/-- The times that the clock shows in the course of an event. -/
def Event.times (e : Event) : List Time := e.clock.times

/-- An event during which the clock stands still. -/
def Event.still (now : Time) (action : Action) : Event := ⟨.still now, action⟩

/-- A new cache. -/
def opened (capacity : Nat) (ttl : Duration) (maxBuckets : Nat) (sweepInterval : Duration)
    (now : Time) : HotCache :=
  { capacity, ttl, maxBuckets, sweepInterval, lastSweep := now }

/-- The cache after an event. -/
def after (c : HotCache) (e : Event) : HotCache :=
  match e.action with
  | .add user conversation t => (c.addAt e.clock user conversation t).toOption.getD c
  | .recent user conversation limit =>
    ((c.recentAt e.clock.touch user conversation limit).toOption.map Prod.snd).getD c
  | .clear user conversation => c.clear ⟨user, conversation⟩
  | .remove id => (c.remove id).2
  | .deleteUser user => (c.deleteUser user).2
  | .sweep => (c.sweep e.clock.sweep).2

/-- The cache after a list of events. -/
def run (c : HotCache) (es : List Event) : HotCache := es.foldl after c

@[simp] theorem run_nil (c : HotCache) : c.run [] = c := rfl

theorem run_concat (c : HotCache) (es : List Event) (e : Event) :
    c.run (es ++ [e]) = (c.run es).after e := by simp [run]

/-- A turn about which nothing matters but the identifier and the importance. -/
def bareTurn (id : String) (importance : Float) : Turn :=
  { id, user := "u", conversation := "a", role := .user, text := "", createdAt := 0, importance
    flags := ⟨false, false, false⟩, entities := [], embedding := none }

/-! ### Refused events -/

/-- The place of valid identifiers. -/
def validPlace? (user conversation : String) : Option Place := (checkPlace user conversation).toOption

theorem after_add (c : HotCache) (clock : Readings) (user conversation : String) (t : Turn) :
    c.after ⟨clock, .add user conversation t⟩ =
      ((validPlace? user conversation).map fun p => c.add clock p t).getD c := by
  simp only [after, addAt, validPlace?]
  cases checkPlace user conversation <;> rfl

theorem after_recent (c : HotCache) (clock : Readings) (user conversation : String) (limit : Int) :
    c.after ⟨clock, .recent user conversation limit⟩ = c ∨
      ∃ p n, c.after ⟨clock, .recent user conversation limit⟩ =
        (c.recent clock.touch p n).2 := by
  simp only [after, recentAt]
  cases checkPlace user conversation with
  | error => exact .inl rfl
  | ok p =>
    cases checkLimit "n" limit with
    | error => exact .inl rfl
    | ok n => exact .inr ⟨p, n, rfl⟩

/-- What an event can do to a cache: nothing, or one operation. -/
theorem after_cases (c : HotCache) (e : Event) :
    c.after e = c ∨ (∃ p t, c.after e = c.add e.clock p t) ∨
      (∃ p n, c.after e = (c.recent e.clock.touch p n).2) ∨ (∃ q, c.after e = c.dropWhere q) ∨
      (∃ id, c.after e = (c.remove id).2) ∨ c.after e = (c.sweep e.clock.sweep).2 := by
  obtain ⟨clock, action⟩ := e
  cases action with
  | add user conversation t =>
    rw [after_add]
    cases validPlace? user conversation with
    | none => exact .inl rfl
    | some p => exact .inr (.inl ⟨p, t, rfl⟩)
  | recent user conversation limit =>
    rcases after_recent c clock user conversation limit with h | ⟨p, n, h⟩
    · exact .inl h
    · exact .inr (.inr (.inl ⟨p, n, h⟩))
  | clear => exact .inr (.inr (.inr (.inl ⟨_, rfl⟩)))
  | remove id => exact .inr (.inr (.inr (.inr (.inl ⟨id, rfl⟩))))
  | deleteUser => exact .inr (.inr (.inr (.inl ⟨_, rfl⟩)))
  | sweep => exact .inr (.inr (.inr (.inr (.inr rfl))))

/-! ### Settings -/

/-- What is set when a cache is opened. -/
def settings (c : HotCache) : Nat × Duration × Nat × Duration :=
  (c.capacity, c.ttl, c.maxBuckets, c.sweepInterval)

theorem settings_sweep (now : Time) (c : HotCache) : (c.sweep now).2.settings = c.settings := rfl

theorem settings_remove (id : String) (c : HotCache) : (c.remove id).2.settings = c.settings := by
  unfold remove
  split
  · rfl
  · split <;> rfl

theorem settings_withoutElsewhere (id : String) (p : Place) (c : HotCache) :
    (c.withoutElsewhere id p).settings = c.settings := by
  unfold withoutElsewhere
  split
  · rfl
  · exact settings_remove id c

theorem settings_write (now : Time) (p : Place) (t : Turn) (c : HotCache) :
    (c.write now p t).settings = c.settings := settings_withoutElsewhere t.id p c

theorem settings_add (clock : Readings) (p : Place) (t : Turn) (c : HotCache) :
    (c.add clock p t).settings = c.settings := by
  unfold add sweepIfDue
  split
  · exact (settings_sweep _ _).trans (settings_write clock.touch p t c)
  · exact settings_write clock.touch p t c

theorem settings_recent (now : Time) (p : Place) (n : Nat) (c : HotCache) :
    (c.recent now p n).2.settings = c.settings := by
  unfold recent
  split
  · rfl
  · split <;> rfl

theorem settings_after (c : HotCache) (e : Event) : (c.after e).settings = c.settings := by
  rcases after_cases c e with h | ⟨p, t, h⟩ | ⟨p, n, h⟩ | ⟨q, h⟩ | ⟨id, h⟩ | h <;> rw [h]
  · exact settings_add ..
  · exact settings_recent ..
  · rfl
  · exact settings_remove ..
  · rfl

theorem settings_run (c : HotCache) (es : List Event) : (c.run es).settings = c.settings := by
  induction es using List.reverseRecOn with
  | nil => rfl
  | append_singleton es e ih => rw [run_concat, settings_after, ih]

end TieredMemory.HotCache
