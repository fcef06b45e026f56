import TieredMemory.Keyed
import TieredMemory.Order
import TieredMemory.Validation

/-!
# The hot cache

The latest turns of each conversation, in buckets of bounded size. A bucket that overflows gives up
its least important turn, the oldest of several. Buckets are kept in the order of their latest
touch; a *sweep* drops those that have been idle for too long, then the least recently touched ones
beyond a number. Sweeps happen on request and, at most once in an interval, when a turn is added. An
index from the identifier of a turn to its bucket finds a turn without a search.

An operation reads the clock as often as it needs the time, and the clock may move in between.
-/

namespace TieredMemory

/-- The turns of one conversation. -/
structure Bucket where
  place : Place
  turns : List Turn
  lastTouched : Time

/-- Buckets of recent turns. -/
structure HotCache where
  /-- The greatest number of turns in a bucket. -/
  capacity : Nat := 10
  /-- The longest time that a bucket may be idle. -/
  ttl : Duration := 86400000000
  /-- The greatest number of buckets. -/
  maxBuckets : Nat := 10000
  /-- The least time between sweeps that come with additions. -/
  sweepInterval : Duration := 300000000
  /-- The buckets, least recently touched first. -/
  buckets : List Bucket := []
  /-- Where each turn is. -/
  index : List (String × Place) := []
  lastSweep : Time := 0

namespace HotCache

/-- What the clock shows in the course of an operation. -/
structure Readings where
  /-- When the operation touches a bucket. -/
  touch : Time
  /-- When it asks whether a sweep is due. -/
  due : Time
  /-- When it sweeps. -/
  sweep : Time

/-- A clock that stands still meanwhile. -/
def Readings.still (now : Time) : Readings := ⟨now, now, now⟩

instance : Coe Time Readings := ⟨Readings.still⟩

/-! ### One bucket -/

/-- Less important, or as important and older. -/
def isLesser (a b : Turn) : Bool :=
  floatThen a.importance b.importance (a.createdAt < b.createdAt)

/-- The turns without the first of the least ones. -/
def withoutLeast : List Turn → List Turn
  | [] => []
  | t :: r => (t :: r).eraseP fun x => x.id == (leastFrom isLesser t r).id

/-- Give up least turns until no more than `capacity` are left. -/
def evict (capacity : Nat) (turns : List Turn) : List Turn :=
  Nat.repeat withoutLeast (turns.length - capacity) turns

/-- The turns with `t` as the latest one, in the place of any turn with its identifier. -/
def withTurn (t : Turn) (turns : List Turn) : List Turn :=
  turns.filter (fun x => x.id ≠ t.id) ++ [t]

/-- The turns in order of time. -/
def inOrder (turns : List Turn) : List Turn :=
  ascending (fun a b => a.createdAt < b.createdAt) turns

/-! ### Buckets and index -/

/-- The bucket at a place. -/
def bucket? (c : HotCache) (p : Place) : Option Bucket := Keyed.find? Bucket.place p c.buckets

/-- The turns in the bucket at a place. -/
def turnsAt (p : Place) (c : HotCache) : List Turn := ((c.bucket? p).map Bucket.turns).getD []

/-- The place of the turn with the identifier. -/
def placeOf? (c : HotCache) (id : String) : Option Place :=
  (Keyed.find? Prod.fst id c.index).map (·.2)

/-- The index without the identifiers of the turns. -/
def withoutEntries (turns : List Turn) (index : List (String × Place)) : List (String × Place) :=
  index.filter fun e => turns.all fun t => t.id ≠ e.1

/-- Put a bucket at the end of the order, touched now. -/
def touch (now : Time) (b : Bucket) (buckets : List Bucket) : List Bucket :=
  Keyed.remove Bucket.place b.place buckets ++ [{ b with lastTouched := now }]

/-- Drop the buckets that satisfy `p`, with the entries of their turns. -/
def dropWhere (p : Bucket → Bool) (c : HotCache) : HotCache :=
  { c with
    buckets := c.buckets.filter fun b => !p b
    index := withoutEntries ((c.buckets.filter p).map Bucket.turns).flatten c.index }

/-- Drop the first `n` buckets, with the entries of their turns. -/
def dropFirst (n : Nat) (c : HotCache) : HotCache :=
  { c with
    buckets := c.buckets.drop n
    index := withoutEntries ((c.buckets.take n).map Bucket.turns).flatten c.index }

/-! ### Operations -/

/-- Remove the turn with the identifier, and say whether there was one. Its bucket stays. -/
def remove (id : String) (c : HotCache) : Bool × HotCache :=
  match c.placeOf? id with
  | none => (false, c)
  | some p =>
    match c.bucket? p with
    | none => (false, c)
    | some b =>
      (b.turns.any (·.id == id),
        { c with
          buckets := Keyed.update Bucket.place p
            (fun b => { b with turns := b.turns.filter fun t => t.id ≠ id }) c.buckets
          index := Keyed.remove Prod.fst id c.index })

/-- The bucket has been idle for longer than `ttl`. -/
def isExpired (ttl : Duration) (now : Time) (b : Bucket) : Bool := now - b.lastTouched > ttl

/-- Drop the buckets that have been idle for longer than `ttl`, then the least recently touched ones
beyond `maxBuckets`, and count the dropped ones. -/
def sweep (now : Time) (c : HotCache) : Nat × HotCache :=
  let expired := c.buckets.filter (isExpired c.ttl now)
  let fresh := { c with lastSweep := now }.dropWhere (isExpired c.ttl now)
  let overflow := fresh.buckets.length - c.maxBuckets
  (expired.length + overflow, fresh.dropFirst overflow)

/-- Sweep if the interval since the last sweep is over. -/
def sweepIfDue (clock : Readings) (c : HotCache) : HotCache :=
  if clock.due - c.lastSweep ≥ c.sweepInterval then (c.sweep clock.sweep).2 else c

/-- Put a turn into the bucket of a place, in the place of any turn with its identifier. -/
def insert (now : Time) (p : Place) (t : Turn) (c : HotCache) : HotCache :=
  let all := withTurn t (c.turnsAt p)
  let kept := evict c.capacity all
  let evicted := all.filter fun x => kept.all fun y => y.id ≠ x.id
  { c with
    buckets := touch now ⟨p, kept, now⟩ c.buckets
    index := withoutEntries evicted (Keyed.put Prod.fst (t.id, p) c.index) }

/-- The cache without the turn with the identifier, unless that one is at the place. -/
def withoutElsewhere (id : String) (p : Place) (c : HotCache) : HotCache :=
  if (c.placeOf? id).all (· == p) then c else (c.remove id).2

/-- Write a turn into the bucket of a place. A turn with its identifier in another bucket is removed
from there. -/
def write (now : Time) (p : Place) (t : Turn) (c : HotCache) : HotCache :=
  (c.withoutElsewhere t.id p).insert now p t

/-- Write a turn into the bucket of a place, and sweep if that is due. -/
def add (clock : Readings) (p : Place) (t : Turn) (c : HotCache) : HotCache :=
  (c.write clock.touch p t).sweepIfDue clock

/-- The last `n` turns of a bucket in order of time. Asking for some touches the bucket. -/
def recent (now : Time) (p : Place) (n : Nat) (c : HotCache) : List Turn × HotCache :=
  match c.bucket? p with
  | none => ([], c)
  | some b =>
    if n = 0 then ([], c)
    else (lastOf n (inOrder b.turns), { c with buckets := touch now b c.buckets })

/-- Add a turn to the bucket of a valid place. -/
def addAt (clock : Readings) (user conversation : String) (t : Turn) (c : HotCache) :
    Except Rejection HotCache :=
  (checkPlace user conversation).map fun p => c.add clock p t

/-- The last turns of the bucket of a valid place in order of time. -/
def recentAt (now : Time) (user conversation : String) (limit : Int) (c : HotCache) :
    Except Rejection (List Turn × HotCache) := do
  let p ← checkPlace user conversation
  let n ← checkLimit "n" limit
  return c.recent now p n

/-- Drop the bucket of a place. -/
def clear (p : Place) (c : HotCache) : HotCache := c.dropWhere fun b => b.place == p

/-- Drop the buckets of a user, and count them. -/
def deleteUser (user : String) (c : HotCache) : Nat × HotCache :=
  ((c.buckets.filter fun b => b.place.user == user).length,
    c.dropWhere fun b => b.place.user == user)

end HotCache

end TieredMemory
