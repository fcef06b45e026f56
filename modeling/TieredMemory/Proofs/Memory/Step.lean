import Mathlib.Logic.Relation
import TieredMemory.Memory.Operations
import TieredMemory.Proofs.Validation

/-!
# What a step of the memory can be

Whatever the memory is asked for and whatever goes on in its background, it does in steps: one
change of one tier, or of a turn in the cache and the archive. A *licence* says for which users and
for which turns something new may come in; the other steps use, order or take away what is there.
What holds of every step holds of every call, and of every order in which calls and the background
may take their steps.
-/

namespace TieredMemory

/-- What may come into the memory: something of these users, and turns with these identifiers. -/
structure Licence where
  user : String → Prop
  turn : String → Prop

namespace Licence

/-- Everything may come in. -/
def free : Licence := ⟨fun _ => True, fun _ => True⟩

/-- Nothing of the user comes in. -/
def sparing (user : String) : Licence := ⟨(· ≠ user), fun _ => True⟩

/-- The turn does not come in. -/
def without (id : String) : Licence := ⟨fun _ => True, (· ≠ id)⟩

/-- Only something of the user comes in, and no turn. -/
def only (user : String) : Licence := ⟨(· = user), fun _ => False⟩

/-- Whatever one licence lets in, the other does. -/
def Le (L L' : Licence) : Prop := (∀ u, L.user u → L'.user u) ∧ ∀ i, L.turn i → L'.turn i

theorem only_le {L : Licence} {user : String} (hu : L.user user) : (only user).Le L :=
  ⟨fun _ h => h ▸ hu, fun _ h => h.elim⟩

end Licence

namespace Memory

/-- One step. -/
inductive Step (L : Licence) (m : Memory) : Memory → Prop where
  /-- The world changes, as it does with every call of a collaborator. -/
  | world (w : World) : Step L m { m with world := w }
  | scheduler (s : Scheduler Chore) : Step L m { m with scheduler := s }
  | background (es : List Enrichment) (h : ∀ e ∈ es, L.user e.turn.user) :
    Step L m { m with background := es }
  /-- Consolidations are set going, started, and ended. -/
  | consolidations (guards : List (String × Nat)) (held : List Nat) (guardCount : Nat)
    (background : List Consolidation) :
    Step L m { m with patterns := { m.patterns with guards, held, guardCount, background } }
  | sweep (now : Time) : Step L m { m with cache := (m.cache.sweep now).2 }
  | recent (now : Time) (p : Place) (n : Nat) :
    Step L m { m with cache := (m.cache.recent now p n).2 }
  | prune (now : Time) (user : String) : Step L m { m with facts := (m.facts.prune now user).2 }
  | findFacts (now : Time) (user query : String) (embedding : Option Embedding) (n : Nat) :
    Step L m { m with facts := (m.facts.find now user query embedding n).2 }
  | consolidate (user : String) : Step L m { m with patterns := (m.patterns.consolidate user).2 }
  | applyPattern (now : Time) (user query : String) (embedding : Option Embedding) :
    Step L m { m with patterns := (m.patterns.apply now user query embedding).2 }
  | remove (p : Place) (id : String) (isCached : Bool) : Step L m (m.removeTurn p id isCached).2
  | erase (user : String) : Step L m (m.deleteFromTiers user).2
  | forgetUser (user : String) :
    Step L m { m with
      scorer := m.scorer.forget user
      states := m.states.filter fun s => s.place.user ≠ user }
  | close : Step L m { m with archive := m.archive.close }
  /-- The entities of a turn count as seen. -/
  | rate (now : Time) (sentiment : Float) (t : Turn) (h : L.user t.user) :
    Step L m { m with scorer := (m.scorer.score now sentiment t).2 }
  /-- A turn is put into the cache and the archive. -/
  | place (p : Place) (t : Turn) (hp : t.place = p) (hv : (checkUser p.user).isOk = true)
    (hu : L.user p.user) (ht : L.turn t.id) : Step L m (m.place p t).2
  /-- The state of a conversation changes. -/
  | note (p : Place) (f : ConversationState → ConversationState) (hf : ∀ s, (f s).place = s.place)
    (hu : L.user p.user) : Step L m (m.changeState p f)
  | storeFacts (user : String) (fs : List Fact) (hu : L.user user) :
    Step L m { m with facts := (m.facts.insertAll user fs).2 }
  | storePattern (mergeAlike : Bool) (p : Pattern) (hu : L.user p.user) :
    Step L m { m with patterns := (m.patterns.insert mergeAlike p).2 }

/-- Any number of steps. -/
def Reach (L : Licence) : Memory → Memory → Prop := Relation.ReflTransGen (Step L)

/-- The users of all enrichments in the background are permitted. -/
def Queued (L : Licence) (m : Memory) : Prop := ∀ e ∈ m.background, L.user e.turn.user

theorem queued_free (m : Memory) : Queued .free m := fun _ _ => trivial

section

variable {L L' : Licence} {m m' m'' : Memory}

theorem Step.mono (h : L.Le L') (hs : Step L m m') : Step L' m m' := by
  cases hs with
  | background es hes => exact .background es fun e he => h.1 _ (hes e he)
  | rate now sentiment t hu => exact .rate now sentiment t (h.1 _ hu)
  | place p t hp hv hu ht => exact .place p t hp hv (h.1 _ hu) (h.2 _ ht)
  | note p f hf hu => exact .note p f hf (h.1 _ hu)
  | storeFacts user fs hu => exact .storeFacts user fs (h.1 _ hu)
  | storePattern mergeAlike p hu => exact .storePattern mergeAlike p (h.1 _ hu)
  | _ => constructor

namespace Reach

theorem refl (L : Licence) (m : Memory) : Reach L m m := Relation.ReflTransGen.refl

theorem trans (h : Reach L m m') (h' : Reach L m' m'') : Reach L m m'' :=
  Relation.ReflTransGen.trans h h'

theorem step (h : Step L m m') : Reach L m m' := Relation.ReflTransGen.single h

theorem mono (h : L.Le L') (hr : Reach L m m') : Reach L' m m' :=
  Relation.ReflTransGen.mono (fun _ _ => Step.mono h) _ _ hr

/-- What every step preserves. -/
theorem induction {motive : Memory → Prop} (step : ∀ m m', Step L m m' → motive m → motive m')
    (hr : Reach L m m') (h : motive m) : motive m' := by
  induction hr with
  | refl => exact h
  | tail _ hs ih => exact step _ _ hs ih

end Reach

theorem background_removeTurn (p : Place) (id : String) (isCached : Bool) (m : Memory) :
    (m.removeTurn p id isCached).2.background = m.background := by
  unfold removeTurn
  simp only
  split <;> rfl

theorem background_deleteFromTiers (user : String) (m : Memory) :
    (m.deleteFromTiers user).2.background = m.background := by
  unfold deleteFromTiers
  simp only
  split <;> rfl

theorem background_place (p : Place) (t : Turn) (m : Memory) :
    (m.place p t).2.background = m.background := by
  unfold place
  split <;> rfl

/-- No step but one changes what waits in the background, and that one respects the licence. -/
theorem Step.queued (hs : Step L m m') (h : Queued L m) : Queued L m' := by
  cases hs with
  | background es hes => exact hes
  | remove p id isCached => rwa [Queued, background_removeTurn]
  | erase user => rwa [Queued, background_deleteFromTiers]
  | place p t => rwa [Queued, background_place]
  | _ => exact h

theorem Reach.queued (hr : Reach L m m') (h : Queued L m) : Queued L m' :=
  hr.induction (fun _ _ => Step.queued) h

end

end Memory

end TieredMemory
