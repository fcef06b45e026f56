import TieredMemory.Proofs.Isolation.Waiting
import TieredMemory.Proofs.Memory.Activity
import TieredMemory.Proofs.Pattern.Learning

/-!
# Users of a pattern store: the requests

A request of a user reads and writes the user's patterns and may set a consolidation of these going.
So where one store has what is the user's in another one, the two give the user the same responses
(`Mirrors.own`), and a request of another user need not be made of both (`Mirrors.other`). Nothing
has to be said about identifiers, since patterns are kept by user and identifier.
-/

namespace TieredMemory

namespace Detection

theorem user_ofCandidates (user : String) (cs : List Candidate) (w : World) :
    ∀ p ∈ (ofCandidates user cs w).1, p.user = user := by
  induction cs generalizing w with
  | nil => simp [ofCandidates]
  | cons c r ih =>
    rw [ofCandidates]
    split
    · exact ih w
    · exact List.forall_mem_cons.2 ⟨rfl, ih _⟩

theorem user_ofOutcome (user : String) (text : Option String)
    (outcome : Except Fault Json.Value) (w : World) :
    ∀ p ∈ (ofOutcome user text outcome w).1, p.user = user := by
  unfold ofOutcome
  split
  · exact user_ofCandidates user _ w
  · exact Activity.user_byMarkers user text _

end Detection

namespace PatternStore

/-! ### Requests -/

/-- What a user may ask of the store. -/
inductive Request where
  | store (p : Pattern) (mergeAlike : Bool)
  /-- Storing goes on after the triggers have been embedded. -/
  | insert (p : Pattern) (mergeAlike : Bool)
  | matchQuery (user query : String)
  /-- A match goes on after the query has been embedded. -/
  | apply (user query : String) (embedding : Option Embedding)
  | consolidate (user : String)
  /-- A message is learned from after the completer, if there is one, has given its answer. -/
  | learn (user : String) (text : Option String) (answer : Option (Except Fault Json.Value))
  | list (user : String)
  | deleteUser (user : String)

/-- What the store responds with. -/
inductive Response where
  | stored (p : Except Rejection Pattern)
  | found (p : Except Fault (Option Pattern))
  | consolidated (merges : Nat)
  | learned (ps : Except Rejection (List Pattern))
  | listed (ps : Except Rejection (List Pattern))
  | removed (n : Nat)

/-- The user who asks. -/
def Request.user : Request → String
  | store p _ => p.user
  | insert p _ => p.user
  | matchQuery user _ => user
  | apply user .. => user
  | consolidate user => user
  | learn user .. => user
  | list user => user
  | deleteUser user => user

/-- Detect the patterns of a user's message and store them, after the completer, if there is one, has
given its answer. -/
def learnAfter (user : String) (text : Option String) (answer : Option (Except Fault Json.Value))
    (s : PatternStore) (w : World) : List Pattern × PatternStore × World :=
  match answer with
  | none => s.learnByMarkers user text w
  | some outcome => s.learnFromOutcome user text outcome w

/-- Learning from a message waits for the completer and then does the rest. -/
theorem learnFrom_eq (user : String) (text : Option String) (s : PatternStore) (w : World) :
    s.learnFrom user text w = (checkUser user).map fun _ =>
      match w.complete? (Detection.prompt text) with
      | none => s.learnAfter user text none w
      | some (reply, w) =>
        let (s, w) := if reply.delay > 0 then s.wait reply.delay w else (s, w)
        s.learnAfter user text (some reply.outcome) w := rfl

/-- The response to a request in a world, and the store afterwards. -/
def respond (w : World) (s : PatternStore) : Request → Response × PatternStore
  | .store p mergeAlike =>
    match s.store p mergeAlike w with
    | .ok (p, s, _) => (.stored (.ok p), s)
    | .error why => (.stored (.error why), s)
  | .insert p mergeAlike => (.stored (.ok (s.insert mergeAlike p).1), (s.insert mergeAlike p).2)
  | .matchQuery user query =>
    (.found (s.matchQuery user query w).1, (s.matchQuery user query w).2.1)
  | .apply user query embedding =>
    (.found (s.apply w.now user query embedding).1, (s.apply w.now user query embedding).2)
  | .consolidate user => (.consolidated (s.consolidate user).1, (s.consolidate user).2)
  | .learn user text answer =>
    match checkUser user with
    | .error why => (.learned (.error why), s)
    | .ok _ =>
      (.learned (.ok (s.learnAfter user text answer w).1), (s.learnAfter user text answer w).2.1)
  | .list user => (.listed (s.list user), s)
  | .deleteUser user => (.removed (s.deleteUser user).1, (s.deleteUser user).2)

/-! ### What does not depend on the store -/

variable {u v : String} {ρ : Nat → Nat} {s s' : PatternStore} {p : Pattern}

/-- A pattern is refused, or it is put into the store with its triggers embedded; the store has no
part in this. -/
theorem store_cases (p : Pattern) (mergeAlike : Bool) (w : World) :
    (∃ why, ∀ s : PatternStore, s.store p mergeAlike w = .error why) ∨
      ∃ w', ∀ s : PatternStore, s.store p mergeAlike w =
        .ok ((s.insert mergeAlike (embedded p w)).1, (s.insert mergeAlike (embedded p w)).2, w') := by
  cases hp : check p with
  | error why =>
    refine .inl ⟨why, fun s => ?_⟩
    simp only [store, hp, bind, Except.bind]
  | ok _ =>
    refine .inr ⟨(embedTriggers p.user p.triggers w).2, fun s => ?_⟩
    simp only [store, hp, bind, Except.bind, pure, Except.pure, embedded]

theorem respond_store (p : Pattern) (mergeAlike : Bool) (s : PatternStore) (w : World) :
    s.respond w (.store p mergeAlike) =
      match s.store p mergeAlike w with
      | .ok (p, s, _) => (.stored (.ok p), s)
      | .error why => (.stored (.error why), s) := by
  rfl

theorem respond_learn (v : String) (text : Option String) (answer : Option (Except Fault Json.Value))
    (s : PatternStore) (w : World) :
    s.respond w (.learn v text answer) =
      match checkUser v with
      | .error why => (.learned (.error why), s)
      | .ok _ =>
        (.learned (.ok (s.learnAfter v text answer w).1), (s.learnAfter v text answer w).2.1) := by
  rfl

/-- What is detected belongs to the user. -/
theorem learnAfter_inv (v : String) (text : Option String)
    (answer : Option (Except Fault Json.Value)) (w : World) :
    ∃ ps w', (∀ p ∈ ps, p.user = v) ∧
      ∀ s : PatternStore, s.learnAfter v text answer w = s.learn v ps w' := by
  cases answer with
  | none =>
    have husers := Activity.user_byMarkers v text w
    simp only [learnAfter, learnByMarkers]
    generalize Detection.byMarkers v text w = found at husers
    exact ⟨found.1, found.2, husers, fun _ => rfl⟩
  | some outcome =>
    have husers := Detection.user_ofOutcome v text outcome w
    simp only [learnAfter, learnFromOutcome]
    generalize Detection.ofOutcome v text outcome w = found at husers
    exact ⟨found.1, found.2, husers, fun _ => rfl⟩

theorem recordMatch_eq (now : Time) (p : Pattern) (s : PatternStore) :
    s.recordMatch now p =
      if s.consolidationEvery = 0 then (.error .zeroCadence, s.withUse now p)
      else if (p.recordUsage s.policy now).usage % s.consolidationEvery = 0 then
        (.ok (p.recordUsage s.policy now), (s.withUse now p).schedule p.user)
      else (.ok (p.recordUsage s.policy now), s.withUse now p) := rfl

theorem ofUser_deleteUser (v : String) (s : PatternStore) :
    (s.deleteUser v).2.ofUser u = (s.ofUser u).filter fun p => p.user ≠ v := by
  unfold deleteUser ofUser
  rw [List.filter_filter, List.filter_filter]
  simp only [Bool.and_comm]

namespace MirrorsBy

/-! ### Storing -/

theorem withoutLeast (h : MirrorsBy u ρ s s') :
    MirrorsBy u ρ (s.withoutLeast u) (s'.withoutLeast u) := by
  refine h.of_patterns (withoutLeast_inv u s) (withoutLeast_inv u s') ?_
  unfold PatternStore.withoutLeast
  rw [h.patterns]
  cases hof : s'.ofUser u with
  | nil => exact h.patterns
  | cons p r =>
    refine (ofUser_remove _ _ s).trans (.trans ?_ (ofUser_remove _ _ s').symm)
    rw [h.patterns]

theorem evict (h : MirrorsBy u ρ s s') : MirrorsBy u ρ (s.evict u) (s'.evict u) := by
  unfold PatternStore.evict
  rw [h.patterns, h.capacity]
  generalize (s'.ofUser u).length - s'.capacity = n
  induction n with
  | zero => exact h
  | succ n ih => exact ih.withoutLeast

theorem insert (h : MirrorsBy u ρ s s') (hp : p.user = u) (mergeAlike : Bool) :
    (s.insert mergeAlike p).1 = (s'.insert mergeAlike p).1 ∧
      MirrorsBy u ρ (s.insert mergeAlike p).2 (s'.insert mergeAlike p).2 := by
  have hcounterpart : s.counterpart? p = s'.counterpart? p := by
    unfold counterpart?
    rw [hp, h.patterns]
  unfold PatternStore.insert
  rw [hcounterpart]
  split
  · next q hq =>
    have hq' : s'.counterpart? p = some q := by
      split at hq
      · exact hq
      · cases hq
    rw [h.policy]
    rcases hr : Pattern.ranked q p with ⟨survivor, loser⟩
    obtain ⟨hsurvivor, hloser⟩ :=
      ranked_users hr (user_of_mem_ofUser p.user s' (mem_of_counterpart? hq').1)
    have husers : (survivor.merge s'.policy loser).user = loser.user := by
      rw [Pattern.merge_user, hsurvivor, hloser]
    refine ⟨rfl, h.of_patterns ⟨_, rfl⟩ ⟨_, rfl⟩ ?_⟩
    rw [ofUser_settle husers, ofUser_settle husers, h.patterns]
  · have hput : MirrorsBy u ρ { s with patterns := Keyed.put address p s.patterns }
        { s' with patterns := Keyed.put address p s'.patterns } := by
      refine h.of_patterns ⟨_, rfl⟩ ⟨_, rfl⟩ ?_
      rw [ofUser_put, ofUser_put, h.patterns]
    rw [hp]
    exact ⟨rfl, hput.evict⟩

theorem insert_other (h : MirrorsBy u ρ s s') (hp : p.user ≠ u) (mergeAlike : Bool) :
    MirrorsBy u ρ (s.insert mergeAlike p).2 s' :=
  h.of_patterns (insert_inv mergeAlike p s) ⟨_, rfl⟩
    ((ofUser_insert_of_ne hp mergeAlike).trans h.patterns)

theorem learn (h : MirrorsBy u ρ s s') (w : World) {ps : List Pattern}
    (hps : ∀ p ∈ ps, p.user = u) :
    (s.learn u ps w).1 = (s'.learn u ps w).1 ∧
      MirrorsBy u ρ (s.learn u ps w).2.1 (s'.learn u ps w).2.1 := by
  induction ps generalizing s s' w with
  | nil => exact ⟨rfl, h⟩
  | cons p r ih =>
    obtain ⟨hp, hr⟩ := List.forall_mem_cons.1 hps
    rcases store_cases p true w with ⟨why, hstore⟩ | ⟨w', hstore⟩
    · rw [learn_cons, learn_cons, hstore, hstore]
      exact ih h _ hr
    · obtain ⟨hkept, hinsert⟩ := h.insert (p := embedded p w) hp true
      obtain ⟨hlearned, hafter⟩ := ih hinsert w' hr
      rw [learn_cons, learn_cons, hstore, hstore]
      exact ⟨congrArg₂ List.cons hkept hlearned, hafter⟩

theorem learn_other (h : MirrorsBy u ρ s s') (hv : v ≠ u) (w : World) {ps : List Pattern}
    (hps : ∀ p ∈ ps, p.user = v) : MirrorsBy u ρ (s.learn v ps w).2.1 s' := by
  induction ps generalizing s w with
  | nil => exact h
  | cons p r ih =>
    obtain ⟨hp, hr⟩ := List.forall_mem_cons.1 hps
    rcases store_cases p true w with ⟨why, hstore⟩ | ⟨w', hstore⟩
    · rw [learn_cons, hstore]
      exact ih h _ hr
    · rw [learn_cons, hstore]
      exact ih (h.insert_other (p := embedded p w) (hp ▸ hv) true) w' hr

/-! ### Matching -/

theorem withUse (h : MirrorsBy u ρ s s') (now : Time) (p : Pattern) :
    MirrorsBy u ρ (s.withUse now p) (s'.withUse now p) := by
  refine h.of_patterns ⟨_, rfl⟩ ⟨_, rfl⟩ ?_
  rw [ofUser_withUse, ofUser_withUse, h.patterns, h.policy]

theorem withUse_other (h : MirrorsBy u ρ s s') (now : Time) (hp : p.user ≠ u) :
    MirrorsBy u ρ (s.withUse now p) s' := by
  refine h.of_patterns ⟨_, rfl⟩ ⟨_, rfl⟩ ?_
  rw [ofUser_withUse, if_neg hp, h.patterns]

theorem recordMatch (h : MirrorsBy u ρ s s') (now : Time) (hp : p.user = u) :
    (s.recordMatch now p).1 = (s'.recordMatch now p).1 ∧
      ∃ ρ', MirrorsBy u ρ' (s.recordMatch now p).2 (s'.recordMatch now p).2 := by
  have huse := h.withUse now p
  rw [recordMatch_eq, recordMatch_eq, h.consolidationEvery, h.policy, hp]
  split
  · exact ⟨rfl, ρ, huse⟩
  · split
    · exact ⟨rfl, huse.schedule⟩
    · exact ⟨rfl, ρ, huse⟩

theorem recordMatch_other (h : MirrorsBy u ρ s s') (now : Time) (hp : p.user ≠ u) :
    MirrorsBy u ρ (s.recordMatch now p).2 s' := by
  have huse := h.withUse_other now hp
  rw [recordMatch_eq]
  split
  · exact huse
  · split
    · exact huse.schedule_other hp
    · exact huse

theorem apply (h : MirrorsBy u ρ s s') (now : Time) (query : String)
    (embedding : Option Embedding) :
    (s.apply now u query embedding).1 = (s'.apply now u query embedding).1 ∧
      ∃ ρ', MirrorsBy u ρ' (s.apply now u query embedding).2
        (s'.apply now u query embedding).2 := by
  unfold PatternStore.apply
  rw [h.patterns]
  rcases Pattern.best?_inv query embedding (s'.ofUser u) with
    ⟨p, hp, hbest⟩ | hbest | hbest <;> rw [hbest]
  · obtain ⟨hused, hafter⟩ := h.recordMatch now (user_of_mem_ofUser u s' hp)
    exact ⟨congrArg (Except.map some) hused, hafter⟩
  · exact ⟨rfl, ρ, h⟩
  · exact ⟨rfl, ρ, h⟩

theorem apply_other (h : MirrorsBy u ρ s s') (hv : v ≠ u) (now : Time) (query : String)
    (embedding : Option Embedding) : MirrorsBy u ρ (s.apply now v query embedding).2 s' := by
  rcases apply_inv now v query embedding s with ⟨-, hsame⟩ | ⟨p, hp, hsame, -⟩ <;> rw [hsame]
  · exact h
  · exact h.recordMatch_other now (user_of_mem_ofUser v s hp ▸ hv)

theorem matchQuery (h : MirrorsBy u ρ s s') (query : String) (w : World) :
    (s.matchQuery u query w).1 = (s'.matchQuery u query w).1 ∧
      ∃ ρ', MirrorsBy u ρ' (s.matchQuery u query w).2.1 (s'.matchQuery u query w).2.1 := by
  have hsemantic : s.hasSemanticTriggers u = s'.hasSemanticTriggers u := by
    unfold hasSemanticTriggers
    rw [h.patterns]
  unfold PatternStore.matchQuery
  split
  · exact ⟨rfl, ρ, h⟩
  · unfold lookUp
    rw [h.patterns, hsemantic]
    split
    · exact ⟨rfl, ρ, h⟩
    · rcases (if s'.hasSemanticTriggers u then w.embed u "patterns.match" query else (none, w))
        with ⟨embedding, w'⟩
      exact h.apply w'.now query embedding

theorem matchQuery_other (h : MirrorsBy u ρ s s') (hv : v ≠ u) (query : String) (w : World) :
    MirrorsBy u ρ (s.matchQuery v query w).2.1 s' := by
  rcases matchQuery_inv v query s w with ⟨why, hmatch⟩ | ⟨embedding, w', -, hmatch⟩ <;> rw [hmatch]
  · exact h
  · exact h.apply_other hv w'.now query embedding

/-! ### Forgetting -/

theorem deleteUser (h : MirrorsBy u ρ s s') :
    (s.deleteUser u).1 = (s'.deleteUser u).1 ∧
      MirrorsBy u ρ (s.deleteUser u).2 (s'.deleteUser u).2 := by
  refine ⟨show (s.ofUser u).length = _ from congrArg List.length h.patterns,
    h.unregister.of_patterns ⟨_, rfl⟩ ⟨_, rfl⟩ ?_⟩
  rw [ofUser_deleteUser, ofUser_deleteUser, h.patterns]

theorem deleteUser_other (h : MirrorsBy u ρ s s') (hv : v ≠ u) :
    MirrorsBy u ρ (s.deleteUser v).2 s' :=
  (h.unregister_other hv).of_patterns ⟨_, rfl⟩ ⟨_, rfl⟩
    ((ofUser_deleteUser_of_ne hv).trans h.patterns)

end MirrorsBy

/-! ### Responding -/

/-- The second store has what is the user's in the first, with whatever numbers for the guards. -/
def Mirrors (u : String) (s s' : PatternStore) : Prop := ∃ ρ, MirrorsBy u ρ s s'

namespace Mirrors

/-- A request of the user gets the same response from both stores. -/
theorem own (h : Mirrors u s s') (w : World) {r : Request} (hr : r.user = u) :
    (s.respond w r).1 = (s'.respond w r).1 ∧ Mirrors u (s.respond w r).2 (s'.respond w r).2 := by
  obtain ⟨ρ, h⟩ := h
  cases r with
  | store p mergeAlike =>
    rcases store_cases p mergeAlike w with ⟨why, hstore⟩ | ⟨w', hstore⟩
    · rw [respond_store, respond_store, hstore, hstore]
      exact ⟨rfl, ρ, h⟩
    · obtain ⟨hkept, hafter⟩ := h.insert (p := embedded p w) hr mergeAlike
      rw [respond_store, respond_store, hstore, hstore]
      exact ⟨congrArg (Response.stored ∘ .ok) hkept, ρ, hafter⟩
  | insert p mergeAlike =>
    obtain ⟨hkept, hafter⟩ := h.insert hr mergeAlike
    exact ⟨congrArg (Response.stored ∘ .ok) hkept, ρ, hafter⟩
  | matchQuery v query =>
    obtain rfl : v = u := hr
    exact (h.matchQuery query w).imp_left fun hfound => congrArg Response.found hfound
  | apply v query embedding =>
    obtain rfl : v = u := hr
    exact (h.apply w.now query embedding).imp_left fun hfound => congrArg Response.found hfound
  | consolidate v =>
    obtain rfl : v = u := hr
    obtain ⟨hmerges, hafter⟩ := h.consolidate
    exact ⟨congrArg Response.consolidated hmerges, ρ, hafter⟩
  | learn v text answer =>
    obtain rfl : v = u := hr
    obtain ⟨ps, w', hps, hlearn⟩ := learnAfter_inv v text answer w
    obtain ⟨hlearned, hafter⟩ := h.learn w' hps
    rw [respond_learn, respond_learn]
    simp only [hlearn]
    split
    · exact ⟨rfl, ρ, h⟩
    · exact ⟨congrArg (Response.learned ∘ .ok) hlearned, ρ, hafter⟩
  | list v =>
    obtain rfl : v = u := hr
    have hlist : s.list v = s'.list v := by simp only [list, ranked, h.patterns]
    exact ⟨congrArg Response.listed hlist, ρ, h⟩
  | deleteUser v =>
    obtain rfl : v = u := hr
    obtain ⟨hremoved, hafter⟩ := h.deleteUser
    exact ⟨congrArg Response.removed hremoved, ρ, hafter⟩

/-- A request of another user need not be made of the second store. -/
theorem other (h : Mirrors u s s') (w : World) {r : Request} (hr : r.user ≠ u) :
    Mirrors u (s.respond w r).2 s' := by
  obtain ⟨ρ, h⟩ := h
  refine ⟨ρ, ?_⟩
  cases r with
  | store p mergeAlike =>
    rcases store_cases p mergeAlike w with ⟨why, hstore⟩ | ⟨w', hstore⟩
    · rw [respond_store, hstore]
      exact h
    · rw [respond_store, hstore]
      exact h.insert_other (p := embedded p w) hr mergeAlike
  | insert p mergeAlike => exact h.insert_other hr mergeAlike
  | matchQuery v query => exact h.matchQuery_other hr query w
  | apply v query embedding => exact h.apply_other hr w.now query embedding
  | consolidate v => exact h.consolidate_other hr
  | learn v text answer =>
    obtain ⟨ps, w', hps, hlearn⟩ := learnAfter_inv v text answer w
    rw [respond_learn]
    simp only [hlearn]
    split
    · exact h
    · exact h.learn_other hr w' hps
  | list v => exact h
  | deleteUser v => exact h.deleteUser_other hr

theorem startAll (h : Mirrors u s s') (now : Time) : Mirrors u (s.startAll now) (s'.startAll now) :=
  h.imp fun _ h => h.startAll now

theorem finishDue (h : Mirrors u s s') (w : World) :
    Mirrors u (s.finishDue w.now w).1 (s'.finishDue w.now w).1 :=
  h.imp fun _ h => h.finishDue w.now w w

theorem wait (h : Mirrors u s s') (d : Duration) (w : World) :
    Mirrors u (s.wait d w).1 (s'.wait d w).1 :=
  h.imp fun _ h => h.wait d rfl

theorem waitAll (h : Mirrors u s s') (w : World) :
    Mirrors u (s.waitAll w).1 (s'.waitAll w).1 :=
  h.imp fun _ h => h.waitAll rfl

end Mirrors

end PatternStore

end TieredMemory
