import TieredMemory.Proofs.Isolation.Archive
import TieredMemory.Proofs.Isolation.Facts
import TieredMemory.Proofs.Isolation.Patterns

/-!
# Users do not see each other

A fact store, an archive in memory and a pattern store serve several users. A request finds the world
as it is when its turn comes: the clock, the numbers of new patterns, and collaborators that give it
what they give. Nothing is assumed of an embedder but that it gives the same embedding for the same
request; so a fixed function of the text will do. Between requests the consolidations in the
background start and go to work, by themselves or while they are waited for. A request that has to
wait for a collaborator stands where it goes on, and the time that it takes is waited for before.

If the requests of other users, and with them the consolidations that these set going, are left out
of a run, the user still gets the same responses and still has the same data in the end
(`run_isolated`). An identifier of a fact or of a turn may not be used by two users in the run, since
the stores ask for nothing else where one is given.
-/

namespace TieredMemory

/-- A fact store, an archive in memory and a pattern store. -/
structure Stores where
  facts : FactStore := {}
  archive : ArchiveLog := {}
  patterns : PatternStore := {}

namespace Stores

/-! ### Runs -/

/-- What a user may ask of one of the stores. -/
inductive Request where
  | facts (r : FactStore.Request)
  | archive (r : ArchiveLog.Request)
  | patterns (r : PatternStore.Request)

/-- What one of the stores responds with. -/
inductive Response where
  | facts (r : FactStore.Response)
  | archive (r : ArchiveLog.Response)
  | patterns (r : PatternStore.Response)

/-- The user who asks. -/
def Request.user : Request → String
  | facts r => r.user
  | archive r => r.user
  | patterns r => r.user

/-- The response to a request in a world, and the stores afterwards. -/
def respond (w : World) (s : Stores) : Request → Response × Stores
  | .facts r => (.facts (s.facts.respond w r).1, { s with facts := (s.facts.respond w r).2 })
  | .archive r =>
    (.archive (s.archive.respond w r).1, { s with archive := (s.archive.respond w r).2 })
  | .patterns r =>
    (.patterns (s.patterns.respond w r).1, { s with patterns := (s.patterns.respond w r).2 })

/-- What happens in a run. -/
inductive Event where
  /-- A request is responded to. -/
  | request (r : Request) (w : World)
  /-- The consolidations that have been set going start. -/
  | start (now : Time)
  /-- The consolidations that are due go to work. -/
  | finish (w : World)
  /-- Consolidations are waited for, for a time. -/
  | wait (d : Duration) (w : World)
  /-- All consolidations are waited for. -/
  | waitAll (w : World)

namespace Event

/-- The stores after an event. -/
def after (s : Stores) : Event → Stores
  | request r w => (s.respond w r).2
  | start now => { s with patterns := s.patterns.startAll now }
  | finish w => { s with patterns := (s.patterns.finishDue w.now w).1 }
  | wait d w => { s with patterns := (s.patterns.wait d w).1 }
  | waitAll w => { s with patterns := (s.patterns.waitAll w).1 }

/-- The response, if something was asked, and the user who asked. -/
def responses (s : Stores) : Event → List (String × Response)
  | request r w => [(r.user, (s.respond w r).1)]
  | _ => []

/-- Not a request of another user. -/
def concerns (u : String) : Event → Bool
  | request r _ => r.user == u
  | _ => true

/-- The identifiers of facts in the event, and who uses them. -/
def factUses : Event → List (String × String)
  | request (.facts r) _ => r.ids.map fun id => (r.user, id)
  | _ => []

/-- The identifiers of turns in the event, and who uses them. -/
def turnUses : Event → List (String × String)
  | request (.archive r) _ => r.ids.map fun id => (r.user, id)
  | _ => []

end Event

/-- The stores after a list of events. -/
def run (s : Stores) (es : List Event) : Stores := es.foldl Event.after s

/-- The responses of a run. -/
def runResponses (s : Stores) : List Event → List (String × Response)
  | [] => []
  | e :: es => e.responses s ++ runResponses (e.after s) es

/-- Nothing has been put into the stores, whatever their settings. -/
structure IsNew (s : Stores) : Prop where
  facts : s.facts.facts = []
  owners : s.facts.owners = []
  turns : s.archive.turns = []
  patterns : s.patterns.patterns = []
  guards : s.patterns.guards = []
  held : s.patterns.held = []
  background : s.patterns.background = []

/-- No identifier is used by two users. -/
def Exclusive (uses : List (String × String)) : Prop :=
  ∀ a ∈ uses, ∀ b ∈ uses, a.2 = b.2 → a.1 = b.1

instance (uses : List (String × String)) : Decidable (Exclusive uses) :=
  inferInstanceAs (Decidable (∀ a ∈ uses, ∀ b ∈ uses, a.2 = b.2 → a.1 = b.1))

/-! ### One event -/

variable {u : String} {mineF mineT : String → Prop} {s s' : Stores}

/-- The second stores have what is the user's in the first. -/
structure Mirrors (u : String) (mineF mineT : String → Prop) (s s' : Stores) : Prop where
  facts : s.facts.Mirrors u mineF s'.facts
  archive : s.archive.Mirrors u mineT s'.archive
  patterns : s.patterns.Mirrors u s'.patterns

theorem Mirrors.of_isNew (h : s.IsNew) : Mirrors u mineF mineT s s where
  facts := by
    have hapart : s.facts.Apart u mineF := by simp [FactStore.Apart, h.facts]
    exact ⟨.refl u mineF s.facts, hapart, hapart⟩
  archive := by
    have hapart : s.archive.Apart u mineT := by simp [ArchiveLog.Apart, h.turns]
    exact ⟨.refl u s.archive, hapart, hapart⟩
  patterns := by
    have hnumbered : s.patterns.Numbered :=
      ⟨by simp [h.guards], by simp [h.held], by simp [h.background]⟩
    exact ⟨id, {
      capacity := rfl
      consolidationEvery := rfl
      consolidationTimeout := rfl
      consolidationDebounce := rfl
      policy := rfl
      patterns := rfl
      numbered := hnumbered
      numbered' := hnumbered
      lt := fun _ hg => hg
      injective := fun _ _ _ _ he => he
      guard := by simp [h.guards, Keyed.find?]
      held := fun _ _ => .rfl
      background := by simp [h.background]
      guards_apart := by simp [h.guards]
      background_apart := by simp [h.background] }⟩

/-- The responses to a user in a run are those to the events that concern the user. -/
theorem filter_responses (e : Event) (s : Stores) :
    (e.responses s).filter (fun r => r.1 == u) = if e.concerns u then e.responses s else [] := by
  cases e with
  | request r w => by_cases hr : r.user = u <;> simp [Event.responses, Event.concerns, hr]
  | start | finish | wait | waitAll => rfl

variable {e : Event} (hF : ∀ a ∈ e.factUses, mineF a.2 ↔ a.1 = u)
  (hT : ∀ a ∈ e.turnUses, mineT a.2 ↔ a.1 = u)

include hF hT

theorem Mirrors.own (h : Mirrors u mineF mineT s s') (he : e.concerns u = true) :
    e.responses s = e.responses s' ∧ Mirrors u mineF mineT (e.after s) (e.after s') := by
  cases e with
  | request r w =>
    have hr : r.user = u := by simpa [Event.concerns] using he
    cases r with
    | facts r =>
      obtain ⟨hresponse, hafter⟩ := h.facts.own w hr fun id hid =>
        (hF (r.user, id) (List.mem_map_of_mem hid)).2 hr
      refine ⟨?_, { h with facts := hafter }⟩
      simp only [Event.responses, respond, hresponse]
    | archive r =>
      obtain ⟨hresponse, hafter⟩ := h.archive.own w hr fun id hid =>
        (hT (r.user, id) (List.mem_map_of_mem hid)).2 hr
      refine ⟨?_, { h with archive := hafter }⟩
      simp only [Event.responses, respond, hresponse]
    | patterns r =>
      obtain ⟨hresponse, hafter⟩ := h.patterns.own w hr
      refine ⟨?_, { h with patterns := hafter }⟩
      simp only [Event.responses, respond, hresponse]
  | start now => exact ⟨rfl, { h with patterns := h.patterns.startAll now }⟩
  | finish w => exact ⟨rfl, { h with patterns := h.patterns.finishDue w }⟩
  | wait d w => exact ⟨rfl, { h with patterns := h.patterns.wait d w }⟩
  | waitAll w => exact ⟨rfl, { h with patterns := h.patterns.waitAll w }⟩

theorem Mirrors.other (h : Mirrors u mineF mineT s s') (he : e.concerns u = false) :
    Mirrors u mineF mineT (e.after s) s' := by
  cases e with
  | request r w =>
    have hr : r.user ≠ u := by simpa [Event.concerns] using he
    cases r with
    | facts r =>
      have hids : ∀ id ∈ r.ids, ¬ mineF id := fun id hid hmine =>
        hr ((hF (r.user, id) (List.mem_map_of_mem hid)).1 hmine)
      exact { h with facts := h.facts.other w hr hids }
    | archive r =>
      have hids : ∀ id ∈ r.ids, ¬ mineT id := fun id hid hmine =>
        hr ((hT (r.user, id) (List.mem_map_of_mem hid)).1 hmine)
      exact { h with archive := h.archive.other w hr hids }
    | patterns r => exact { h with patterns := h.patterns.other w hr }
  | start | finish | wait | waitAll => cases he

omit hF hT

/-! ### All events -/

theorem Mirrors.run (h : Mirrors u mineF mineT s s') {es : List Event}
    (hF : ∀ a ∈ es.flatMap Event.factUses, mineF a.2 ↔ a.1 = u)
    (hT : ∀ a ∈ es.flatMap Event.turnUses, mineT a.2 ↔ a.1 = u) :
    (s.runResponses es).filter (fun r => r.1 == u) =
        s'.runResponses (es.filter (Event.concerns u)) ∧
      Mirrors u mineF mineT (s.run es) (s'.run (es.filter (Event.concerns u))) := by
  induction es generalizing s s' with
  | nil => exact ⟨rfl, h⟩
  | cons e r ih =>
    rw [List.flatMap_cons] at hF hT
    obtain ⟨hFe, hFr⟩ := List.forall_mem_append.1 hF
    obtain ⟨hTe, hTr⟩ := List.forall_mem_append.1 hT
    rw [runResponses, List.filter_append, filter_responses]
    cases he : e.concerns u with
    | true =>
      obtain ⟨hresponses, hafter⟩ := h.own hFe hTe he
      obtain ⟨hrest, hrun⟩ := ih hafter hFr hTr
      rw [List.filter_cons_of_pos he, hresponses, hrest]
      exact ⟨rfl, hrun⟩
    | false =>
      obtain ⟨hrest, hrun⟩ := ih (h.other hFe hTe he) hFr hTr
      rw [List.filter_cons_of_neg (by simp [he]), hrest]
      exact ⟨rfl, hrun⟩

/-- A run of new stores in which no identifier of a fact or of a turn is used by two users: without
the requests of the other users, and so without the consolidations that these set going, a user gets
the same responses at the same times and has the same facts, turns and patterns in the end. -/
theorem run_isolated {u : String} {s : Stores} {es : List Event} (hnew : s.IsNew)
    (hfacts : Exclusive (es.flatMap Event.factUses))
    (hturns : Exclusive (es.flatMap Event.turnUses)) :
    (s.runResponses es).filter (fun r => r.1 == u) =
        s.runResponses (es.filter (Event.concerns u)) ∧
      (s.run es).facts.ofUser u = (s.run (es.filter (Event.concerns u))).facts.ofUser u ∧
      (s.run es).archive.ofUser u = (s.run (es.filter (Event.concerns u))).archive.ofUser u ∧
      (s.run es).patterns.ofUser u = (s.run (es.filter (Event.concerns u))).patterns.ofUser u := by
  have hmine {uses : List (String × String)} (huses : Exclusive uses) :
      ∀ a ∈ uses, (u, a.2) ∈ uses ↔ a.1 = u := by
    intro a ha
    constructor
    · exact fun hu => huses a ha (u, a.2) hu rfl
    · rintro rfl
      exact ha
  have hstart : Mirrors u (fun id => (u, id) ∈ es.flatMap Event.factUses)
      (fun id => (u, id) ∈ es.flatMap Event.turnUses) s s := .of_isNew hnew
  obtain ⟨hresponses, hrun⟩ := hstart.run (hmine hfacts) (hmine hturns)
  obtain ⟨ρ, hpatterns⟩ := hrun.patterns
  exact ⟨hresponses, hrun.facts.agree.facts, hrun.archive.agree.turns, hpatterns.patterns⟩

/-- A fact that was learned just now. -/
def favourite (id value : String) : Fact where
  id := id
  user := ""
  conversation := "c"
  key := "likes"
  value := value
  kind := .preference
  importance := 0.8
  embedding := none
  lastAccessed := 0
  accessCount := 1
  createdAt := 0

/-- Something said by a user. -/
def saying (id user text : String) : Turn where
  id := id
  user := user
  conversation := "c"
  role := .user
  text := text
  createdAt := 0
  importance := 0.5
  flags := ⟨false, false, false⟩
  entities := []
  embedding := none

/-- An instruction of a user for whenever a keyword occurs. -/
def habit (id user keyword : String) : Pattern where
  id := id
  user := user
  name := id
  description := ""
  triggers := [⟨.keyword, keyword, none⟩]
  template := "Answer briefly."
  threshold := 0.7
  usage := 0
  createdAt := 0
  lastUsed := 0

/-- One user is forgotten while a consolidation of the other one is under way. -/
def meeting : List Event := [
  .request (.facts (.store "v" "c" [favourite "f1" "tea"])) {},
  .request (.facts (.store "u" "c" [favourite "f2" "tea"])) {},
  .request (.archive (.append (saying "t1" "v" "Tea, please."))) {},
  .request (.archive (.append (saying "t2" "u" "Tea, please."))) {},
  .request (.patterns (.store (habit "p" "v" "tea") false)) {},
  .request (.patterns (.store (habit "p" "u" "tea") false)) {},
  .request (.patterns (.matchQuery "v" "More tea?")) { now := 1 },
  .request (.patterns (.matchQuery "u" "More tea?")) { now := 2 },
  .start 3,
  .request (.facts (.recordAccess "v" "f1")) { now := 4 },
  .request (.facts (.search "u" "tea" 5)) { now := 5 },
  .request (.facts (.deleteUser "v")) { now := 6 },
  .request (.archive (.deleteUser "v")) { now := 6 },
  .request (.patterns (.deleteUser "v")) { now := 6 },
  .finish { now := 100000000 },
  .request (.facts (.get "u" "f2")) { now := 100000000 },
  .request (.archive (.search "u" "tea" 5)) { now := 100000000 },
  .request (.patterns (.list "u")) { now := 100000000 }]

/-- New stores in which every match sets a consolidation going. -/
def eager : Stores where
  patterns := { consolidationEvery := 1 }

theorem run_meeting :
    (eager.IsNew ∧ Exclusive (meeting.flatMap Event.factUses) ∧
      Exclusive (meeting.flatMap Event.turnUses)) ∧
    (((eager.run meeting).patterns.ofUser "u").map Pattern.usage = [1] ∧
      (eager.run meeting).patterns.guardCount = 2 ∧
      (eager.run (meeting.filter (Event.concerns "u"))).patterns.guardCount = 1) ∧
    ((eager.runResponses meeting).filter (fun r => r.1 == "u") =
        eager.runResponses (meeting.filter (Event.concerns "u")) ∧
      (eager.run meeting).facts.ofUser "u" =
        (eager.run (meeting.filter (Event.concerns "u"))).facts.ofUser "u" ∧
      (eager.run meeting).archive.ofUser "u" =
        (eager.run (meeting.filter (Event.concerns "u"))).archive.ofUser "u" ∧
      (eager.run meeting).patterns.ofUser "u" =
        (eager.run (meeting.filter (Event.concerns "u"))).patterns.ofUser "u") := by
  have hnew : eager.IsNew := ⟨rfl, rfl, rfl, rfl, rfl, rfl, rfl⟩
  have hfacts : Exclusive (meeting.flatMap Event.factUses) := by decide +kernel
  have hturns : Exclusive (meeting.flatMap Event.turnUses) := by decide +kernel
  have hguards : ((eager.run meeting).patterns.ofUser "u").map Pattern.usage = [1] ∧
      (eager.run meeting).patterns.guardCount = 2 ∧
      (eager.run (meeting.filter (Event.concerns "u"))).patterns.guardCount = 1 := by
    decide +kernel
  exact ⟨⟨hnew, hfacts, hturns⟩, hguards, run_isolated hnew hfacts hturns⟩

end Stores

end TieredMemory
