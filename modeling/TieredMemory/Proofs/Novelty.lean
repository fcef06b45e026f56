import Mathlib.Data.Finset.Card
import Mathlib.Data.Finset.Dedup
import Mathlib.Data.List.Induction
import TieredMemory.Importance
import TieredMemory.Proofs.Ranking
import TieredMemory.Proofs.Text.LowerCase

/-!
# What counts as new

A run of the scorer is a list of calls in the order in which they come to the ledger: turns are assessed,
each in a world of its own, in which the rating may fail, and users are forgotten. What has been counted
as new in the assessments of a user's turns since the user was last forgotten is just what the ledger
holds for the user, each entity once (`Accounted`); every call keeps this (`Accounted.after`). So every
entity that the user's turns name is counted in one of the assessments and in no other one, and how many
have been counted depends on nothing but what the turns name, letter case aside (`run_counts_once`).
-/

namespace TieredMemory.Scorer

/-- What may be asked of the scorer. -/
inductive Call where
  /-- Assess a turn in a world. -/
  | assess (t : Turn) (w : World)
  /-- Forget the entities of a user. -/
  | forget (user : String)

/-- An assessment, with the scorer that it finds. -/
structure Assessment where
  scorer : Scorer
  turn : Turn
  world : World

/-- The entities that are counted as new. -/
def Assessment.news (a : Assessment) : List String := a.scorer.fresh a.turn.user a.turn.entities

/-- The importance of the turn. -/
def Assessment.importance (a : Assessment) : Float := (a.scorer.assess a.turn a.world).1

/-- The entities that a turn names, in lower case. -/
def named (t : Turn) : List String := t.entities.map Text.lower

/-- The scorer in the course of a run, and the assessments of a user's turns since the user was last
forgotten. -/
structure Record where
  scorer : Scorer := {}
  assessments : List Assessment := []

/-- The record after a call. -/
def Record.after (user : String) (r : Record) : Call → Record
  | .assess t w =>
    { scorer := (r.scorer.assess t w).2.1
      assessments := if t.user = user then r.assessments ++ [⟨r.scorer, t, w⟩] else r.assessments }
  | .forget user' =>
    { scorer := r.scorer.forget user'
      assessments := if user' = user then [] else r.assessments }

/-- The record of a run of a new scorer. -/
def record (user : String) (calls : List Call) : Record := calls.foldl (Record.after user) {}

/-- The assessments of the user's turns since the user was last forgotten. -/
def assessed (user : String) (calls : List Call) : List Assessment := (record user calls).assessments

/-- How many entities have been counted as new for the user since the user was last forgotten. -/
def novelty (user : String) (calls : List Call) : Nat :=
  ((assessed user calls).map fun a => a.news.length).sum

/-- The user's turns after a call. -/
def told (user : String) (ts : List Turn) : Call → List Turn
  | .assess t _ => if t.user = user then ts ++ [t] else ts
  | .forget user' => if user' = user then [] else ts

/-- The user's turns since the user was last forgotten. -/
def turnsSince (user : String) (calls : List Call) : List Turn := calls.foldl (told user) []

variable {s : Scorer} {user : String} {calls : List Call} {e : String}

/-! ### The ledger -/

theorem seenFor_enter (user : String) (es : List String) (s : Scorer) (user' : String) :
    (s.enter user es).seenFor user' =
      if user = user' then s.seenFor user ++ es else s.seenFor user' := by
  simp only [seenFor, enter, Keyed.find?_put]
  split
  · rfl
  · rfl

theorem seenFor_forget (user : String) (s : Scorer) (user' : String) :
    (s.forget user).seenFor user' = if user = user' then [] else s.seenFor user' := by
  simp only [seenFor, forget, Keyed.find?_remove]
  split
  · rfl
  · rfl

theorem mem_fresh {es : List String} :
    e ∈ s.fresh user es ↔ e ∈ es.map Text.lower ∧ e ∉ s.seenFor user := by
  simp [fresh]

theorem nodup_fresh (s : Scorer) (user : String) (es : List String) : (s.fresh user es).Nodup :=
  (nodup_eraseDups _).filter _

/-- Whatever becomes of the rating, an assessment enters what is new into the ledger, and the turn is
scored with the number of it. -/
theorem assess_inv (s : Scorer) (t : Turn) (w : World) :
    (s.assess t w).2.1 = s.enter t.user (s.fresh t.user t.entities) ∧
      ∃ now sentiment, (s.assess t w).1 = Importance.score t.text t.createdAt now
        { sentiment, newEntities := (s.fresh t.user t.entities).length } := by
  unfold assess
  cases w.rate? t.text with
  | none => exact ⟨rfl, _, _, rfl⟩
  | some rating =>
    obtain ⟨delay, outcome, w⟩ := rating
    cases outcome with
    | ok x => exact ⟨rfl, _, _, rfl⟩
    | error why => exact ⟨rfl, _, _, rfl⟩

/-! ### What a run keeps -/

/-- The ledger holds for the user what has been counted, each entity once, and this is what the user's
turns name. -/
structure Accounted (user : String) (r : Record) : Prop where
  seen : r.scorer.seenFor user = r.assessments.flatMap Assessment.news
  nodup : (r.assessments.flatMap Assessment.news).Nodup
  names : ∀ e, e ∈ r.assessments.flatMap Assessment.news ↔
    e ∈ (r.assessments.map Assessment.turn).flatMap named

theorem Accounted.new (user : String) : Accounted user {} := ⟨rfl, .nil, fun _ => .rfl⟩

variable {r : Record}

theorem Record.after_own (r : Record) (t : Turn) (w : World) :
    r.after t.user (.assess t w) = ⟨r.scorer.enter t.user (r.scorer.fresh t.user t.entities),
      r.assessments ++ [⟨r.scorer, t, w⟩]⟩ := by
  simp only [Record.after, (assess_inv r.scorer t w).1, if_true]

theorem Record.after_other (r : Record) {t : Turn} (ht : t.user ≠ user) (w : World) :
    r.after user (.assess t w) =
      ⟨r.scorer.enter t.user (r.scorer.fresh t.user t.entities), r.assessments⟩ := by
  simp only [Record.after, (assess_inv r.scorer t w).1, if_neg ht]

/-- The ledger and what has been counted grow by the same entities, none of which they had. -/
theorem Accounted.assess_own {t : Turn} (h : Accounted t.user r) (w : World) :
    Accounted t.user (r.after t.user (.assess t w)) := by
  have hnews : (r.assessments ++ [(⟨r.scorer, t, w⟩ : Assessment)]).flatMap Assessment.news =
      r.assessments.flatMap Assessment.news ++ r.scorer.fresh t.user t.entities := by
    rw [List.flatMap_append, List.flatMap_singleton]
    rfl
  rw [Record.after_own]
  constructor
  · rw [hnews, seenFor_enter, if_pos rfl, h.seen]
  · rw [hnews]
    refine h.nodup.append (nodup_fresh r.scorer t.user t.entities) ?_
    intro e hcounted hfresh
    rw [← h.seen] at hcounted
    exact (mem_fresh.1 hfresh).2 hcounted
  · intro e
    rw [hnews, List.map_append, List.flatMap_append, List.mem_append, List.mem_append, mem_fresh,
      h.seen, ← h.names, List.map_singleton, List.flatMap_singleton, named]
    tauto

theorem Accounted.assess_other {t : Turn} (h : Accounted user r) (ht : t.user ≠ user) (w : World) :
    Accounted user (r.after user (.assess t w)) := by
  rw [Record.after_other r ht]
  refine ⟨?_, h.nodup, h.names⟩
  rw [seenFor_enter, if_neg ht, h.seen]

theorem Accounted.forget (h : Accounted user r) (user' : String) :
    Accounted user (r.after user (.forget user')) := by
  by_cases hu : user' = user
  · have hafter : r.after user (.forget user') = ⟨r.scorer.forget user', []⟩ := by
      simp only [Record.after, if_pos hu]
    rw [hafter]
    refine ⟨?_, .nil, fun _ => .rfl⟩
    rw [seenFor_forget, if_pos hu]
    rfl
  · have hafter : r.after user (.forget user') = ⟨r.scorer.forget user', r.assessments⟩ := by
      simp only [Record.after, if_neg hu]
    rw [hafter]
    refine ⟨?_, h.nodup, h.names⟩
    rw [seenFor_forget, if_neg hu, h.seen]

/-- Every call keeps the account. -/
theorem Accounted.after (h : Accounted user r) (c : Call) : Accounted user (r.after user c) := by
  cases c with
  | assess t w =>
    by_cases ht : t.user = user
    · subst ht
      exact h.assess_own w
    · exact h.assess_other ht w
  | forget user' => exact h.forget user'

theorem record_concat (user : String) (calls : List Call) (c : Call) :
    record user (calls ++ [c]) = (record user calls).after user c := List.foldl_append

theorem accounted_record (user : String) (calls : List Call) :
    Accounted user (record user calls) := by
  induction calls using List.reverseRecOn with
  | nil => exact .new user
  | append_singleton calls c ih =>
    rw [record_concat]
    exact ih.after c

/-! ### What the turns name -/

theorem turnsSince_concat (user : String) (calls : List Call) (c : Call) :
    turnsSince user (calls ++ [c]) = told user (turnsSince user calls) c := List.foldl_append

theorem turns_after (r : Record) (c : Call) :
    (r.after user c).assessments.map Assessment.turn =
      told user (r.assessments.map Assessment.turn) c := by
  cases c with
  | assess t w =>
    simp only [Record.after, told]
    split
    · exact List.map_append
    · rfl
  | forget user' =>
    simp only [Record.after, told]
    split
    · rfl
    · rfl

/-- The assessed turns are those that the calls tell, whatever the scorer makes of them. -/
theorem turns_assessed (user : String) (calls : List Call) :
    (assessed user calls).map Assessment.turn = turnsSince user calls := by
  induction calls using List.reverseRecOn with
  | nil => rfl
  | append_singleton calls c ih =>
    rw [assessed, record_concat, turns_after, turnsSince_concat, ← ih, assessed]

/-- The entities that the user's turns have named since the user was last forgotten, in lower case. -/
def namedSince (user : String) (calls : List Call) : List String :=
  (turnsSince user calls).flatMap named

theorem mem_counted_iff (user : String) (calls : List Call) (e : String) :
    e ∈ (assessed user calls).flatMap Assessment.news ↔ e ∈ namedSince user calls := by
  have haccount := (accounted_record user calls).names e
  rwa [← assessed, turns_assessed] at haccount

/-- As many entities are counted as are named. -/
theorem novelty_eq (user : String) (calls : List Call) :
    novelty user calls = (namedSince user calls).toFinset.card := by
  have hnodup : ((assessed user calls).flatMap Assessment.news).Nodup :=
    (accounted_record user calls).nodup
  have hset : ((assessed user calls).flatMap Assessment.news).toFinset =
      (namedSince user calls).toFinset := by
    ext e
    rw [List.mem_toFinset, List.mem_toFinset, mem_counted_iff]
  rw [← hset, List.toFinset_card_of_nodup hnodup, List.length_flatMap]
  rfl

/-- The user's turns since the user was last forgotten name the same entities in both runs, turn by turn
in some order and letter case aside. -/
def Retells (user : String) (calls calls' : List Call) : Prop :=
  ((turnsSince user calls').map named).Perm ((turnsSince user calls).map named)

theorem novelty_of_retells {calls' : List Call} (h : Retells user calls calls') :
    novelty user calls' = novelty user calls := by
  have hset : (namedSince user calls').toFinset = (namedSince user calls).toFinset := by
    ext e
    rw [List.mem_toFinset, List.mem_toFinset, namedSince, namedSince, List.flatMap_def,
      List.flatMap_def]
    exact h.flatten.mem_iff
  rw [novelty_eq, novelty_eq, hset]

/-! ### Letter case -/

/-- The turn with its entities in lower case. -/
def inLowerCase (t : Turn) : Turn := { t with entities := named t }

/-- The call with all entities in lower case. -/
def Call.inLowerCase : Call → Call
  | .assess t w => .assess (Scorer.inLowerCase t) w
  | .forget user => .forget user

/-- What a turn names is in lower case already. -/
theorem named_inLowerCase (t : Turn) : named (inLowerCase t) = named t := by
  simp only [named, inLowerCase, List.map_map]
  refine List.map_congr_left fun x _ => ?_
  exact Text.lower_lower x

theorem told_inLowerCase (user : String) (ts : List Turn) (c : Call) :
    told user (ts.map inLowerCase) c.inLowerCase = (told user ts c).map inLowerCase := by
  cases c with
  | assess t w =>
    simp only [told, Call.inLowerCase]
    split
    · next ht => rw [if_pos (show t.user = user from ht), List.map_append, List.map_singleton]
    · next ht => rw [if_neg (show t.user ≠ user from ht)]
  | forget user' =>
    simp only [told, Call.inLowerCase]
    split
    · rfl
    · rfl

theorem turnsSince_inLowerCase (user : String) (calls : List Call) :
    turnsSince user (calls.map Call.inLowerCase) = (turnsSince user calls).map inLowerCase := by
  induction calls using List.reverseRecOn with
  | nil => rfl
  | append_singleton calls c ih =>
    rw [List.map_append, List.map_singleton, turnsSince_concat, ih, told_inLowerCase,
      turnsSince_concat]

/-- A run tells the same when all its entities are in lower case. -/
theorem retells_inLowerCase (user : String) (calls : List Call) :
    Retells user calls (calls.map Call.inLowerCase) := by
  have hnamed : ((turnsSince user calls).map inLowerCase).map named =
      (turnsSince user calls).map named := by
    rw [List.map_map]
    exact List.map_congr_left fun t _ => named_inLowerCase t
  rw [Retells, turnsSince_inLowerCase, hnamed]

/-! ### Each entity once -/

/-- Since a user was last forgotten, no entity has been counted as new in two assessments of the user's
turns, and those that have been counted are the entities that these turns name, in lower case; every
turn is scored with the number of those that it brings. So the number of all of them depends neither on
the order of the turns nor on letter case, other users or the ratings. -/
theorem run_counts_once (user : String) (calls : List Call) :
    ((assessed user calls).map Assessment.news).Pairwise List.Disjoint ∧
      (∀ e, (∃ a ∈ assessed user calls, e ∈ a.news) ↔
        ∃ t ∈ turnsSince user calls, ∃ x ∈ t.entities, e = Text.lower x) ∧
      (∀ a ∈ assessed user calls, a.news.Nodup ∧ ∃ now sentiment,
        a.importance = Importance.score a.turn.text a.turn.createdAt now
          { sentiment, newEntities := a.news.length }) ∧
      novelty user calls = (namedSince user calls).toFinset.card ∧
      (∀ calls', Retells user calls calls' → novelty user calls' = novelty user calls) ∧
      novelty user (calls.map Call.inLowerCase) = novelty user calls := by
  have hnodup : ((assessed user calls).flatMap Assessment.news).Nodup :=
    (accounted_record user calls).nodup
  rw [List.flatMap_def, List.nodup_flatten] at hnodup
  refine ⟨hnodup.2, fun e => ?_, fun a ha => ⟨?_, ?_⟩, novelty_eq user calls,
    fun calls' h => novelty_of_retells h, novelty_of_retells (retells_inLowerCase user calls)⟩
  · have hcounted := mem_counted_iff user calls e
    simpa [namedSince, named, List.mem_flatMap, eq_comm] using hcounted
  · exact nodup_fresh a.scorer a.turn.user a.turn.entities
  · exact (assess_inv a.scorer a.turn a.world).2

/-- A turn about which nothing matters but the user and the entities. -/
def naming (user : String) (entities : List String) : Turn :=
  { id := "t", user, conversation := "c", role := .user, text := "", createdAt := 0, importance := 0
    flags := ⟨false, false, false⟩, entities, embedding := none }

/-- One user is forgotten and then names three places, one of them twice, and another user one. -/
def journeys : List Call := [
  .assess (naming "ann" ["Oslo"]) {}, .forget "ann", .assess (naming "ann" ["Kyoto", "Lisbon"]) {},
  .assess (naming "bob" ["Kyoto"]) {}, .assess (naming "ann" ["KYOTO", "Oslo"]) {}]

/-- The same turns of the one user in another order and spelling, the first one not rated. -/
def retoldJourneys : List Call := [
  .assess (naming "ann" ["kyoto", "oslo"])
    { sentiment := some (.scripted [⟨0, .error (.broken "down")⟩]) },
  .forget "bob", .assess (naming "ann" ["Kyoto", "LISBON"]) {}]

theorem run_counts_once_journeys :
    Retells "ann" journeys retoldJourneys ∧
      (assessed "ann" journeys).map Assessment.news = [["kyoto", "lisbon"], ["oslo"]] ∧
      (assessed "ann" retoldJourneys).map Assessment.news = [["kyoto", "oslo"], ["lisbon"]] ∧
      novelty "ann" retoldJourneys = novelty "ann" journeys := by
  have hretells : Retells "ann" journeys retoldJourneys := by
    unfold Retells
    decide +kernel
  exact ⟨hretells, by decide +kernel, by decide +kernel,
    (run_counts_once "ann" journeys).2.2.2.2.1 retoldJourneys hretells⟩

end TieredMemory.Scorer
