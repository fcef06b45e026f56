import TieredMemory.Validation
import TieredMemory.World

/-!
# Planning a read

A query has an intent, and the intent says which tiers answer it. Fixed phrases settle the intent of
most queries; a classifier labels the others, and whatever it does not settle counts as complex and
goes to all tiers.
-/

namespace TieredMemory

/-- What a query is after. -/
inductive Intent where
  | continuation
  | factRetrieval
  | deepRecall
  | complex
  | proceduralTrigger
  deriving Repr, DecidableEq

/-- A part of the memory. -/
inductive Tier where
  | hotCache
  | factStore
  | archive
  | patternStore
  deriving Repr, DecidableEq

/-- Who settled the intent. -/
inductive Planned where
  | rules
  | classifier
  | fallback
  deriving Repr, DecidableEq

/-- The written name of an intent. -/
def Intent.name : Intent → String
  | continuation => "Continuation"
  | factRetrieval => "FactRetrieval"
  | deepRecall => "DeepRecall"
  | complex => "Complex"
  | proceduralTrigger => "ProceduralTrigger"

/-- The other spelling of an intent, in lower case. -/
def Intent.spelling : Intent → String
  | continuation => "continuation"
  | factRetrieval => "fact_retrieval"
  | deepRecall => "deep_recall"
  | complex => "complex"
  | proceduralTrigger => "procedural_trigger"

/-- All intents. -/
def Intent.all : List Intent :=
  [continuation, factRetrieval, deepRecall, complex, proceduralTrigger]

/-- The written name of a tier. -/
def Tier.name : Tier → String
  | hotCache => "hot_cache"
  | factStore => "fact_store"
  | archive => "archive"
  | patternStore => "pattern_store"

/-- The written name of who settled the intent. -/
def Planned.name : Planned → String
  | rules => "rules"
  | classifier => "classifier"
  | fallback => "fallback"

/-- The tiers that answer a query of the intent, by name. -/
def Intent.tiers : Intent → List Tier
  | continuation => [.hotCache]
  | factRetrieval => [.factStore, .hotCache]
  | deepRecall => [.archive, .factStore, .hotCache]
  | proceduralTrigger => [.hotCache, .patternStore]
  | complex => [.archive, .factStore, .hotCache, .patternStore]

/-- An intent and who settled it. -/
structure Plan where
  intent : Intent
  settledBy : Planned
  deriving Repr, DecidableEq

/-- The plan asks the tier. -/
def Plan.uses (p : Plan) (t : Tier) : Bool := p.intent.tiers.contains t

namespace Planner

/-- What a query that goes on begins with. -/
def continuationStarts : List String :=
  ["continue", "go on", "and then", "next", "keep going", "tell me more"]

/-- What a query for exact wording contains. -/
def recallPhrases : List String := [
  "quote", "exactly", "verbatim", "word for word", "precise",
  "show me the exact", "what did i say about", "find the conversation"]

/-- What a query for a procedure contains. -/
def procedurePhrases : List String :=
  ["write code", "implement", "show me how", "generate", "format as", "structure as"]

/-- What a query for a fact contains. -/
def factPhrases : List String := [
  "what was", "what is", "who is", "when did", "where",
  "how many", "tell me about", "remind me", "what's my"]

/-- The intent that the phrases of a query settle. -/
def byRules (query : String) : Option Intent :=
  let q := Text.trim (Text.lower query)
  let holds := fun phrases : List String => phrases.any fun p => Text.occursIn p q
  if continuationStarts.any fun p => Text.beginsWith p q then some .continuation
  else if holds recallPhrases then some .deepRecall
  else if holds procedurePhrases then some .proceduralTrigger
  else if holds factPhrases then some .factRetrieval
  else none

/-- The intent of a label, in either spelling and any letter case. -/
def ofLabel? (label : String) : Option Intent :=
  let l := Text.lower (Text.trim label)
  Intent.all.find? fun i => l == Text.lower i.name || l == i.spelling

/-- The plan that follows from what the classifier gave, with the notice of a failure. -/
def ofOutcome (outcome : Except Fault Json.Value) : Plan × Option Notice :=
  match (do (← outcome).toText) with
  | .error why => (⟨.complex, .fallback⟩, some (.noLabel why))
  | .ok label =>
    match ofLabel? label with
    | some i => (⟨i, .classifier⟩, none)
    | none => (⟨.complex, .fallback⟩, none)

/-- What a query comes to before the classifier has answered. -/
inductive Opening where
  /-- The plan is settled. -/
  | settled (plan : Plan)
  /-- The classifier was asked and gives this reply. -/
  | asked (reply : Reply)

/-- How long the plan takes from here. -/
def Opening.delay : Opening → Duration
  | settled _ => 0
  | asked reply => reply.delay

/-- The plan, with the notice of a failure. -/
def Opening.plan : Opening → Plan × Option Notice
  | settled plan => (plan, none)
  | asked reply => ofOutcome reply.outcome

/-- Settle the plan of a query by its phrases, or ask the classifier. -/
def consult (query : String) (w : World) : Opening × World :=
  match byRules query with
  | some i => (.settled ⟨i, .rules⟩, w)
  | none =>
    match w.classify? query with
    | none => (.settled ⟨.complex, .fallback⟩, w)
    | some (reply, w) => (.asked reply, w)

/-- The plan of a valid query. -/
def plan (query : String) (w : World) : Except Rejection Plan × World :=
  match checkQuery query with
  | .error why => (.error why, w)
  | .ok query =>
    let (opening, w) := consult query w
    let (plan, notice) := opening.plan
    (.ok plan, (w.after (max opening.delay 0)).reportAny notice)

end Planner

end TieredMemory
