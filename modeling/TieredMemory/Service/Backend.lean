import TieredMemory.Collaborator
import TieredMemory.Notice
import TieredMemory.Order
import TieredMemory.Service.Model

/-!
# The model service

One service answers for all collaborators by calling models of the registry through a backend. The
backend follows two scripts, one for completions and one for embeddings, and keeps the parameters of
every call. Whatever goes wrong in a call is an outage of the service; what a well-formed call
returns is read here: a label loses the stops around it, and a sentiment is a JSON number moved
between minus one and one.
-/

namespace TieredMemory

/-- What the backend returns for one call. -/
inductive BackendAnswer where
  /-- The text of a completion, if it has one. -/
  | content (text : Option String)
  /-- The numbers of an embedding. -/
  | vector (numbers : Json.Value)
  /-- The call breaks down. -/
  | failure (text : String)

/-- The service and the backend behind it. -/
structure Service where
  environment : Environment
  completionModel : Model
  embeddingModel : Option Model
  completions : Script BackendAnswer
  embeddings : Script BackendAnswer
  /-- The parameters of the calls made so far, latest first. -/
  calls : List (List (String × Json.Value))

/-- The labels that a query can get. -/
def queryLabels : List String :=
  ["Continuation", "FactRetrieval", "DeepRecall", "Complex", "ProceduralTrigger"]

namespace Service

/-- The prompt that asks for the label of a query. -/
def classifyPrompt (query : String) : String :=
  "Classify this query to a conversational memory system.\n\nLabels:\n" ++
  "- Continuation: continue the current topic, recent turns are enough\n" ++
  "- FactRetrieval: asks for a specific fact about the user or past topics\n" ++
  "- DeepRecall: asks for exact wording or details from older conversations\n" ++
  "- ProceduralTrigger: asks to perform a task the user may have preferences for\n" ++
  "- Complex: anything else, or needs everything\n\nQuery: " ++ query ++
  "\n\nAnswer with the label only."

/-- The prompt that asks for the sentiment of a text. -/
def sentimentPrompt (text : String) : String :=
  "Rate the sentiment of this text from -1.0 (very negative) to 1.0 (very positive).\n" ++
  "Answer with the number only.\n\nText: " ++ text

/-- A number as a parameter. -/
def amount : Decimal.Amount → Json.Value
  | .whole n => .int n
  | .real x => .real x

/-- One message of a completion call. -/
def message (role content : String) : Json.Value :=
  .obj [("role", .str role), ("content", .str content)]

/-- The parameters of the completion call for a prompt. -/
def completionCall (s : Service) (p : Prompt) : List (String × Json.Value) :=
  let system := match p.system with
    | some text => if text.isEmpty then [] else [message "system" text]
    | none => []
  s.completionModel.callParameters s.environment ++
    [("messages", .arr (system ++ [message "user" p.text])), ("max_tokens", amount p.maxTokens),
      ("temperature", amount p.temperature)]

/-- The next item of a script; a script without items breaks down. -/
def nextAnswer (script : Script BackendAnswer) : BackendAnswer × Script BackendAnswer :=
  (script.next?).getD (.failure "no scripted answer", [])

/-- The completion of a prompt, with the notice of a failure. -/
def complete (s : Service) (p : Prompt) : Except Fault String × Option Notice × Service :=
  let (answer, rest) := nextAnswer s.completions
  let s' := { s with completions := rest, calls := s.completionCall p :: s.calls }
  match answer with
  | .content text => (.ok (text.getD ""), none, s')
  | .vector _ => (.error .shapeless, none, s')
  | .failure text =>
    (.error (.unavailable (.completion text)), some (.completionFailed s.completionModel.id text),
      s')

/-- The embedding of a text, with the notice of a failure. -/
def embed (s : Service) (text : String) : Except Fault Embedding × Option Notice × Service :=
  match s.embeddingModel with
  | none => (.error (.unavailable .noEmbeddingModel), none, s)
  | some model =>
    let (answer, rest) := nextAnswer s.embeddings
    let call := model.callParameters s.environment ++ [("input", .arr [.str text])]
    let s' := { s with embeddings := rest, calls := call :: s.calls }
    match answer with
    | .vector numbers => (do (← numbers.items).mapM Json.Value.toFloat, none, s')
    | .content _ => (.error .shapeless, none, s')
    | .failure text =>
      (.error (.unavailable (.embedding text)), some (.embeddingFailed model.id text), s')

/-- The label in an answer: one of the known labels when it is one, letter case aside. -/
def labelOf (content : String) : String :=
  let label := Text.trim (Text.trimChars "." (Text.trim content))
  (queryLabels.find? fun l => Text.lower l == Text.lower label).getD label

/-- The label of a query. -/
def classify (s : Service) (query : String) : Except Fault String × Option Notice × Service :=
  let prompt : Prompt :=
    { text := classifyPrompt query, maxTokens := .whole 10, temperature := .real 0 }
  let (outcome, notice, s) := s.complete prompt
  (outcome.map labelOf, notice, s)

/-- The sentiment that an answer states. -/
def sentimentOf (content : String) : Except Fault Float :=
  match Json.read? (Text.trim content) with
  | none => .error (.unavailable (.notSentiment content))
  | some v =>
    match v.toFloat with
    | .ok x => .ok (clampSigned x)
    | .error .tooLarge => .error .tooLarge
    | .error _ => .error (.unavailable (.notSentiment content))

/-- The sentiment of a text. -/
def analyze (s : Service) (text : String) : Except Fault Float × Option Notice × Service :=
  let prompt : Prompt :=
    { text := sentimentPrompt text, maxTokens := .whole 8, temperature := .real 0 }
  let (outcome, notice, s) := s.complete prompt
  (outcome.bind sentimentOf, notice, s)

/-- Whether the service completes a short prompt. -/
def isHealthy (s : Service) : Except Fault Bool × Option Notice × Service :=
  let prompt : Prompt := { text := "ping", maxTokens := .whole 1, temperature := .real 0 }
  let (outcome, notice, s) := s.complete prompt
  match outcome with
  | .ok _ => (.ok true, notice, s)
  | .error (.unavailable _) => (.ok false, notice, s)
  | .error why => (.error why, notice, s)

/-- The service for a completion model and, unless its name is empty, an embedding model. -/
def create (registry : Registry) (environment : Environment) (completion : String)
    (embedding : Option String) (completions embeddings : Script BackendAnswer) :
    Except Outage Service := do
  let completionModel ← registry.require completion "completion"
  let embeddingModel ← match embedding with
    | some id => if id.isEmpty then pure none else (registry.require id "embedding").map some
    | none => pure none
  return { environment, completionModel, embeddingModel, completions, embeddings, calls := [] }

end Service

end TieredMemory
