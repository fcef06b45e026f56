import TieredMemory.Fault
import TieredMemory.Json.Value

/-!
# Models

A registry lists the models that can be called, each for one kind of call. A model may need a key or
an address from the environment; it is available when every variable that it names is set. A later
entry for the same identifier takes the place of the earlier one.
-/

namespace TieredMemory

/-- The variables that are set, with their values. -/
abbrev Environment := List (String × String)

/-- The value of a variable; a variable set to nothing counts as not set. -/
def Environment.value? (env : Environment) (name : String) : Option String :=
  match env.find? fun p => p.1 == name with
  | some (_, v) => if v.isEmpty then none else some v
  | none => none

/-- A model of the registry. -/
structure Model where
  id : String
  /-- The name under which the backend knows the model. -/
  name : Json.Value
  kind : String
  /-- The variable that holds the key. -/
  keyVariable : Option String
  /-- The variable that holds the address. -/
  addressVariable : Option String
  notes : Json.Value

namespace Model

/-- The value of a variable that the model may name. -/
def namedValue? (env : Environment) (name : Option String) : Option String :=
  name.bind fun n => if n.isEmpty then none else env.value? n

/-- Every variable that the model names is set. -/
def isAvailable (env : Environment) (m : Model) : Bool :=
  [m.keyVariable, m.addressVariable].all fun v =>
    match v with
    | some n => n.isEmpty || (env.value? n).isSome
    | none => true

/-- The parameters of every call of the model. -/
def callParameters (env : Environment) (m : Model) : List (String × Json.Value) :=
  ("model", m.name)
    :: ((namedValue? env m.keyVariable).map fun v => ("api_key", Json.Value.str v)).toList
    ++ ((namedValue? env m.addressVariable).map fun v => ("api_base", Json.Value.str v)).toList

/-- A member of an entry, or the given value when it is missing. -/
def member (entry : List (String × Json.Value)) (name : String) (default : Json.Value) :
    Json.Value :=
  (Json.lookup? name entry).getD default

/-- A member that names a variable. -/
def variableName (v : Json.Value) : Except Fault (Option String) :=
  match v with
  | .null => .ok none
  | .str s => .ok (some s)
  | v => if v.isTruthy then .error .notConvertible else .ok none

/-- The model of a registry entry. -/
def ofEntry (v : Json.Value) : Except Fault Model :=
  match v with
  | .obj entry => do
    let some id := Json.lookup? "model_id" entry | .error (.missing "model_id")
    let kind := member entry "kind" (.str "completion")
    let kind ← match kind with
      | .str "completion" => pure "completion"
      | .str "embedding" => pure "embedding"
      | other => .error (.unavailable (.unknownKind id.shown other.quoted))
    let some name := Json.lookup? "litellm_name" entry | .error (.missing "litellm_name")
    let id ← match id with
      | .str s => pure s
      | _ => .error .notConvertible
    return {
      id, name, kind
      keyVariable := ← variableName (member entry "auth_env" .null)
      addressVariable := ← variableName (member entry "base_url_env" .null)
      notes := member entry "notes" (.str "") }
  | _ => .error .notConvertible

end Model

/-- The models that can be called, in the order of their identifiers' first entries. -/
structure Registry where
  models : List Model

namespace Registry

/-- Put a model in the place of the one with its identifier, or at the end. -/
def put (m : Model) : List Model → List Model
  | [] => [m]
  | n :: r => if n.id = m.id then m :: r else n :: put m r

/-- The registry of a list of entries. -/
def ofEntries (entries : List Json.Value) : Except Fault Registry :=
  (entries.foldlM (fun models v => (Model.ofEntry v).map fun m => put m models) []).map Registry.mk

/-- The model with the identifier. -/
def find? (r : Registry) (id : String) : Option Model := r.models.find? fun m => m.id == id

/-- The available models, of one kind or of any. -/
def available (env : Environment) (kind : Option String) (r : Registry) : List Model :=
  r.models.filter fun m => m.isAvailable env && kind.all (· == m.kind)

/-- The model with the identifier, which has to be of the kind. -/
def require (r : Registry) (id kind : String) : Except Outage Model :=
  match r.find? id with
  | none => .error (.unknownModel id)
  | some m => if m.kind == kind then .ok m else .error (.wrongKind id m.kind kind)

/-- The models that are there unless another registry is given. -/
def standard : Registry := ⟨[
  { id := "claude-haiku", name := .str "anthropic/claude-3-5-haiku-20241022", kind := "completion",
    keyVariable := some "ANTHROPIC_API_KEY", addressVariable := none,
    notes := .str "Cheap classification and pattern detection" },
  { id := "gpt-4o-mini", name := .str "openai/gpt-4o-mini", kind := "completion",
    keyVariable := some "OPENAI_API_KEY", addressVariable := none, notes := .str "" },
  { id := "local", name := .str "openai/local-model", kind := "completion",
    keyVariable := none, addressVariable := some "MNEMO_LOCAL_LLM_URL",
    notes := .str "Any OpenAI-compatible local server" },
  { id := "text-embedding-3-small", name := .str "openai/text-embedding-3-small",
    kind := "embedding", keyVariable := some "OPENAI_API_KEY", addressVariable := none,
    notes := .str "" },
  { id := "local-embedding", name := .str "openai/local-embedding", kind := "embedding",
    keyVariable := none, addressVariable := some "MNEMO_LOCAL_LLM_URL", notes := .str "" }]⟩

end Registry

end TieredMemory
