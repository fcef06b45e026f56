import TieredMemory.Fact
import TieredMemory.Importance
import TieredMemory.Pattern.Detection
import TieredMemory.Regex.Matcher
import TieredMemory.Regex.Reader

/-!
# Extracting facts

A message is annotated when it is written: with flags, and with the names, technologies and
addresses in it, for the sake of novelty. Later, facts are extracted from it: from the JSON answer
of a completer, or by rules where there is no completer or its answer is wrong. A rule is an
expression whose first group is the value of the fact; a rule without a key has the key in the first
group and the value in the second.
-/

namespace TieredMemory

namespace Extraction

/-- Words that name a technology. -/
def technologies : List String := [
  "python", "javascript", "typescript", "rust", "go", "java", "c#", ".net",
  "sql", "sqlite", "postgres", "redis", "docker", "kubernetes", "api",
  "react", "django", "fastapi", "azure", "aws", "openai", "git"]

/-- A word without the punctuation at its ends. -/
def cleaned (word : String) : String := Text.trimChars ".,!?;:()\"'" word

/-! ### Addresses -/

/-- The text after the scheme of an address that starts here. -/
def afterScheme? (s : List Char) : Option (List Char) :=
  ["http://", "https://"].findSome? fun scheme =>
    if scheme.toList.isPrefixOf s then some (s.drop scheme.length) else none

/-- The characters of an address that starts here. -/
def address? (s : List Char) : Option (List Char) :=
  match afterScheme? s with
  | some (c :: _) => if Text.isBlank c then none else some (s.takeWhile fun c => !Text.isBlank c)
  | _ => none

/-- The addresses in a text, past the given number of characters. -/
def addressesFrom : Nat → List Char → List (List Char)
  | _, [] => []
  | skip + 1, _ :: r => addressesFrom skip r
  | 0, c :: r =>
    match address? (c :: r) with
    | some a => a :: addressesFrom (a.length - 1) r
    | none => addressesFrom 0 r

/-- The first three addresses in a text. -/
def addresses (text : String) : List String :=
  ((addressesFrom 0 text.toList).take 3).map String.ofList

/-! ### Entities of a turn -/

/-- The word ends a sentence. -/
def endsSentence (word : String) : Bool := [".", "!", "?", ":"].any fun e => Text.endsWith e word

/-- A name: a capitalised word other than the first person. -/
def isName (word : String) : Bool :=
  word.toList.head?.any Text.isUpperChar && !Text.beginsWith "I'" word && word != "I"

/-- The names and technologies among words, where the first word may start a sentence. -/
def namesIn (sentenceStart : Bool) : List String → List String
  | [] => []
  | word :: r =>
    let c := cleaned word
    let rest := namesIn (endsSentence word) r
    if technologies.contains (Text.lower c) then Text.lower c :: rest
    else if isName c && !sentenceStart then c :: rest
    else rest

/-- The members whose keys have not occurred before. -/
def firstByKey {α κ : Type} [BEq κ] (key : α → κ) (seen : List κ) : List α → List α
  | [] => []
  | a :: r =>
    if seen.contains (key a) then firstByKey key seen r else a :: firstByKey key (key a :: seen) r

/-- The names, technologies and addresses in a text, each once, letter case aside. -/
def entities (text : String) : List String :=
  firstByKey Text.lower [] (namesIn true (Text.words text) ++ addresses text)

/-- The turn with its flags, and with the entities of its text unless it has some already. -/
def annotate (t : Turn) : Turn :=
  { t with
    flags :=
      ⟨Importance.isQuestion t.text, Importance.hasDecision t.text, Importance.hasCode t.text⟩
    entities := if t.entities.isEmpty then entities t.text else t.entities }

/-! ### Findings -/

/-- What a fact is going to be made of. -/
structure Finding where
  key : String
  value : String
  kind : FactKind
  importance : Float

/-- A rule that finds a value, and perhaps its key, in a text. -/
structure Rule where
  expression : String
  key : Option String
  kind : FactKind
  importance : Float

/-- The rules, in order. -/
def rules : List Rule := [
  ⟨"\\bmy name is ([A-Za-z][\\w' -]\x7b0,40\x7d?)(?:[.,!?]|$)", some "name", .person, 0.9⟩,
  ⟨"\\bi live in ([A-Za-z][\\w' -]\x7b0,40\x7d?)(?:[.,!?]|$)", some "location", .location, 0.7⟩,
  ⟨"\\bi prefer ([^.!?\\n]\x7b2,80\x7d)", some "preference", .preference, 0.7⟩,
  ⟨"\\bi (?:decided|will) ([^.!?\\n]\x7b2,80\x7d)", some "decision", .decision, 0.9⟩,
  ⟨"\\bi want to ([^.!?\\n]\x7b2,80\x7d)", some "goal", .goal, 0.7⟩,
  ⟨"\\b(?:i can't|i cannot|we can't|must not) ([^.!?\\n]\x7b2,80\x7d)", some "constraint", .limit,
    0.8⟩,
  ⟨"\\bmy ([a-z][a-z ]\x7b1,30\x7d?) is ([^.!?\\n]\x7b1,80\x7d)", none, .other, 0.6⟩]

/-- What a rule finds in a text. -/
def Rule.apply? (r : Rule) (text : String) : Option Finding := do
  let e ← (Regex.read r.expression).toOption
  let (_, p) ← Regex.search? e text
  let first ← p.text? text 1
  match r.key with
  | some key => return ⟨key, Text.trim first, r.kind, r.importance⟩
  | none => return ⟨Text.trim first, Text.trim (← p.text? text 2), r.kind, r.importance⟩

/-- The technologies named in a text. -/
def technologiesIn (text : String) : List Finding :=
  (((Text.words text).map cleaned).filter fun c => technologies.contains (Text.lower c)).map
    fun c => ⟨"technology", c, .technology, 0.7⟩

/-- The key and the value in lower case. -/
def Finding.pair (f : Finding) : String × String := (Text.lower f.key, Text.lower f.value)

/-- What the rules find in a text, each pair of key and value once. -/
def byRules (text : String) : List Finding :=
  let code := if Text.occursIn "```" text then [⟨"contains code", "true", .technology, 0.8⟩] else []
  let urls := (addresses text).map fun a => ⟨"referenced url", a, .other, 0.6⟩
  firstByKey Finding.pair []
    (rules.filterMap (fun r => r.apply? text) ++ technologiesIn text ++ code ++ urls)

/-! ### The completer's answer -/

/-- The finding of one item, if it is an object with a key and a value. -/
def findingOfItem? : Json.Value → Except Fault (Option Finding)
  | .obj item =>
    let key := Candidate.textMember item "key"
    let value := Candidate.textMember item "value"
    if key.isEmpty || value.isEmpty then .ok none
    else do
      let kind := ((Json.lookup? "type" item).getD (.str "other")).shown
      let importance ← ((Json.lookup? "importance" item).getD (.real 0.5)).toFloat
      return some ⟨key, value, FactKind.ofName (Text.lower (Text.trim kind)), importance⟩
  | _ => .ok none

/-- The findings that an answer lists. -/
def ofAnswer (content : String) : Except Fault (List Finding) := do
  let items ← Candidate.itemsOfAnswer "entities" content
  return (← items.mapM findingOfItem?).filterMap id

/-- The prompt that asks for the facts in a text. -/
def prompt (text : String) : Prompt where
  text := "Extract key entities from this text. Return a JSON array.\n\nText: " ++ text ++
    "\n\nFormat:\n[\n  \x7b\n    \"key\": \"EntityName\",\n    \"value\": \"EntityValue\",\n" ++
    "    \"type\": \"Person|Place|Technology|Decision|Preference|Constraint|Goal|Other\",\n" ++
    "    \"importance\": 0.0-1.0\n  \x7d\n]\n\nReturn ONLY valid JSON array, no additional text."
  temperature := .real 0.1
  system := some "You are an entity extraction expert. Always return valid JSON."

/-! ### Facts -/

/-- The facts of findings, new at the present time. -/
def factsOf (user conversation : String) : List Finding → World → List Fact × World
  | [], w => ([], w)
  | f :: r, w =>
    let (id, w) := w.newFact
    let fact : Fact := {
      id, user, conversation
      key := f.key, value := f.value, kind := f.kind
      importance := clampUnit f.importance
      embedding := none
      lastAccessed := w.now, accessCount := 1, createdAt := w.now }
    let (facts, w) := factsOf user conversation r w
    (fact :: facts, w)

/-- The facts that the rules find in a turn. -/
def factsByRules (t : Turn) (w : World) : List Fact × World :=
  factsOf t.user t.conversation (byRules t.text) w

/-- The facts of a turn after the completer has given its answer. -/
def factsOfOutcome (t : Turn) (outcome : Except Fault Json.Value) (w : World) : List Fact × World :=
  match (do ofAnswer (← (← outcome).toText)) with
  | .ok findings => factsOf t.user t.conversation findings w
  | .error why => factsByRules t (w.report (.extractedByRules t.user why))

/-- The facts of a turn, by the completer if there is one. -/
def ofTurn (t : Turn) (w : World) : List Fact × World :=
  match w.complete? (prompt t.text) with
  | none => factsByRules t w
  | some (reply, w) => factsOfOutcome t reply.outcome (w.after (max reply.delay 0))

end Extraction

end TieredMemory
