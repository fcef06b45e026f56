import TieredMemory.Collaborator
import TieredMemory.Keywords
import TieredMemory.Pattern.Basic
import TieredMemory.Text.Word
import TieredMemory.World

/-!
# Detecting patterns

A message that gives an instruction for the future becomes a pattern. With a completer, its answer
lists candidates as JSON, of which the confident ones are taken; without one, or when anything about
its answer is wrong, marker phrases are looked for and the first long enough keyword becomes the
trigger.
-/

namespace TieredMemory

/-- A pattern as the completer describes it. -/
structure Candidate where
  name : String
  description : String
  template : String
  keywords : List String
  confidence : Float

namespace Candidate

/-- The least confidence with which a candidate is taken. -/
def leastConfidence : Float := 0.6

/-- A member of an object as trimmed text; a missing one is empty. -/
def textMember (item : List (String × Json.Value)) (name : String) : String :=
  ((Json.lookup? name item).map fun v => Text.trim v.shown).getD ""

/-- The keywords of an object: trimmed, in lower case, blank ones left out. -/
def keywordsOf (item : List (String × Json.Value)) : Except Fault (List String) :=
  match Json.lookup? "triggerKeywords" item with
  | none => .ok []
  | some v =>
    if v.isTruthy then
      v.items.map fun ks =>
        ((ks.map fun k => Text.trim k.shown).filter fun k => !k.isEmpty).map Text.lower
    else .ok []

/-- The candidate of one item, if it is an object with a name and a template. -/
def ofItem? : Json.Value → Except Fault (Option Candidate)
  | .obj item =>
    let name := textMember item "name"
    let template := textMember item "instructionTemplate"
    if name.isEmpty || template.isEmpty then .ok none
    else do
      let keywords ← keywordsOf item
      let description := textMember item "description"
      let confidence ← ((Json.lookup? "confidence" item).getD (.real 0.7)).toFloat
      return some {
        name, template, keywords, confidence
        description := if description.isEmpty then template else description }
  | _ => .ok none

/-- The items of a completer's answer, which has to be a JSON array, perhaps in a code fence. -/
def itemsOfAnswer (what content : String) : Except Fault (List Json.Value) :=
  match Json.read? (unfenced content) with
  | none => .error .notJson
  | some (.arr items) => .ok items
  | some _ => .error (.notArray what)

/-- The candidates that an answer lists. -/
def ofAnswer (content : String) : Except Fault (List Candidate) := do
  let items ← itemsOfAnswer "patterns" content
  return (← items.mapM ofItem?).filterMap id

/-- The keywords once each, then the description with its embedding. -/
def triggers (c : Candidate) (embedding : Option Embedding) : List Trigger :=
  (c.keywords.eraseDups.map fun k => ⟨.keyword, k, none⟩) ++ [⟨.semantic, c.description, embedding⟩]

end Candidate

namespace Detection

/-! ### By markers -/

/-- The phrases that mark an instruction, with the labels of the patterns, in order of
precedence. -/
def markers : List (String × String) := [
  ("from now on", "Future Instruction"),
  ("remember to", "Reminder Instruction"),
  ("make sure to", "Ensure Instruction"),
  ("i prefer", "User Preference"),
  ("always", "Always Instruction"),
  ("never", "Never Instruction"),
  ("format", "Format Preference")]

/-- The words of the markers. -/
def markerWords : List String := (markers.map fun m => Text.words m.1).flatten

/-- The least length of a keyword. -/
def shortestKeyword : Nat := 5

/-- The first long enough token that is neither a stop word nor part of a marker. -/
def keyword? (text : String) : Option String :=
  (Keywords.tokens text).find? fun t =>
    shortestKeyword ≤ t.length && !Keywords.stopWords.contains t && !markerWords.contains t

/-- The text from the marker on, up to the end of the sentence and at most thirty characters. -/
def keyPhrase (text marker : String) : String :=
  let lowered := Text.lower text
  match Text.find? marker lowered with
  | none => "pattern"
  | some i =>
    let phrase := Text.trim (Text.takeFirst 50 (Text.dropFirst i lowered))
    let cs := phrase.toList
    let sentence := cs.takeWhile fun c => !(c == '.' || c == '!' || c == '?')
    let cs := if sentence.isEmpty then cs else sentence
    if cs.length > 30 then String.ofList (cs.take 30) ++ "..." else String.ofList cs

/-- The threshold of a pattern found by its marker. -/
def markerThreshold : Float := 0.7

/-- The first marker that stands in the text as words. -/
def marker? (text : String) : Option (String × String) :=
  let lowered := Text.lower text
  markers.find? fun m => Text.hasPhrase [m.1] lowered

/-- A new pattern at the present time. -/
def create (user : String) (c : Candidate) (triggers : List Trigger) (w : World) :
    Pattern × World :=
  let (id, w) := w.newPattern
  ({ id, user, triggers
     name := c.name
     description := c.description
     template := c.template
     threshold := clampUnit c.confidence
     usage := 0
     createdAt := w.now
     lastUsed := w.now }, w)

/-- The patterns of a text by its marker: at most one. -/
def byMarker (user text : String) (w : World) : List Pattern × World :=
  match marker? text with
  | none => ([], w)
  | some (marker, label) =>
    match keyword? text with
    | none => ([], w)
    | some k =>
      let name := label ++ ": " ++ keyPhrase text marker
      let (p, w) := create user ⟨name, text, text, [], markerThreshold⟩ [⟨.keyword, k, none⟩] w
      ([p], w)

/-- The patterns of a message by its marker; a message without text gives none, and that is
reported. -/
def byMarkers (user : String) (text : Option String) (w : World) : List Pattern × World :=
  match text with
  | some text => byMarker user text w
  | none => ([], w.report (.detectionFailed user .shapeless))

/-! ### By the completer -/

/-- The prompt that asks for the patterns of a message. -/
def prompt (text : Option String) : Prompt where
  text :=
    "Analyze this message for procedural instructions or patterns that should be remembered " ++
    "for future interactions.\n\nMessage: " ++ text.getD "None" ++
    "\n\nIdentify any:\n1. Explicit preferences (\"I prefer...\", \"Always...\", \"Never...\")\n" ++
    "2. Workflow patterns (\"When X, then Y...\")\n" ++
    "3. Format preferences (\"Format code as...\", \"Structure as...\")\n" ++
    "4. Decision rules (\"If X, do Y...\")\n" ++
    "5. Constraints (\"Don't include...\", \"Make sure to...\")\n\n" ++
    "Return a JSON array of patterns found:\n[\n  \x7b\n" ++
    "    \"name\": \"Brief pattern name\",\n" ++
    "    \"description\": \"What this pattern does\",\n" ++
    "    \"instructionTemplate\": \"How to apply this pattern\",\n" ++
    "    \"triggerKeywords\": [\"keyword1\", \"keyword2\"],\n" ++
    "    \"confidence\": 0.0-1.0\n  \x7d\n]\n\n" ++
    "Return ONLY valid JSON array. If no patterns found, return empty array []."
  temperature := .real 0.2

/-- The patterns of the confident candidates. -/
def ofCandidates (user : String) : List Candidate → World → List Pattern × World
  | [], w => ([], w)
  | c :: r, w =>
    if c.confidence < Candidate.leastConfidence then ofCandidates user r w
    else
      let (embedding, w) := w.embed user "detect" c.template
      let (p, w) := create user c (c.triggers embedding) w
      let (ps, w) := ofCandidates user r w
      (p :: ps, w)

/-- The candidates in what the completer gave. -/
def candidates (outcome : Except Fault Json.Value) : Except Fault (List Candidate) := do
  Candidate.ofAnswer (← (← outcome).toText)

/-- The patterns of a message after the completer has given its answer. -/
def ofOutcome (user : String) (text : Option String) (outcome : Except Fault Json.Value)
    (w : World) : List Pattern × World :=
  match candidates outcome with
  | .ok cs => ofCandidates user cs w
  | .error why => byMarkers user text (w.report (.detectedByRules user why))

/-- The patterns of a message, by the completer if there is one. -/
def ofMessage (user : String) (text : Option String) (w : World) : List Pattern × World :=
  match w.complete? (prompt text) with
  | none => byMarkers user text w
  | some (reply, w) => ofOutcome user text reply.outcome (w.after (max reply.delay 0))

end Detection

end TieredMemory
