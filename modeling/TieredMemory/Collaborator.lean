import TieredMemory.Decimal.Amount
import TieredMemory.Fault
import TieredMemory.Json.Reader
import TieredMemory.Text.Case
import TieredMemory.Text.Find
import TieredMemory.Turn

/-!
# Collaborators

The memory consults collaborators that complete prompts, label queries, rate sentiments and embed
texts. What a collaborator does is not determined by what it is asked, so it is given as a *script*:
the replies that it gives one after another, the last of which it gives from then on. A reply comes
after a delay and is an answer or a fault. An embedder is a fixed function of the text.
-/

namespace TieredMemory

/-- What a collaborator does when it is called. -/
structure Reply where
  /-- The time until the answer is there. -/
  delay : Duration
  outcome : Except Fault Json.Value

/-- The items that come one after another; the last one stays. -/
abbrev Script (α : Type) := List α

/-- The next item of a script and the script after it. -/
def Script.next? {α : Type} : Script α → Option (α × Script α)
  | [] => none
  | [a] => some (a, [a])
  | a :: r => some (a, r)

/-- A prompt to be completed. -/
structure Prompt where
  text : String
  maxTokens : Decimal.Amount := .whole 1000
  temperature : Decimal.Amount := .real 0.3
  system : Option String := none

/-- An embedder that counts how often each of its words occurs, and breaks down on some texts. -/
structure WordCounter where
  words : List String
  breaksOn : List String

/-- The numbers of occurrences of the words in the lower-case text. -/
def WordCounter.embed (e : WordCounter) (text : String) : Except Fault Embedding :=
  if e.breaksOn.any fun s => Text.occursIn s text then .error (.broken "embedder down")
  else
    let lowered := Text.lower text
    .ok (e.words.map fun w => Float.ofNat (Text.count w lowered))

/-- The number that a JSON value stands for. -/
def Json.Value.toFloat : Json.Value → Except Fault Float
  | .bool b => .ok (if b then 1 else 0)
  | .int n =>
    let x := Decimal.ofDigits (n < 0) n.natAbs 0
    if x.isInf then .error .tooLarge else .ok x
  | .real x => .ok x
  | .str s =>
    match Decimal.read? s with
    | some x => .ok x
    | none => .error (.notNumber s)
  | _ => .error .notConvertible

/-- The text of a JSON value that has to be a text. -/
def Json.Value.toText : Json.Value → Except Fault String
  | .str s => .ok s
  | _ => .error .shapeless

/-- The items of a JSON value that is gone through one by one: a text has characters, an object has
names. -/
def Json.Value.items : Json.Value → Except Fault (List Json.Value)
  | .arr items => .ok items
  | .str s => .ok (s.toList.map fun c => .str (String.ofList [c]))
  | .obj members => .ok (members.map fun m => .str m.1)
  | _ => .error .notConvertible

/-- The text inside a code fence around an answer, and the whole text where there is none. A fence
may be marked as JSON. -/
def unfenced (content : String) : String :=
  let content := Text.trim content
  let inside :=
    if Text.beginsWith "```" content then
      let block := (Text.pieces "```" content)[1]?.getD ""
      if Text.beginsWith "json" block then Text.dropFirst 4 block else block
    else content
  Text.trim inside

end TieredMemory
