import TieredMemory.Sentiment
import TieredMemory.Service.Backend

/-!
# The world around the memory

What the memory finds outside itself: the clock, the numbering of new turns, facts and patterns, the
collaborators with their scripts, and the log of notices. Calling a collaborator uses up the next
item of its script. An embedding that cannot be had is reported and replaced by none; every other
failure is the caller's to handle.
-/

namespace TieredMemory

/-- Who completes prompts or labels queries. -/
inductive Responder where
  | scripted (script : Script Reply)
  | service

/-- Who rates sentiments. -/
inductive SentimentSource where
  | lexicon
  | scripted (script : Script Reply)

/-- Who embeds texts. -/
inductive EmbedderSource where
  | counter (words : WordCounter)
  | service

/-- How many turns, facts and patterns have been numbered. -/
structure Numbering where
  turns : Nat := 0
  facts : Nat := 0
  patterns : Nat := 0

/-- The surroundings of the memory. -/
structure World where
  now : Time := 0
  numbering : Numbering := {}
  completer : Option Responder := none
  classifier : Option Responder := none
  sentiment : Option SentimentSource := none
  embedder : Option EmbedderSource := none
  service : Option Service := none
  /-- The notices so far, latest first. -/
  notices : List Notice := []
  /-- The prompts given to the completer, latest first. -/
  prompts : List Prompt := []
  /-- The texts given to the embedder, latest first. -/
  embedded : List String := []

namespace World

/-- Report a notice. -/
def report (w : World) (n : Notice) : World := { w with notices := n :: w.notices }

/-- Report a notice if there is one. -/
def reportAny (w : World) (n : Option Notice) : World :=
  match n with
  | some n => w.report n
  | none => w

/-- The world after a time. -/
def after (d : Duration) (w : World) : World := { w with now := w.now + d }

/-- The identifier of a new turn. -/
def newTurn (w : World) : String × World :=
  let n := w.numbering.turns + 1
  (s!"turn-{n}", { w with numbering := { w.numbering with turns := n } })

/-- The identifier of a new fact. -/
def newFact (w : World) : String × World :=
  let n := w.numbering.facts + 1
  (s!"fact-{n}", { w with numbering := { w.numbering with facts := n } })

/-- The identifier of a new pattern. -/
def newPattern (w : World) : String × World :=
  let n := w.numbering.patterns + 1
  (s!"pattern-{n}", { w with numbering := { w.numbering with patterns := n } })

/-- The reply of a script that has run out, or that there never was. -/
def silence : Reply := ⟨0, .error (.broken "no scripted answer")⟩

/-- The reply of the service to a prompt, at once. -/
def serviceReply (w : World) (call : Service → Except Fault String × Option Notice × Service) :
    Reply × World :=
  match w.service with
  | none => (silence, w)
  | some s =>
    let (outcome, notice, s) := call s
    (⟨0, outcome.map Json.Value.str⟩, { w with service := some s }.reportAny notice)

/-- The reply of the completer to a prompt, if there is a completer. -/
def complete? (w : World) (p : Prompt) : Option (Reply × World) :=
  match w.completer with
  | none => none
  | some (.scripted script) =>
    let (reply, rest) := (script.next?).getD (silence, [])
    some (reply, { w with completer := some (.scripted rest), prompts := p :: w.prompts })
  | some .service => some ({ w with prompts := p :: w.prompts }.serviceReply fun s => s.complete p)

/-- The reply of the classifier to a query, if there is a classifier. -/
def classify? (w : World) (query : String) : Option (Reply × World) :=
  match w.classifier with
  | none => none
  | some (.scripted script) =>
    let (reply, rest) := (script.next?).getD (silence, [])
    some (reply, { w with classifier := some (.scripted rest) })
  | some .service => some (w.serviceReply fun s => s.classify query)

/-- The sentiment of a text, if there is someone to rate it, and how long the rating takes. -/
def rate? (w : World) (text : String) : Option (Duration × Except Fault Float × World) :=
  match w.sentiment with
  | none => none
  | some .lexicon => some (0, .ok (Sentiment.ofText text), w)
  | some (.scripted script) =>
    let (reply, rest) := (script.next?).getD (silence, [])
    some (reply.delay, reply.outcome.bind Json.Value.toFloat,
      { w with sentiment := some (.scripted rest) })

/-- The embedding of a text by the embedder that is there. -/
def embedWith (w : World) (source : EmbedderSource) (text : String) :
    Except Fault Embedding × World :=
  let w := { w with embedded := text :: w.embedded }
  match source with
  | .counter words => (words.embed text, w)
  | .service =>
    match w.service with
    | none => (.error (.broken "no scripted answer"), w)
    | some s =>
      let (outcome, notice, s) := s.embed text
      (outcome, { w with service := some s }.reportAny notice)

/-- The embedding of a text for a user's operation. Without an embedder there is none, and a failure
is reported. -/
def embed (w : World) (user operation text : String) : Option Embedding × World :=
  match w.embedder with
  | none => (none, w)
  | some source =>
    match w.embedWith source text with
    | (.ok e, w) => (some e, w)
    | (.error why, w) => (none, w.report (.noEmbedding user operation why))

end World

end TieredMemory
