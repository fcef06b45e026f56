import TieredMemory.Keyed
import TieredMemory.Order
import TieredMemory.Sentiment
import TieredMemory.Text.Word
import TieredMemory.World

/-!
# Importance

How much a turn is worth keeping: a weighted sum of what its text shows, of the strength of its
sentiment, of the number of entities that are new for its user, and of its recency. The scorer keeps
a ledger of the entities that it has seen for each user, in lower case.
-/

namespace TieredMemory

namespace Importance

/-- Phrases of decision. -/
def decisionPhrases : List String := [
  "i will", "let's", "we should", "i decided", "going to",
  "plan to", "commit to", "i'll", "we'll", "must"]

/-- Phrases that mark a text as important. -/
def markerPhrases : List String := [
  "important", "critical", "remember", "don't forget", "note that",
  "always", "never", "from now on", "crucial", "essential",
  "key point", "take note"]

/-- A phrase of decision stands in the text. -/
def hasDecision (text : String) : Bool := Text.hasPhrase decisionPhrases (Text.lower text)

/-- A marker of importance stands in the text. -/
def hasMarker (text : String) : Bool := Text.hasPhrase markerPhrases (Text.lower text)

/-- A code fence or the word "code" is in the text. -/
def hasCode (text : String) : Bool :=
  Text.occursIn "```" text || Text.hasPhrase ["code"] (Text.lower text)

/-- A question mark is in the text. -/
def isQuestion (text : String) : Bool := Text.occursIn "?" text

/-- The length above which a text counts as long. -/
def longText : Nat := 500

/-- Add a bonus if there is a reason for it. -/
def bonus (reason : Bool) (amount score : Float) : Float := if reason then score + amount else score

/-- The score that the text alone gives, between one half and one. -/
def baseScore (text : String) : Float :=
  least
    (bonus (text.length > longText) 0.1 <| bonus (hasCode text) 0.15 <|
      bonus (hasMarker text) 0.5 <| bonus (hasDecision text) 0.3 <| bonus (isQuestion text) 0.2 0.5) 1

/-- One within the first hour, then halved again and again. -/
def recency (createdAt now : Time) : Float :=
  let hours := Float.ofInt (now - createdAt) / 1000000 / 3600
  if hours < 1 then 1 else Float.exp (-hours / 24)

/-- What does not come from the text. -/
structure Signals where
  sentiment : Float := 0
  newEntities : Int := 0

/-- The importance of a text of a given age. -/
def score (text : String) (createdAt now : Time) (signals : Signals) : Float :=
  let emotion := least signals.sentiment.abs 1 * 0.5
  let novelty := least (0.1 * Float.ofInt (max signals.newEntities 0)) 0.5
  let total := 0.4 * baseScore text + 0.3 * emotion + 0.2 * novelty + 0.1 * recency createdAt now
  greatest 0 (least 1 total)

end Importance

/-- The entities that the scorer has seen for each user. -/
structure Scorer where
  seen : List (String × List String) := []

namespace Scorer

/-- The entities seen for a user. -/
def seenFor (s : Scorer) (user : String) : List String :=
  ((Keyed.find? Prod.fst user s.seen).map (·.2)).getD []

/-- The distinct entities, in lower case, that have not been seen for the user. -/
def fresh (s : Scorer) (user : String) (entities : List String) : List String :=
  ((entities.map Text.lower).eraseDups).filter fun e => !(s.seenFor user).contains e

/-- Enter entities for a user. -/
def enter (user : String) (entities : List String) (s : Scorer) : Scorer :=
  { s with seen := Keyed.put Prod.fst (user, s.seenFor user ++ entities) s.seen }

/-- The importance of a turn, given its sentiment. Its entities count as seen from now on. -/
def score (now : Time) (sentiment : Float) (t : Turn) (s : Scorer) : Float × Scorer :=
  let fresh := s.fresh t.user t.entities
  (Importance.score t.text t.createdAt now { sentiment, newEntities := fresh.length },
    s.enter t.user fresh)

/-- The importance of a turn. It has no sentiment if there is no one to rate it or the rating fails,
which is reported. -/
def assess (t : Turn) (s : Scorer) (w : World) : Float × Scorer × World :=
  let (sentiment, w) := match w.rate? t.text with
    | none => (0, w)
    | some (delay, .ok x, w) => (x, w.after (max delay 0))
    | some (delay, .error why, w) => (0, (w.after (max delay 0)).report (.noSentiment t.user why))
  let (x, s) := s.score w.now sentiment t
  (x, s, w)

/-- Forget the entities of a user. -/
def forget (user : String) (s : Scorer) : Scorer :=
  { s with seen := Keyed.remove Prod.fst user s.seen }

end Scorer

end TieredMemory
