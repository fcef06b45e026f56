import TieredMemory.Fault
import TieredMemory.Pattern.Basic
import TieredMemory.Regex.Matcher
import TieredMemory.Regex.Reader
import TieredMemory.Similarity
import TieredMemory.Text.Find

/-!
# How a query sets off triggers

A keyword or an expression that is found scores a fixed number, an embedding its similarity to that
of the query. A malformed expression is never found. The pattern that applies is the one whose best
trigger above the threshold scores highest after a boost for its uses; more used patterns come first
among equals.
-/

namespace TieredMemory

/-- The score of a keyword that occurs. -/
def keywordHit : Float := 0.9

/-- The score of an expression that is found. -/
def regexHit : Float := 0.85

/-- The score of the text of a semantic trigger that occurs, where embeddings are missing. -/
def textHit : Float := 0.7

namespace Trigger

/-- The score of a trigger whose text occurs in the query, letter case aside. -/
def textScore (hit : Float) (query : String) (t : Trigger) : Float :=
  if Text.occursIn t.key (Text.lower query) then hit else 0

/-- The score of a trigger for a query. -/
def score (query : String) (embedding : Option Embedding) (t : Trigger) : Except Fault Float :=
  match t.kind with
  | .keyword => .ok (t.textScore keywordHit query)
  | .regex =>
    match Regex.read t.text with
    | .ok e => .ok (if Regex.occurs e query then regexHit else 0)
    | .error .malformed => .ok 0
    | .error .countTooLarge => .error .tooLarge
  | .semantic =>
    match embedding, t.embedding with
    | some q, some e => .ok (if e.isEmpty then t.textScore textHit query else cosine q e)
    | _, _ => .ok (t.textScore textHit query)

end Trigger

namespace Pattern

/-- What past uses add to a score. A number of uses that is too large to compute with is a fault. -/
def boost (p : Pattern) : Except Fault Float :=
  let uses := Float.ofInt p.usage
  if uses.isInf then .error .tooLarge else .ok (least (uses * 0.01) 0.15)

/-- The best pattern so far with its boosted score. -/
abbrev Best := Option (Pattern × Float)

/-- Take a trigger of a pattern into account: it counts if it scores above the threshold, and it
wins if its boosted score is greater than the best so far. -/
def consider (query : String) (embedding : Option Embedding) (p : Pattern) (boost : Float)
    (best : Best) (t : Trigger) : Except Fault Best := do
  let s ← t.score query embedding
  if s ≤ p.threshold then return best
  match best with
  | none => return some (p, s + boost)
  | some (_, top) => return if top < s + boost then some (p, s + boost) else best

/-- Take the triggers of a pattern into account. -/
def considerAll (query : String) (embedding : Option Embedding) (best : Best) (p : Pattern) :
    Except Fault Best := do
  let boost ← p.boost
  p.triggers.foldlM (consider query embedding p boost) best

/-- The pattern that applies to a query. -/
def best? (query : String) (embedding : Option Embedding) (patterns : List Pattern) :
    Except Fault (Option Pattern) := do
  let ordered := descending (fun a b => decide (a.usage < b.usage)) patterns
  let best ← ordered.foldlM (considerAll query embedding) none
  return best.map (·.1)

end Pattern

end TieredMemory
