import TieredMemory.Order
import TieredMemory.Text.Case
import TieredMemory.Turn

/-!
# Patterns

A pattern ties triggers to an instruction: when a query sets off one of its triggers with a score
above the pattern's threshold, the instruction applies. Every use is counted, and after a number of
uses the threshold relaxes step by step toward a floor.
-/

namespace TieredMemory

/-- How a trigger is compared with a query. -/
inductive TriggerKind where
  /-- The text occurs in the query, letter case aside. -/
  | keyword
  /-- The expression is found in the query, letter case aside. -/
  | regex
  /-- The embeddings are similar. -/
  | semantic
  deriving Repr, DecidableEq

/-- The written name of a kind. -/
def TriggerKind.name : TriggerKind → String
  | keyword => "keyword"
  | regex => "regex"
  | semantic => "semantic"

/-- The kind of a written name. -/
def TriggerKind.ofName? : String → Option TriggerKind
  | "keyword" => some keyword
  | "regex" => some regex
  | "semantic" => some semantic
  | _ => none

/-- What sets a pattern off. -/
structure Trigger where
  kind : TriggerKind
  text : String
  embedding : Option Embedding

/-- The text by which triggers are told apart. -/
def Trigger.key (t : Trigger) : String := Text.lower t.text

/-- How a threshold relaxes with use. -/
structure ReinforcementPolicy where
  /-- Uses up to this number leave the threshold alone. -/
  decayAfterUses : Int := 10
  /-- What one use takes off the threshold. -/
  step : Float := 0.05
  /-- Thresholds up to this one are left alone. -/
  ceiling : Float := 0.7
  /-- A use does not bring the threshold below this. -/
  floor : Float := 0.6

/-- A learned pattern. -/
structure Pattern where
  id : String
  user : String
  name : String
  description : String
  triggers : List Trigger
  template : String
  threshold : Float
  usage : Int
  createdAt : Time
  lastUsed : Time

namespace Pattern

/-- The keys of the triggers. -/
def triggerKeys (p : Pattern) : List String := p.triggers.map Trigger.key

/-- The threshold after the use that brings the count to `usage`. -/
def relaxed (policy : ReinforcementPolicy) (usage : Int) (threshold : Float) : Float :=
  if usage > policy.decayAfterUses ∧ policy.ceiling < threshold then
    greatest policy.floor (threshold - policy.step)
  else threshold

/-- The pattern with one more use at the given time. -/
def recordUsage (policy : ReinforcementPolicy) (time : Time) (p : Pattern) : Pattern :=
  { p with
    usage := p.usage + 1
    lastUsed := time
    threshold := relaxed policy (p.usage + 1) p.threshold }

/-- The pattern with `n` more uses at the given time. -/
def recordUsages (policy : ReinforcementPolicy) (time : Time) : Nat → Pattern → Pattern
  | 0, p => p
  | n + 1, p => recordUsages policy time n (p.recordUsage policy time)

end Pattern

end TieredMemory
