import TieredMemory.Decimal.Amount
import TieredMemory.Fault

/-!
# Notices

What is reported to the log when something is worked around or given up: a collaborator that fails
is replaced by a rule, a job or a task that fails or overruns its time is dropped. A notice says
what happened; its level, its source and its wording follow from that.
-/

namespace TieredMemory

/-- The mark of a user's operation in the log. -/
def operationTag (user operation : String) : String := s!"[user={user} op={operation}]"

/-- Something worth reporting. -/
inductive Notice where
  /-- A text has no embedding, so keywords are used. -/
  | noEmbedding (user operation : String) (why : Fault)
  /-- A turn has no sentiment. -/
  | noSentiment (user : String) (why : Fault)
  /-- A query has no label, so it counts as complex. -/
  | noLabel (why : Fault)
  /-- Facts were extracted by rules. -/
  | extractedByRules (user : String) (why : Fault)
  /-- Patterns were detected by rules. -/
  | detectedByRules (user : String) (why : Fault)
  /-- Detection by rules failed, too. -/
  | detectionFailed (user : String) (why : Fault)
  /-- A detected pattern was refused. -/
  | patternDiscarded (user : String) (why : Fault)
  /-- A consolidation took too long. -/
  | consolidationTimedOut (user : String) (timeout : Decimal.Amount)
  /-- A consolidation failed. -/
  | consolidationFailed (user : String) (why : Fault)
  /-- A search was done without the index. -/
  | searchedWithoutIndex (user : String) (why : Fault)
  /-- A job took too long. -/
  | jobTimedOut (name : String) (timeout : Option Decimal.Amount)
  /-- A job failed. -/
  | jobFailed (name : String) (why : Fault)
  /-- The enrichment of a turn took too long. -/
  | enrichmentTimedOut (user operation : String) (timeout : Decimal.Amount)
  /-- The enrichment of a turn failed. -/
  | enrichmentFailed (user operation : String) (why : Fault)
  /-- A model did not complete a prompt. -/
  | completionFailed (model text : String)
  /-- A model did not embed a text. -/
  | embeddingFailed (model text : String)

namespace Notice

/-- The notice is an error; otherwise it is a warning. -/
def isError : Notice → Bool
  | jobTimedOut .. | jobFailed .. | enrichmentTimedOut .. | enrichmentFailed ..
  | completionFailed .. | embeddingFailed .. => true
  | _ => false

/-- The written name of the level. -/
def level (n : Notice) : String := if n.isError then "ERROR" else "WARNING"

/-- The part of the program that reports it. -/
def source : Notice → String
  | noEmbedding .. => "mnemo.llm"
  | noSentiment .. => "mnemo.cognition.importance"
  | noLabel .. => "mnemo.cognition.planner"
  | extractedByRules .. => "mnemo.cognition.extraction"
  | detectedByRules .. | detectionFailed .. => "mnemo.memory.detection"
  | patternDiscarded .. | consolidationTimedOut .. | consolidationFailed .. =>
    "mnemo.memory.patterns"
  | searchedWithoutIndex .. => "mnemo.memory.sqlite_archive"
  | jobTimedOut .. | jobFailed .. => "mnemo.core.scheduler"
  | enrichmentTimedOut .. | enrichmentFailed .. => "mnemo.core.orchestrator"
  | completionFailed .. | embeddingFailed .. => "mnemo.llm.litellm_adapter"

/-- The wording, with the wording of a fault given by `spell`. -/
def text (spell : Fault → String) : Notice → String
  | noEmbedding user operation why =>
    operationTag user operation ++ " embedding unavailable, using keywords: " ++ spell why
  | noSentiment user why => operationTag user "score" ++ " sentiment unavailable: " ++ spell why
  | noLabel why => "[op=plan] classifier unavailable, planning Complex: " ++ spell why
  | extractedByRules user why =>
    operationTag user "extract" ++ " AI extraction failed, using rules: " ++ spell why
  | detectedByRules user why =>
    operationTag user "detect" ++ " AI pattern detection failed, using rules: " ++ spell why
  | detectionFailed user why =>
    operationTag user "detect" ++ " rule-based detection failed: " ++ spell why
  | patternDiscarded user why =>
    operationTag user "detect" ++ " discarded malformed pattern: " ++ spell why
  | consolidationTimedOut user timeout =>
    operationTag user "consolidate" ++ s!" timed out after {timeout.shown}s"
  | consolidationFailed user why => operationTag user "consolidate" ++ " failed: " ++ spell why
  | searchedWithoutIndex user why =>
    operationTag user "archive.search" ++ " FTS search failed, falling back to LIKE: " ++ spell why
  | jobTimedOut name timeout =>
    let shown := (timeout.map Decimal.Amount.shown).getD "None"
    s!"Job '{name}' timed out after {shown}s"
  | jobFailed name why => s!"Job '{name}' failed: " ++ spell why
  | enrichmentTimedOut user operation timeout =>
    operationTag user operation ++ s!" background task timed out after {timeout.shown}s"
  | enrichmentFailed user operation why =>
    operationTag user operation ++ " background task failed: " ++ spell why
  | completionFailed model text => s!"LiteLLM completion error for {model}: {text}"
  | embeddingFailed model text => s!"LiteLLM embedding error for {model}: {text}"

end Notice

end TieredMemory
