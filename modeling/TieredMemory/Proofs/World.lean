import TieredMemory.World

/-!
# Calls of collaborators take no time by themselves

A call uses up a script and may report something. Where a reply takes time, it is the caller who
waits for it, so the clock is the same after every call.
-/

namespace TieredMemory.World

variable {w : World}

@[simp] theorem now_report (n : Notice) : (w.report n).now = w.now := rfl

@[simp] theorem now_reportAny (n : Option Notice) : (w.reportAny n).now = w.now := by
  cases n <;> rfl

theorem now_serviceReply (call : Service → Except Fault String × Option Notice × Service) :
    (w.serviceReply call).2.now = w.now := by
  unfold serviceReply
  split
  · rfl
  · exact now_reportAny _

theorem now_classify? {query : String} {r : Reply × World} (h : w.classify? query = some r) :
    r.2.now = w.now := by
  unfold classify? at h
  split at h
  · cases h
  · cases h
    rfl
  · cases h
    exact now_serviceReply _

theorem now_embedWith (source : EmbedderSource) (text : String) :
    (w.embedWith source text).2.now = w.now := by
  unfold embedWith
  cases source with
  | counter words => rfl
  | service =>
    simp only
    split
    · rfl
    · exact now_reportAny _

@[simp] theorem now_embed (user operation text : String) :
    (w.embed user operation text).2.now = w.now := by
  unfold embed
  split
  · rfl
  · next source _ =>
    have hnow := now_embedWith (w := w) source text
    split <;> next h =>
      rw [h] at hnow
      exact hnow

end TieredMemory.World
