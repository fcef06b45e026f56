import TieredMemory.Proofs.Pattern.Background
import TieredMemory.Proofs.Pattern.Detection

/-!
# A store learns everything that is detected

A store that learns from a message waits for the completer, and consolidates in the meantime. That adds
to the notices and changes nothing else of the world (`PatternStore.wait_world`), so what is detected
then is what the detector alone would detect. All of it can be stored, and it is stored one pattern after
another: there is a pattern that carries on for each detected one (`PatternStore.learnFrom_stores`).
-/

namespace TieredMemory

variable {w : World} {user : String}

/-! ### Notices have no part in what is detected -/

/-- The world with other notices. -/
def World.noted (w : World) (ns : List Notice) : World := { w with notices := ns }

theorem World.reportAny_noted (w : World) (n : Option Notice) (ns : List Notice) :
    ∃ ns', (w.noted ns).reportAny n = (w.reportAny n).noted ns' := by
  cases n with
  | none => exact ⟨ns, rfl⟩
  | some n => exact ⟨n :: ns, rfl⟩

theorem World.embedWith_noted (w : World) (ns : List Notice) (source : EmbedderSource)
    (text : String) :
    ∃ ns', (w.noted ns).embedWith source text =
      ((w.embedWith source text).1, (w.embedWith source text).2.noted ns') := by
  cases source with
  | counter words => exact ⟨ns, rfl⟩
  | service =>
    unfold embedWith
    simp only [noted]
    cases w.service with
    | none => exact ⟨ns, rfl⟩
    | some s =>
      obtain ⟨ns', h⟩ := reportAny_noted
        { w with embedded := text :: w.embedded, service := some (s.embed text).2.2 }
        (s.embed text).2.1 ns
      exact ⟨ns', congrArg _ h⟩

theorem World.embed_noted (w : World) (ns : List Notice) (user operation text : String) :
    ∃ ns', (w.noted ns).embed user operation text =
      ((w.embed user operation text).1, (w.embed user operation text).2.noted ns') := by
  unfold embed
  simp only [show (w.noted ns).embedder = w.embedder from rfl]
  cases w.embedder with
  | none => exact ⟨ns, rfl⟩
  | some source =>
    obtain ⟨ns', h⟩ := w.embedWith_noted ns source text
    simp only [h]
    rcases w.embedWith source text with ⟨outcome | e, w'⟩
    · exact ⟨_, rfl⟩
    · exact ⟨ns', rfl⟩

namespace Detection

theorem ofCandidates_noted (user : String) (cs : List Candidate) (w : World) (ns : List Notice) :
    ∃ ns', ofCandidates user cs (w.noted ns) =
      ((ofCandidates user cs w).1, (ofCandidates user cs w).2.noted ns') := by
  induction cs generalizing w ns with
  | nil => exact ⟨ns, rfl⟩
  | cons c r ih =>
    unfold ofCandidates
    split
    · exact ih w ns
    · obtain ⟨ns₁, hembed⟩ := w.embed_noted ns user "detect" c.template
      simp only [hembed]
      obtain ⟨ns₂, hrest⟩ := ih (create user c (c.triggers (w.embed user "detect" c.template).1)
        (w.embed user "detect" c.template).2).2 ns₁
      exact ⟨ns₂, congrArg (fun r : List Pattern × World => (_ :: r.1, r.2)) hrest⟩

theorem byMarkers_noted (text : Option String) (w : World) (ns : List Notice) :
    (byMarkers user text (w.noted ns)).1 = (byMarkers user text w).1 := by
  cases text with
  | none => rfl
  | some text =>
    unfold byMarkers byMarker
    dsimp only
    split
    · rfl
    · split <;> rfl

/-- What is detected does not depend on the notices. -/
theorem ofOutcome_noted (text : Option String) (outcome : Except Fault Json.Value) (w : World)
    (ns : List Notice) :
    (ofOutcome user text outcome (w.noted ns)).1 = (ofOutcome user text outcome w).1 := by
  unfold ofOutcome
  split
  · obtain ⟨ns', h⟩ := ofCandidates_noted user _ w ns
    rw [h]
  · next why _ =>
    exact (byMarkers_noted text w (.detectedByRules user why :: ns)).trans
      (byMarkers_noted text w (.detectedByRules user why :: w.notices)).symm

end Detection

namespace PatternStore

variable {s : PatternStore}

/-! ### Waiting -/

theorem finish_world (c : Consolidation) (s : PatternStore) (w : World) :
    ∃ ns, (s.finish c w).2 = w.noted ns := by
  unfold finish
  dsimp only
  split
  · exact ⟨_, rfl⟩
  · exact ⟨w.notices, rfl⟩

theorem advance_world (s : PatternStore) (w : World) : ∃ ns, (s.advance w).2 = w.noted ns := by
  unfold advance finishDue
  refine List.foldlRecOn (motive := fun r : PatternStore × World => ∃ ns, r.2 = w.noted ns) _ _
    ⟨w.notices, rfl⟩ ?_
  rintro r ⟨ns, hr⟩ c -
  obtain ⟨ns', h⟩ := finish_world c r.1 r.2
  exact ⟨ns', by rw [h, hr]; rfl⟩

theorem runSteps_world (p : Time → Bool) (n : Nat) (s : PatternStore) (w : World) :
    ∃ now ns, (s.runSteps p n w).2 = { w with now }.noted ns := by
  induction n generalizing s w with
  | zero => exact ⟨w.now, w.notices, rfl⟩
  | succ n ih =>
    rw [runSteps]
    split
    · exact ⟨w.now, w.notices, rfl⟩
    · next t _ =>
      split
      · obtain ⟨ns, h⟩ := advance_world s { w with now := max w.now t }
        obtain ⟨now, ns', h'⟩ := ih (s.advance { w with now := max w.now t }).1
          (s.advance { w with now := max w.now t }).2
        exact ⟨now, ns', by rw [h', h]; rfl⟩
      · exact ⟨w.now, w.notices, rfl⟩

/-- While a store waits, time passes and notices are added; nothing else changes in the world. -/
theorem wait_world (d : Duration) (s : PatternStore) (w : World) :
    ∃ ns, (s.wait d w).2 = (w.after (max d 0)).noted ns := by
  obtain ⟨ns, h⟩ := advance_world s w
  obtain ⟨now, ns', h'⟩ := runSteps_world (· < w.now + max d 0) (s.advance w).1.background.length
    (s.advance w).1 (s.advance w).2
  refine ⟨ns', ?_⟩
  unfold wait
  dsimp only
  rw [h', h]
  rfl

/-! ### Storing one after another -/

/-- The patterns `ps` are stored one after another, from the store `s` in the world `w` on, and of
each of them a pattern of `kept` carries on. -/
inductive StoredInTurn : PatternStore → World → List Pattern → List Pattern → PatternStore → World → Prop
  | nil (s : PatternStore) (w : World) : StoredInTurn s w [] [] s w
  | cons {s s' s'' : PatternStore} {w w' w'' : World} {p k : Pattern} {ps ks : List Pattern}
    (first : s.store p true w = .ok (k, s', w')) (rest : StoredInTurn s' w' ps ks s'' w'') :
    StoredInTurn s w (p :: ps) (k :: ks) s'' w''

theorem StoredInTurn.length_eq {s s' : PatternStore} {w w' : World} {ps ks : List Pattern}
    (h : StoredInTurn s w ps ks s' w') : ks.length = ps.length := by
  induction h with
  | nil => rfl
  | cons _ _ ih => rw [List.length_cons, List.length_cons, ih]

/-- A pattern that passes the check is stored, whatever there is in the store. -/
theorem exists_store_of_check {p : Pattern} (hp : check p = .ok ()) (mergeAlike : Bool)
    (s : PatternStore) (w : World) : ∃ k s' w', s.store p mergeAlike w = .ok (k, s', w') := by
  simp only [store, hp, bind, Except.bind]
  exact ⟨_, _, _, rfl⟩

theorem learn_cons (user : String) (p : Pattern) (ps : List Pattern) (s : PatternStore) (w : World) :
    s.learn user (p :: ps) w =
      match s.store p true w with
      | .error why => s.learn user ps (w.report (.patternDiscarded user (.rejected why)))
      | .ok (kept, s, w) => (kept :: (s.learn user ps w).1, (s.learn user ps w).2) := by
  rfl

theorem storedInTurn_learn (user : String) {ps : List Pattern} (hps : ∀ p ∈ ps, check p = .ok ())
    (s : PatternStore) (w : World) :
    StoredInTurn s w ps (s.learn user ps w).1 (s.learn user ps w).2.1 (s.learn user ps w).2.2 := by
  induction ps generalizing s w with
  | nil => exact .nil s w
  | cons p ps ih =>
    obtain ⟨hp, hps⟩ := List.forall_mem_cons.1 hps
    obtain ⟨k, s', w', hstore⟩ := exists_store_of_check hp true s w
    rw [learn_cons, hstore]
    exact .cons hstore (ih hps s' w')

/-! ### Learning -/

/-- The store when the completer has answered: it has waited for the answer, if there is someone to
give one and it takes time. -/
def afterAnswer (text : Option String) (s : PatternStore) (w : World) : PatternStore :=
  match w.complete? (Detection.prompt text) with
  | none => s
  | some (reply, w) => if reply.delay > 0 then (s.wait reply.delay w).1 else s

/-- Whatever a message says and the completer answers, every detected pattern passes the check, and a
store that learns from the message stores them one after another, with nothing left out. -/
theorem learnFrom_stores (user : String) (hu : checkUser user = .ok ()) (text : Option String)
    (s : PatternStore) (w : World) :
    (∀ p ∈ (Detection.ofMessage user text w).1, check p = .ok ()) ∧
      ∃ w₁ kept s' w', s.learnFrom user text w = .ok (kept, s', w') ∧
        StoredInTurn (s.afterAnswer text w) w₁ (Detection.ofMessage user text w).1 kept s' w' ∧
        kept.length = (Detection.ofMessage user text w).1.length := by
  have hchecked := Detection.check_of_mem_ofMessage hu text w
  refine ⟨hchecked, ?_⟩
  unfold Detection.ofMessage at hchecked ⊢
  unfold learnFrom afterAnswer
  rw [hu]
  cases hreply : w.complete? (Detection.prompt text) with
  | none =>
    simp only [hreply] at hchecked
    have hstored := storedInTurn_learn user hchecked s (Detection.byMarkers user text w).2
    exact ⟨_, _, _, _, rfl, hstored, hstored.length_eq⟩
  | some r =>
    obtain ⟨reply, w⟩ := r
    simp only [hreply] at hchecked
    dsimp only
    by_cases hdelay : reply.delay > 0
    · obtain ⟨ns, hw⟩ := wait_world reply.delay s w
      have hsame : (Detection.ofOutcome user text reply.outcome (s.wait reply.delay w).2).1 =
          (Detection.ofOutcome user text reply.outcome (w.after (max reply.delay 0))).1 := by
        rw [hw]
        exact Detection.ofOutcome_noted text reply.outcome _ ns
      have hstored := storedInTurn_learn user hchecked (s.wait reply.delay w).1
        (Detection.ofOutcome user text reply.outcome (s.wait reply.delay w).2).2
      refine ⟨_, _, _, _, ?_, by simpa only [hdelay, if_true] using hstored, hstored.length_eq⟩
      simp only [hdelay, if_true, learnFromOutcome, Except.map, hsame]
    · have hnow : w.after (max reply.delay 0) = w := by
        rw [max_eq_right (Int.not_lt.1 hdelay), World.after, Int.add_zero]
      rw [hnow] at hchecked ⊢
      have hstored := storedInTurn_learn user hchecked s
        (Detection.ofOutcome user text reply.outcome w).2
      refine ⟨_, _, _, _, ?_, by simpa only [hdelay, if_false] using hstored, hstored.length_eq⟩
      simp only [hdelay, if_false, learnFromOutcome, Except.map]

/-- A completer that gives a number for a name and a blank among the keywords. -/
def careless : World where
  completer := some (.scripted [⟨5, .ok (.str
    "[\x7b\"name\": 5, \"instructionTemplate\": \" use tabs \",
      \"triggerKeywords\": [\" Tabs \", \" \"]\x7d]")⟩])

/-- One pattern is made of such an answer, and it is stored. -/
theorem learnFrom_stores_careless :
    checkUser "u" = .ok () ∧ ∃ kept s' w',
      ({} : PatternStore).learnFrom "u" none careless = .ok (kept, s', w') ∧ kept.length = 1 := by
  have hu : checkUser "u" = .ok () := by decide
  obtain ⟨-, w₁, kept, s', w', h, -, hlength⟩ := learnFrom_stores "u" hu none {} careless
  exact ⟨hu, kept, s', w', h, hlength.trans (by decide +kernel)⟩

end PatternStore

end TieredMemory
