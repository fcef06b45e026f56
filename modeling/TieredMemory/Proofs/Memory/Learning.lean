import TieredMemory.Proofs.Memory.Plain
import TieredMemory.Proofs.Memory.Reading

/-!
# What is learned does not depend on the order of the work

Without a completer the facts of a turn are those that the rules find, and storing them joins. A
*course* is what can happen while turns are written: turns are acknowledged, the enrichments that
wait are done one at a time in any order, and what lies beside the facts may change in between.
Whatever course is taken, when all enrichments are done each user's facts are those that the rules
find in the user's turns, each with the greatest importance that it was found with (`drain_learns`).
-/

namespace TieredMemory

/-- The rules find the pair in a turn of the user with this importance. Turns that are not the
user's own words count for nothing. -/
def Extraction.Offers (ts : List Turn) (user : String) (k : String × String) (x : Float) : Prop :=
  ∃ t ∈ ts, t.user = user ∧ t.role = .user ∧ ∃ f ∈ byRules t.text, f.pair = k ∧ f.importance = x

theorem Extraction.Offers.mem_ruleImportances {ts : List Turn} {user : String}
    {k : String × String} {x : Float} (h : Offers ts user k x) : x ∈ ruleImportances := by
  obtain ⟨t, -, -, -, f, hf, -, rfl⟩ := h
  exact importance_of_mem_byRules hf

theorem Extraction.offers_cons {t : Turn} (ht : t.role = .user) (ts : List Turn) (user : String)
    (k : String × String) (x : Float) :
    Offers (t :: ts) user k x ↔
      Offers ts user k x ∨ user = t.user ∧ ∃ f ∈ byRules t.text, f.pair = k ∧ f.importance = x := by
  unfold Offers
  rw [List.exists_mem_cons_iff, or_comm]
  simp only [ht, true_and, eq_comm]

namespace Memory

variable {m₀ m m' : Memory} {ts : List Turn}

/-! ### Courses -/

/-- What can happen while turns are written, with the turns so far. -/
inductive Course (m₀ : Memory) : List Turn → Memory → Prop where
  | start : Course m₀ [] m₀
  /-- A write is acknowledged. -/
  | write {ts : List Turn} {m : Memory} {p : Place} {t : Turn} (h : Course m₀ ts m)
    (hp : checkWrite p.user p.conversation t = .ok p) : Course m₀ (ts ++ [t]) (m.acknowledge p t)
  /-- An enrichment is done, wherever it waits. -/
  | enrich {ts : List Turn} {m : Memory} {before after : List Enrichment} {e : Enrichment}
    (h : Course m₀ ts m) (hb : m.background = before ++ e :: after) :
    Course m₀ ts ({ m with background := before ++ after }.advance e)
  /-- Something changes beside the facts. -/
  | beside {ts : List Turn} {m m' : Memory} (h : Course m₀ ts m) (hb : m.Beside m') :
    Course m₀ ts m'

/-! ### What a course comes to -/

/-- The turns so far are accounted for: the facts of some are stored, and the others wait. -/
structure Accounts (ts learned : List Turn) (m : Memory) : Prop where
  plain : m.Plain
  waiting : ∀ e ∈ m.background, e.progress = .waiting ∧
    (checkPlace e.turn.user e.turn.conversation).isOk = true
  turns : ∀ t, (t ∈ learned ∨ ∃ e ∈ m.background, e.work = .extract ∧ e.turn = t) ↔
    t ∈ ts ∧ t.role = .user
  numbered : ∀ f ∈ m.facts.facts, ∃ n ≤ m.world.numbering.facts, f.id = Extraction.factId n
  joins : m.facts.Joins (Extraction.Offers learned)

namespace Accounts

variable {learned : List Turn}

theorem start (hnew : m.IsNew) (hplain : m.Plain) : Accounts [] [] m where
  plain := hplain
  waiting := by simp [hnew.background]
  turns := by simp [hnew.background]
  numbered := by simp [hnew.facts]
  joins := by
    refine ⟨⟨?_, ?_⟩, ?_, ?_⟩
    · simp [hnew.facts]
    · simp [FactStore.ofUser, hnew.facts]
    · rintro v k x ⟨t, ht, -⟩
      cases ht
    · intro v k
      have hnone : m.facts.importance? v k = none := by
        simp [FactStore.importance?, FactStore.ofUser, hnew.facts, Keyed.find?]
      rw [hnone]
      refine ⟨?_, by simp, by simp⟩
      rintro x ⟨t, ht, -⟩
      cases ht

theorem beside (h : Accounts ts learned m) (hb : m.Beside m') : Accounts ts learned m' where
  plain := h.plain.beside hb
  waiting := hb.background ▸ h.waiting
  turns := hb.background ▸ h.turns
  numbered f hf := by
    obtain ⟨n, hn, hid⟩ := h.numbered f (hb.facts ▸ hf)
    exact ⟨n, hn.trans hb.world.facts, hid⟩
  joins := hb.facts ▸ h.joins

theorem write {p : Place} {t : Turn} (h : Accounts ts learned m)
    (hp : checkWrite p.user p.conversation t = .ok p) :
    Accounts (ts ++ [t]) learned (m.acknowledge p t) := by
  unfold acknowledge
  simp only
  split
  · next hrole =>
    refine ⟨⟨h.plain.completer, h.plain.embedder, h.plain.extractionFault, h.plain.loop⟩, ?_, ?_,
      h.numbered, h.joins⟩
    · refine List.forall_mem_append.2 ⟨h.waiting, ?_⟩
      have ht : (checkPlace t.user t.conversation).isOk = true := by
        rw [checkPlace_of_checkWrite hp]
        rfl
      simp [ht]
    · intro x
      have hx := h.turns x
      simp only [enrich, changeState, List.mem_append, List.mem_cons, List.not_mem_nil, or_false,
        or_and_right, exists_or, exists_eq_left]
      simp only [reduceCtorEq, false_and, or_false, true_and]
      rw [← or_assoc, hx]
      refine or_congr_right ⟨?_, fun hx => hx.1.symm⟩
      rintro rfl
      exact ⟨rfl, hrole⟩
  · next hrole =>
    refine ⟨⟨h.plain.completer, h.plain.embedder, h.plain.extractionFault, h.plain.loop⟩,
      h.waiting, fun x => (h.turns x).trans ?_, h.numbered, h.joins⟩
    rw [List.mem_append, List.mem_singleton, or_and_right]
    refine (or_iff_left ?_).symm
    rintro ⟨rfl, hx⟩
    exact hrole hx

/-- A detection that is given up leaves everything accounted for. -/
theorem dropDetect {before after : List Enrichment} {e : Enrichment} (h : Accounts ts learned m)
    (hb : m.background = before ++ e :: after) (he : e.work = .detect) :
    Accounts ts learned { m with background := before ++ after } where
  plain := h.plain.withBackground _
  waiting := by
    have hwaiting := h.waiting
    rw [hb] at hwaiting
    obtain ⟨hbefore, -, hafter⟩ := System.forall_mem_append_cons.1 hwaiting
    exact List.forall_mem_append.2 ⟨hbefore, hafter⟩
  turns t := by
    rw [← h.turns t, hb]
    simp [he, or_and_right, exists_or]
  numbered := h.numbered
  joins := h.joins

theorem extract {before after : List Enrichment} {e : Enrichment} (h : Accounts ts learned m)
    (hb : m.background = before ++ e :: after) (he : e.work = .extract) :
    Accounts ts (e.turn :: learned)
      ({ m with background := before ++ after }.enrichByRules .extract e.turn) := by
  have hmem : e ∈ m.background := by simp [hb]
  have hwaiting := h.waiting
  rw [hb] at hwaiting
  obtain ⟨hbefore, ⟨-, hplace⟩, hafter⟩ := System.forall_mem_append_cons.1 hwaiting
  obtain ⟨-, hrole⟩ := (h.turns e.turn).1 (.inr ⟨e, hmem, he, rfl⟩)
  have hdropped := h.plain.withBackground (before ++ after)
  have hbeside := Extraction.beside_factsByRules e.turn m.world
  have hids := Extraction.nodup_factsByRules (t := e.turn) (w := m.world)
  have hnumbers := fun f => Extraction.number_of_mem_factsByRules (t := e.turn) (w := m.world)
    (f := f)
  have hoffers := fun k x => Extraction.exists_factsByRules (t := e.turn) (w := m.world)
    (k := k) (x := x)
  rw [enrichByRules_extract hdropped.embedder hplace]
  simp only
  generalize Extraction.factsByRules e.turn m.world = found at hbeside hids hnumbers hoffers ⊢
  obtain ⟨fs, w⟩ := found
  have hnew : ∀ f ∈ fs, (e.turn.user, f.id) ∉ m.facts.facts.map FactStore.address := by
    intro f hf hstored
    obtain ⟨g, hg, hgf⟩ := List.mem_map.1 hstored
    obtain ⟨n, hn, hlow, -⟩ := hnumbers f hf
    obtain ⟨n', hlow', hn'⟩ := h.numbered g hg
    have hid : g.id = f.id := congrArg Prod.snd hgf
    have := Extraction.factId_injective (hn'.symm.trans (hid.trans hn))
    omega
  refine ⟨?_, List.forall_mem_append.2 ⟨hbefore, hafter⟩, ?_, ?_, ?_⟩
  · exact ⟨hbeside.completer.trans hdropped.completer, hbeside.embedder.trans hdropped.embedder,
      hdropped.extractionFault, hdropped.loop⟩
  · intro t
    rw [← h.turns t, hb]
    simp only [List.mem_cons, List.mem_append, or_and_right, exists_or, exists_eq_left, he,
      true_and, eq_comm (a := t), or_assoc, or_left_comm]
  · intro g hg
    rcases FactStore.address_insertAll (List.mem_map_of_mem hg) with hold | ⟨f, hf, hgf⟩
    · obtain ⟨g', hg', haddress⟩ := List.mem_map.1 hold
      obtain ⟨n, hn, hid⟩ := h.numbered g' hg'
      exact ⟨n, hn.trans hbeside.facts, (congrArg Prod.snd haddress).symm.trans hid⟩
    · obtain ⟨n, hn, -, hhigh⟩ := hnumbers f hf
      exact ⟨n, hhigh, (congrArg Prod.snd hgf).trans hn⟩
  · have hnan : ∀ f ∈ fs, f.importance.isNaN = false := by
      intro f hf
      obtain ⟨g, hg, -, hgf⟩ := (hoffers f.pair f.importance).1 ⟨f, hf, rfl, rfl⟩
      exact hgf ▸ Extraction.isNaN_of_mem (Extraction.importance_of_mem_byRules hg)
    refine (h.joins.insertAll hids hnew hnan).congr fun v k x => ?_
    rw [hoffers, Extraction.offers_cons hrole]

end Accounts

theorem Course.accounts (hnew : m₀.IsNew) (hplain : m₀.Plain) (h : Course m₀ ts m) :
    ∃ learned, Accounts ts learned m := by
  induction h with
  | start => exact ⟨[], .start hnew hplain⟩
  | write _ hp ih =>
    obtain ⟨learned, h⟩ := ih
    exact ⟨learned, h.write hp⟩
  | @enrich ts m before after e _ hb ih =>
    obtain ⟨learned, h⟩ := ih
    have hplain : Plain { m with background := before ++ after } := h.plain.withBackground _
    rw [hplain.advance_eq (h.waiting e (by simp [hb])).1]
    cases hwork : e.work with
    | extract => exact ⟨e.turn :: learned, h.extract hb hwork⟩
    | detect =>
      have hdropped := h.dropDetect hb hwork
      exact ⟨learned, hdropped.beside (beside_detect hdropped.plain.embedder)⟩
  | beside _ hb ih =>
    obtain ⟨learned, h⟩ := ih
    exact ⟨learned, h.beside hb⟩

/-! ### The courses that the memory takes -/

/-- When all enrichments go on, all are done. -/
theorem Course.advanceAll (hnew : m₀.IsNew) (hplain : m₀.Plain) (h : Course m₀ ts m) :
    Course m₀ ts m.advanceAll ∧ m.advanceAll.background = [] := by
  have hall : ∀ (es : List Enrichment) (m : Memory), Course m₀ ts { m with background := es } →
      Course m₀ ts (es.foldl advance { m with background := [] }) ∧
        (es.foldl advance { m with background := [] }).background = [] := by
    intro es
    induction es with
    | nil => exact fun m h => ⟨h, rfl⟩
    | cons e r ih =>
      intro m h
      obtain ⟨learned, haccounts⟩ := h.accounts hnew hplain
      have hm : m.Plain := haccounts.plain.withBackground m.background
      have he := (haccounts.waiting e List.mem_cons_self).1
      have hnext := Course.enrich h (show _ = [] ++ e :: r from rfl)
      rw [List.nil_append, hm.advance_background he r] at hnext
      rw [List.foldl_cons, hm.advance_background he []]
      exact ih _ hnext
  exact hall m.background m h

theorem wakeScheduler_of_stopped (h : m.scheduler.loop = .stopped) :
    m.wakeScheduler = ([], m) := by
  unfold wakeScheduler Scheduler.wake
  rw [h]
  rfl

/-- Whatever the background does is part of a course; once nothing waits, nothing does. -/
theorem lasting_course (hnew : m₀.IsNew) (hplain : m₀.Plain) (ts : List Turn) (idle : Prop) :
    Lasting fun m => Course m₀ ts m ∧ (idle → m.background = []) where
  clock m t h := ⟨h.1.beside ⟨⟨rfl, rfl, Nat.le_refl _⟩, rfl, rfl, rfl, rfl⟩, h.2⟩
  start m now h := ⟨h.1.beside ⟨.refl _, rfl, rfl, rfl, rfl⟩, h.2⟩
  finish m now h :=
    ⟨h.1.beside ⟨PatternStore.beside_finishDue now _ _, rfl, rfl, rfl, rfl⟩, h.2⟩
  enrich m h := by
    obtain ⟨hcourse, hbackground⟩ := h.1.advanceAll hnew hplain
    exact ⟨hcourse, fun _ => hbackground⟩
  wake m h := by
    obtain ⟨learned, haccounts⟩ := h.1.accounts hnew hplain
    rw [wakeScheduler_of_stopped haccounts.plain.loop]
    exact ⟨h, by simp⟩

/-- Waiting for the background is part of a course, and in the end nothing waits. -/
theorem Course.drain (hnew : m₀.IsNew) (hplain : m₀.Plain) (h : Course m₀ ts m) :
    Course m₀ ts m.drain ∧ m.drain.background = [] := by
  have hbusy := lasting_course hnew hplain ts False
  have hidle := lasting_course hnew hplain ts True
  have henriched : Course m₀ ts m.drainEnrichments ∧
      (True → m.drainEnrichments.background = []) := by
    unfold drainEnrichments
    split
    · next hempty => exact ⟨h, fun _ => List.isEmpty_iff.1 hempty⟩
    · have hsettled := hbusy.settle_then hidle (fun m h => by
        obtain ⟨hcourse, hbackground⟩ := h.1.advanceAll hnew hplain
        exact ⟨hcourse, fun _ => hbackground⟩) ⟨h, False.elim⟩
      simp only
      split
      · exact hsettled
      · exact hidle.waitThrough _ hsettled
  obtain ⟨hcourse, hbackground⟩ := hidle.drainConsolidations henriched
  exact ⟨hcourse, hbackground trivial⟩

theorem beside_place (hw : m.world.embedder = none) (p : Place) (t : Turn) :
    m.Beside (m.place p t).2 := by
  unfold place
  split
  · next happend => exact ⟨Archive.beside_append hw happend, rfl, rfl, rfl, rfl⟩
  · exact ⟨.refl _, rfl, rfl, rfl, rfl⟩

theorem Course.assess (hnew : m₀.IsNew) (hplain : m₀.Plain) (h : Course m₀ ts m) (t : Turn) :
    Course m₀ ts (m.assess t).2 := by
  have hrated : Course m₀ ts (m.sentimentOf (Extraction.annotate t)).2 := by
    unfold sentimentOf
    split
    · exact h
    · next delay outcome w hrate =>
      have hasked : Course m₀ ts { m with world := w } :=
        h.beside ⟨.rate hrate, rfl, rfl, rfl, rfl⟩
      obtain ⟨hwaited, -⟩ :=
        (lasting_course hnew hplain ts False).awaitReply delay ⟨hasked, False.elim⟩
      simp only
      split
      · exact hwaited
      · exact hwaited.beside ⟨.report _ _, rfl, rfl, rfl, rfl⟩
  exact hrated.beside ⟨.refl _, rfl, rfl, rfl, rfl⟩

/-- A write is part of a course, and the turn that it returns is the turn that is acknowledged. -/
theorem Course.afterWrite (hnew : m₀.IsNew) (hplain : m₀.Plain) (h : Course m₀ ts m)
    (user conversation : String) (t : Turn) :
    Course m₀ (ts ++ (m.write user conversation t).1.toOption.toList)
      (m.write user conversation t).2 := by
  unfold Memory.write
  split
  · simpa [Except.toOption] using h
  next p hp =>
  have hassessed := h.assess hnew hplain t
  obtain ⟨flags, entities, importance, ht⟩ := assess_inv t m
  have hp' : Memory.checkWrite p.user p.conversation (m.assess t).1 = .ok p :=
    checkWrite_congr (by rw [ht]) (by rw [ht]; rfl) hp
  simp only
  generalize m.assess t = assessed at hassessed hp' ⊢
  obtain ⟨t', m₁⟩ := assessed
  obtain ⟨hplaced, -⟩ : Course m₀ ts (m₁.amid (Memory.place p t')).2 ∧ (False → _) := by
    refine (lasting_course hnew hplain ts False).amid (fun m' h' => ?_) ⟨hassessed, False.elim⟩
    obtain ⟨learned, haccounts⟩ := h'.1.accounts hnew hplain
    exact ⟨h'.1.beside (beside_place haccounts.plain.embedder p t'), False.elim⟩
  split
  · next hresult =>
    obtain rfl : _ = _ := congrArg Prod.snd hresult
    simpa [Except.toOption] using hplaced
  · next t'' m₂ hresult =>
    obtain rfl : _ = m₂ := congrArg Prod.snd hresult
    obtain ⟨embedding, rfl⟩ := place_eq_ok (congrArg Prod.fst hresult)
    exact hplaced.write (checkWrite_congr rfl rfl hp')

/-- Write turns one after another, each at a place. The turns that are returned come with the memory
afterwards. -/
def writeAll : List (Place × Turn) → Memory → List Turn × Memory
  | [], m => ([], m)
  | (p, t) :: r, m =>
    let (returned, m) := m.write p.user p.conversation t
    let (ts, m) := writeAll r m
    (returned.toOption.toList ++ ts, m)

theorem Course.afterWrites (hnew : m₀.IsNew) (hplain : m₀.Plain) (h : Course m₀ ts m)
    (ws : List (Place × Turn)) : Course m₀ (ts ++ (m.writeAll ws).1) (m.writeAll ws).2 := by
  induction ws generalizing ts m with
  | nil => simpa [writeAll] using h
  | cons w r ih =>
    obtain ⟨p, t⟩ := w
    have hrest := ih (h.afterWrite hnew hplain p.user p.conversation t)
    rw [List.append_assoc] at hrest
    exact hrest

/-! ### What has been learned in the end -/

/-- When nothing waits, what is known is what the turns so far offer. -/
theorem Course.joins (hnew : m₀.IsNew) (hplain : m₀.Plain) (h : Course m₀ ts m)
    (hdone : m.background = []) : m.facts.Joins (Extraction.Offers ts) := by
  obtain ⟨learned, haccounts⟩ := h.accounts hnew hplain
  have hturns : ∀ t, t ∈ learned ↔ t ∈ ts ∧ t.role = .user := by
    intro t
    have ht := haccounts.turns t
    rw [hdone] at ht
    simpa using ht
  refine haccounts.joins.congr fun v k x => ?_
  simp only [Extraction.Offers, hturns]
  refine exists_congr fun t => ⟨?_, ?_⟩
  · rintro ⟨⟨ht, -⟩, hoffers⟩
    exact ⟨ht, hoffers⟩
  · rintro ⟨ht, huser, hrole, hoffers⟩
    exact ⟨⟨ht, hrole⟩, huser, hrole, hoffers⟩

/-- **What is learned does not depend on the order of the work**: whatever course is taken while
turns are written to a new memory without completer and embedder, when all enrichments are done no
two facts of a user have one pair, the pairs are those that the rules find in the user's own turns,
and each has the greatest importance that it was found with; so two courses with the same turns
leave the same. Writing turns one after another is such a course. -/
theorem drain_learns (hnew : m₀.IsNew) (hplain : m₀.Plain) :
    (∀ ts m, Course m₀ ts m → ∀ user,
      ((m.drain.facts.ofUser user).map Fact.pair).Nodup ∧
        ∀ k, IsJoin (Extraction.Offers ts user k) (m.drain.facts.importance? user k)) ∧
      (∀ ts ts' m m', Course m₀ ts m → Course m₀ ts' m' → ts.Perm ts' →
        m.drain.facts.importance? = m'.drain.facts.importance?) ∧
      ∀ ws, Course m₀ (m₀.writeAll ws).1 (m₀.writeAll ws).2 := by
  have hlearned : ∀ ts m, Course m₀ ts m → m.drain.facts.Joins (Extraction.Offers ts) := by
    intro ts m h
    obtain ⟨hdrained, hdone⟩ := h.drain hnew hplain
    exact hdrained.joins hnew hplain hdone
  refine ⟨fun ts m h user => ?_, fun ts ts' m m' h h' hperm => ?_, fun ws => ?_⟩
  · exact ⟨(hlearned ts m h).distinct.pairs user, (hlearned ts m h).joins user⟩
  · have hjoins := hlearned ts m h
    have hjoins' : m'.drain.facts.Joins (Extraction.Offers ts) :=
      (hlearned ts' m' h').congr fun v k x => by simp only [Extraction.Offers, hperm.mem_iff]
    funext user k
    refine (hjoins.joins user k).eq (hjoins'.joins user k) fun x y hx hy => ?_
    exact Extraction.eq_of_le_of_le hx.mem_ruleImportances hy.mem_ruleImportances
  · exact Course.start.afterWrites hnew hplain ws

/-- The user's own words in a conversation. -/
def saying (user id text : String) : Turn := { remark user id text with role := .user }

/-- Two users say what they use, one of them twice and in different letters. -/
def sayings : List (Place × Turn) := [
  (⟨"u1", "c1"⟩, saying "u1" "t1" "I prefer Rust."),
  (⟨"u2", "c1"⟩, saying "u2" "t2" "Python"),
  (⟨"u1", "c1"⟩, saying "u1" "t3" "i prefer rust!"),
  (⟨"u1", "c1"⟩, remark "u1" "t4" "Docker")]

/-- Each is known once, and what the assistant said is not known. -/
theorem drain_sayings :
    Memory.IsNew {} ∧ Memory.Plain {} ∧
      ((Memory.writeAll sayings {}).2.drain.facts.ofUser "u1").map Fact.pair =
        [("preference", "rust"), ("technology", "rust")] ∧
      ∀ k, IsJoin (Extraction.Offers (Memory.writeAll sayings {}).1 "u1" k)
        ((Memory.writeAll sayings {}).2.drain.facts.importance? "u1" k) := by
  have hplain : Memory.Plain {} := ⟨rfl, rfl, rfl, rfl⟩
  obtain ⟨hlearns, -, hcourse⟩ := drain_learns isNew_empty hplain
  obtain ⟨-, hjoins⟩ := hlearns _ _ (hcourse sayings) "u1"
  exact ⟨isNew_empty, hplain, by decide +kernel, hjoins⟩

end Memory

end TieredMemory
