import TieredMemory.Proofs.Memory.System

/-!
# Deleting a user

A deletion first cancels the enrichments of the user, those that wait in the background and the
tasks that have begun, and waits for their end; then it deletes the user from the four tiers, and at
last from the ledgers. Between these parts the rest of the system goes on, in any order. After the
deletion the system holds nothing of the user, however far the enrichments were when they were
cancelled, and never does again unless the user brings in something new; what it holds of other
users is changed by none of the three parts (`deleteUser_erases`).
-/

namespace TieredMemory

/-! ### What a user has -/

/-- What a system holds of a user. -/
@[ext] structure Holdings where
  buckets : List Bucket := []
  facts : List Fact := []
  turns : List Turn := []
  patterns : List Pattern := []
  seen : List (String × List String) := []
  states : List ConversationState := []
  enrichments : List Enrichment := []
  tasks : List Task := []

/-- How much it is in each tier. -/
def Holdings.sizes (h : Holdings) : Deletion :=
  ⟨h.buckets.length, h.facts.length, h.turns.length, h.patterns.length⟩

namespace System

variable {s s' : System} {user v : String}

/-- What the system holds of a user. -/
def holdings (user : String) (s : System) : Holdings where
  buckets := s.memory.cache.buckets.filter fun b => b.place.user == user
  facts := s.memory.facts.facts.filter fun f => f.user == user
  turns := s.memory.archive.turns.filter fun t => t.user == user
  patterns := s.memory.patterns.patterns.filter fun p => p.user == user
  seen := s.memory.scorer.seen.filter fun e => e.1 == user
  states := s.memory.states.filter fun c => c.place.user == user
  enrichments := s.memory.background.filter fun e => e.turn.user == user
  tasks := s.tasks.filter fun t => t.user == user

theorem filter_eq_nil_of_ne {α : Type} {key : α → String} {xs : List α}
    (h : ∀ a ∈ xs, key a ≠ user) : (xs.filter fun a => key a == user) = [] := by
  simpa [List.filter_eq_nil_iff] using h

theorem Lacks.tiers_eq {parts : Part → Prop} (h : s.Lacks user parts) (hp : parts .tiers) :
    (s.holdings user).buckets = [] ∧ (s.holdings user).facts = [] ∧
      (s.holdings user).turns = [] ∧ (s.holdings user).patterns = [] :=
  ⟨filter_eq_nil_of_ne fun b hb => h.owned.buckets b.place (List.mem_map_of_mem hb) hp,
    filter_eq_nil_of_ne fun f hf => h.owned.facts f hf hp,
    filter_eq_nil_of_ne fun t ht => h.owned.turns t ht hp,
    filter_eq_nil_of_ne fun p hq => h.owned.patterns p hq hp⟩

theorem Lacks.sizes_eq {parts : Part → Prop} (h : s.Lacks user parts) (hp : parts .tiers) :
    (s.holdings user).sizes = ⟨0, 0, 0, 0⟩ := by
  obtain ⟨hbuckets, hfacts, hturns, hpatterns⟩ := h.tiers_eq hp
  unfold Holdings.sizes
  rw [hbuckets, hfacts, hturns, hpatterns]
  rfl

theorem Lacks.holdings_eq (h : s.Lacks user fun _ => True) : s.holdings user = {} := by
  obtain ⟨hbuckets, hfacts, hturns, hpatterns⟩ := h.tiers_eq trivial
  exact Holdings.ext hbuckets hfacts hturns hpatterns
    (filter_eq_nil_of_ne fun e he => h.owned.seen e he trivial)
    (filter_eq_nil_of_ne fun c hc => h.owned.states c hc trivial)
    (filter_eq_nil_of_ne fun e he => h.owned.enrichments e he trivial)
    (filter_eq_nil_of_ne h.tasks)

/-- Taking away what is one user's leaves what is another's. -/
theorem filter_of_ne {α : Type} (key : α → String) (hv : v ≠ user) (xs : List α) :
    ((xs.filter fun a => key a ≠ user).filter fun a => key a == v) =
      xs.filter fun a => key a == v := by
  rw [List.filter_filter]
  refine List.filter_congr fun a _ => ?_
  by_cases ha : key a = v
  · simp [ha, hv]
  · simp [ha]

/-! ### The parts of a deletion -/

/-- Cancel the enrichments of a user, those that have begun and those that have not. -/
def cancel (user : String) (s : System) : System where
  memory :=
    { s.memory with background := s.memory.background.filter fun e => e.turn.user ≠ user }
  tasks := s.tasks.filter fun t => t.user ≠ user

/-- Delete a user from the tiers. -/
def erase (user : String) (s : System) : Except Fault Deletion × System :=
  ((s.memory.deleteFromTiers user).1, { s with memory := (s.memory.deleteFromTiers user).2 })

/-- Forget the entities and the conversations of a user. -/
def forgetUser (user : String) (s : System) : System where
  memory := { s.memory with
    scorer := s.memory.scorer.forget user
    states := s.memory.states.filter fun c => c.place.user ≠ user }
  tasks := s.tasks

/-- The deletion of a user from a system, with the system before and after the user is deleted from
the tiers and the system before the user is deleted from the ledgers. While the deletion waits,
others go on, and nothing of the user comes in. -/
structure Deletes (user : String) (s : System) (counts : Deletion) (before after last : System) :
    Prop where
  waited : Runs (.sparing user) (s.cancel user) before
  erased : before.erase user = (.ok counts, after)
  ended : Runs (.sparing user) after last

theorem holdings_cancel (hv : v ≠ user) : (s.cancel user).holdings v = s.holdings v := by
  unfold holdings cancel
  simp only [filter_of_ne (fun e : Enrichment => e.turn.user) hv, filter_of_ne Task.user hv]

theorem holdings_forgetUser (hv : v ≠ user) : (s.forgetUser user).holdings v = s.holdings v := by
  unfold holdings forgetUser Scorer.forget Keyed.remove
  simp only [filter_of_ne (fun c : ConversationState => c.place.user) hv,
    filter_of_ne (Prod.fst : String × List String → String) hv]

/-- What deleting a user from the tiers comes to where the archive is in memory. -/
theorem erase_inv {counts : Deletion} (hs : s.memory.Sound)
    (h : s.erase user = (.ok counts, s')) :
    ∃ a, s.memory.archive = .log a ∧ counts = (s.holdings user).sizes ∧
      s' = { s with memory := { s.memory with
        cache := (s.memory.cache.deleteUser user).2
        facts := (s.memory.facts.deleteUser user).2
        patterns := (s.memory.patterns.deleteUser user).2
        archive := .log (a.deleteUser user).2 } } := by
  obtain ⟨a, ha⟩ := hs.log
  unfold erase at h
  rw [Memory.deleteFromTiers_log ha] at h
  obtain ⟨hcounts, rfl⟩ := Prod.mk.inj h
  refine ⟨a, ha, ?_, rfl⟩
  obtain rfl := Except.ok.inj hcounts
  unfold Holdings.sizes holdings
  rw [ha]
  rfl

theorem holdings_erase {counts : Deletion} (hs : s.memory.Sound)
    (h : s.erase user = (.ok counts, s')) (hv : v ≠ user) : s'.holdings v = s.holdings v := by
  obtain ⟨a, ha, -, rfl⟩ := erase_inv hs h
  have hbuckets : ((s.memory.cache.deleteUser user).2.buckets.filter fun b => b.place.user == v) =
      s.memory.cache.buckets.filter fun b => b.place.user == v := by
    refine Eq.trans ?_ (filter_of_ne (fun b : Bucket => b.place.user) hv s.memory.cache.buckets)
    unfold HotCache.deleteUser HotCache.dropWhere
    simp only
    congr 2
    funext b
    by_cases hb : b.place.user = user <;> simp [hb]
  unfold holdings
  rw [hbuckets, ha]
  unfold FactStore.deleteUser PatternStore.deleteUser ArchiveLog.deleteUser Archive.turns
  simp only [filter_of_ne Fact.user hv, filter_of_ne Pattern.user hv, filter_of_ne Turn.user hv]

/-- The index finds the turns of other users where it did. -/
theorem placeOf?_erase {counts : Deletion} (hs : s.memory.Sound)
    (h : s.erase user = (.ok counts, s')) {p : Place} (hp : p.user ≠ user) (id : String) :
    s'.memory.cache.placeOf? id = some p ↔ s.memory.cache.placeOf? id = some p := by
  obtain ⟨a, ha, -, rfl⟩ := erase_inv hs h
  have herased : (s.memory.cache.deleteUser user).2.Consistent := hs.cache.dropWhere _
  rw [← herased.mem_turnsAt, ← hs.cache.mem_turnsAt, HotCache.turnsAt_deleteUser, if_neg hp]

/-- The register finds the owner of every fact that has not the identifier of a deleted one. -/
theorem owner?_erase {counts : Deletion} (hs : s.memory.Sound)
    (h : s.erase user = (.ok counts, s')) {id : String}
    (hid : ∀ f ∈ (s.holdings user).facts, f.id ≠ id) :
    s'.memory.facts.owner? id = s.memory.facts.owner? id := by
  obtain ⟨a, ha, -, rfl⟩ := erase_inv hs h
  unfold FactStore.owner? FactStore.deleteUser FactStore.withoutOwners
  simp only
  rw [Keyed.find?_filter Prod.fst fun i => (s.memory.facts.ofUser user).all fun f => f.id ≠ i,
    if_pos]
  exact List.all_eq_true.2 fun f hf => decide_eq_true (hid f hf)

/-! ### The user is gone -/

theorem lacks_cancel (user : String) (s : System) :
    (s.cancel user).Lacks user (· = .background) where
  owned := {
    enrichments := fun e he _ => by simpa using (List.mem_filter.1 he).2
    buckets := fun _ _ h => nomatch h
    facts := fun _ _ h => nomatch h
    turns := fun _ _ h => nomatch h
    patterns := fun _ _ h => nomatch h
    seen := fun _ _ h => nomatch h
    states := fun _ _ h => nomatch h }
  tasks t ht := by simpa using (List.mem_filter.1 ht).2

theorem lacks_erase {counts : Deletion} (hs : s.memory.Sound)
    (h : s.erase user = (.ok counts, s')) (hl : s.Lacks user (· = .background)) :
    s'.Lacks user (· ≠ .ledgers) := by
  obtain ⟨a, ha, -, rfl⟩ := erase_inv hs h
  refine ⟨⟨fun e he _ => hl.owned.enrichments e he rfl, fun p hp _ => ?_, fun f hf _ => ?_,
    fun t ht _ => ?_, fun p hp _ => ?_, fun _ _ h => absurd rfl h, fun _ _ h => absurd rfl h⟩,
    hl.tasks⟩
  · obtain ⟨b, hb, rfl⟩ := List.mem_map.1 hp
    simpa using (List.mem_filter.1 hb).2
  · simpa using (List.mem_filter.1 hf).2
  · simpa using (List.mem_filter.1 ht).2
  · simpa using (List.mem_filter.1 hp).2

theorem lacks_forgetUser (hl : s.Lacks user (· ≠ .ledgers)) :
    (s.forgetUser user).Lacks user fun _ => True where
  owned := {
    enrichments := fun e he _ => hl.owned.enrichments e he nofun
    buckets := fun p hp _ => hl.owned.buckets p hp nofun
    facts := fun f hf _ => hl.owned.facts f hf nofun
    turns := fun t ht _ => hl.owned.turns t ht nofun
    patterns := fun p hp _ => hl.owned.patterns p hp nofun
    seen := fun e he _ => by simpa using (List.mem_filter.1 he).2
    states := fun c hc _ => by simpa using (List.mem_filter.1 hc).2 }
  tasks := hl.tasks

/-! ### The call -/

theorem queued_cancel (user : String) (s : System) :
    (s.cancel user).memory.Queued (.sparing user) :=
  fun e he => (lacks_cancel user s).owned.enrichments e he rfl

theorem sound_cancel (user : String) (hs : s.memory.Sound) : (s.cancel user).memory.Sound :=
  Memory.Step.sound (L := .free) (.background _ fun _ _ => trivial) hs

/-- Cancelling, a call waits only if there is something to cancel. -/
theorem reach_cancel (user : String) (s : System) :
    (s.cancel user).memory.Reach (.sparing user) (s.memory.cancelEnrichments user) := by
  unfold Memory.cancelEnrichments
  simp only
  split
  · next hnone =>
    have hall : (s.memory.background.filter fun e => e.turn.user ≠ user) = s.memory.background :=
      List.filter_eq_self.2 (List.length_filter_eq_length_iff.1 hnone)
    have hsame : (s.cancel user).memory = s.memory := by
      unfold cancel
      rw [hall]
    rw [hsame]
    exact .refl _ _
  · exact Memory.reach_settle (queued_cancel user s)

/-- A call that deletes a user whose identifier is valid is such a deletion, in which the tasks of
others wait. -/
theorem deleteUser_deletes (hs : s.memory.Sound) (hu : checkUser user = .ok ()) :
    ∃ counts before after last, s.Deletes user counts before after last ∧
      s.memory.deleteUser user = (.ok counts, (last.forgetUser user).memory) ∧
      last.tasks = (s.cancel user).tasks := by
  have hcancelled := reach_cancel user s
  have hbegun := hcancelled.trans Memory.reach_beforeParts
  rcases hparts : (s.memory.cancelEnrichments user).beforeParts with ⟨chores, m₂⟩
  rw [hparts] at hbegun
  have hwaited := Runs.of_reach hbegun (s.cancel user).tasks
  have hm₂ : m₂.Sound := hwaited.sound (sound_cancel user hs)
  obtain ⟨a, ha⟩ := hm₂.log
  have herased := Memory.deleteFromTiers_log ha user
  rcases hresult : m₂.deleteFromTiers user with ⟨returned, m₃⟩
  rw [hresult] at herased
  obtain ⟨hreturned, hm₃⟩ := Prod.mk.inj herased
  obtain ⟨counts, rfl⟩ : ∃ counts, returned = .ok counts := ⟨_, hreturned⟩
  have hended : m₃.Reach (.sparing user) (m₃.afterParts chores) := by
    refine Memory.reach_afterParts ?_ chores
    rw [hm₃]
    exact hbegun.queued (queued_cancel user s)
  have hcall : (s.memory.cancelEnrichments user).amid (Memory.deleteFromTiers user) =
      (.ok counts, m₃.afterParts chores) := by
    unfold Memory.amid
    rw [hparts]
    simp only [hresult]
  refine ⟨counts, ⟨m₂, (s.cancel user).tasks⟩, ⟨m₃, (s.cancel user).tasks⟩,
    ⟨m₃.afterParts chores, (s.cancel user).tasks⟩,
    ⟨hwaited, ?_, Runs.of_reach hended _⟩, ?_, rfl⟩
  · unfold erase
    simp only [hresult]
  · unfold Memory.deleteUser
    rw [hu]
    simp only [hcall]
    rfl

/-- **A deleted user is gone and stays gone.** Let a system be reached in any way, with enrichments
of the user at any point. A call that deletes the user ends, and is one of the possible deletions.
For each of these: the counts are the numbers of the user's buckets, facts, archived turns and
patterns that were there, and none of these is left; after the deletion the system holds nothing of
the user, nor does it after any run that brings in nothing of the user; and what the system holds of
another user is changed neither by the cancelling, nor by the deletion from the tiers, nor by that
from the ledgers. -/
theorem deleteUser_erases (hs : s.Reachable) (hu : checkUser user = .ok ()) :
    (∃ counts before after last, s.Deletes user counts before after last ∧
      s.memory.deleteUser user = (.ok counts, (last.forgetUser user).memory) ∧
      last.tasks = (s.cancel user).tasks) ∧
    ∀ counts before after last, s.Deletes user counts before after last →
      counts = (before.holdings user).sizes ∧
      (after.holdings user).sizes = ⟨0, 0, 0, 0⟩ ∧
      (∀ later, Runs (.sparing user) (last.forgetUser user) later → later.holdings user = {}) ∧
      ∀ other, other ≠ user →
        (s.cancel user).holdings other = s.holdings other ∧
        after.holdings other = before.holdings other ∧
        (last.forgetUser user).holdings other = last.holdings other ∧
        (∀ id p, p.user = other →
          (after.memory.cache.placeOf? id = some p ↔ before.memory.cache.placeOf? id = some p)) ∧
        ∀ id, (∀ f ∈ (before.holdings user).facts, f.id ≠ id) →
          after.memory.facts.owner? id = before.memory.facts.owner? id := by
  refine ⟨deleteUser_deletes hs.sound hu,
    fun counts before after last ⟨hwaited, herased, hended⟩ => ?_⟩
  have hspared : ¬ (Licence.sparing user).user user := fun h => h rfl
  have hbefore := hwaited.sound (sound_cancel user hs.sound)
  obtain ⟨-, -, hcounts, -⟩ := erase_inv hbefore herased
  -- one part after the other lacks the user
  have hcancelled : before.Lacks user (· = .background) :=
    hwaited.lacks hspared rfl (lacks_cancel user s)
  have hafter := lacks_erase hbefore herased hcancelled
  have hlast := lacks_forgetUser (hended.lacks hspared (by simp) hafter)
  exact ⟨hcounts, hafter.sizes_eq nofun,
    fun later hlater => (hlater.lacks hspared trivial hlast).holdings_eq,
    fun other hother => ⟨holdings_cancel hother, holdings_erase hbefore herased hother,
      holdings_forgetUser hother, fun id p hp => placeOf?_erase hbefore herased (hp ▸ hother) id,
      fun id hid => owner?_erase hbefore herased hid⟩⟩

/-! ### A deletion -/

/-- A memory after a turn of a user. -/
def asked : Memory :=
  (({} : Memory).write "u1" "c1"
    { id := "t1", user := "u1", conversation := "c1", role := .user, text := "hello there"
      createdAt := 0, importance := 0, flags := ⟨false, false, false⟩, entities := []
      embedding := none }).2

/-- The first enrichment of the turn has begun, and the second has not. -/
def pending : System where
  memory := { asked with background := asked.background.drop 1 }
  tasks := (asked.background.take 1).map .ofEnrichment

theorem reachable_pending : pending.Reachable := by
  have hlength : asked.background.length = 2 := by decide +kernel
  obtain ⟨e, e', he⟩ := List.length_eq_two.1 hlength
  have hasked : Memory.Reach .free {} asked :=
    Memory.reach_write (fun _ _ => trivial) trivial trivial
  have hpending : pending = ⟨{ asked with background := [] ++ [e'] }, [] ++ [.ofEnrichment e]⟩ := by
    unfold pending
    rw [he]
    rfl
  refine ⟨{}, ⟨rfl, rfl, rfl, rfl, ⟨_, rfl, rfl⟩, rfl, rfl, rfl, rfl⟩, ?_⟩
  rw [hpending]
  exact (Runs.of_reach hasked []).tail (.begin he)

theorem deleteUser_pending :
    pending.tasks.length = 1 ∧ pending.memory.background.length = 1 ∧
      (pending.memory.deleteUser "u1").1.toOption = some ⟨1, 0, 1, 0⟩ ∧
      ∃ last : System, (pending.memory.deleteUser "u1").2 = (last.forgetUser "u1").memory ∧
        (last.forgetUser "u1").holdings "u1" = {} := by
  refine ⟨by decide +kernel, by decide +kernel, by decide +kernel, ?_⟩
  have hvalid : checkUser "u1" = .ok () := by decide +kernel
  obtain ⟨⟨counts, before, after, last, hdeletes, hcall, -⟩, herases⟩ :=
    deleteUser_erases reachable_pending hvalid
  obtain ⟨-, -, hgone, -⟩ := herases counts before after last hdeletes
  exact ⟨last, by rw [hcall], hgone _ (.refl _ _)⟩

end System

end TieredMemory
