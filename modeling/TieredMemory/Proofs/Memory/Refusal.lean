import TieredMemory.Proofs.FactStore.Search
import TieredMemory.Proofs.Memory.Reading
import TieredMemory.Proofs.Settings

/-!
# A refused call changes nothing

A call checks its arguments before anything else, and a refusal found there leaves the memory as it
is. What the arguments come to is checked again, by the planner and by every tier that is asked,
when the memory has changed already. None of these checks can fail: a tier is handed a place that
passed the first check, a turn at that place, a query that passed, and a limit of the settings,
which accept no limit below one (`takesTurn`, `takesQuery`). So a call that is refused in any memory
with such limits has changed nothing (`System.refused_unchanged`).
-/

namespace TieredMemory

/-! ### Refusals -/

/-- The rejection that a fault is, if it is one. -/
def Fault.rejection? : Fault → Option Rejection
  | rejected why => some why
  | _ => none

/-- The rejection with which a call ended, if it did. -/
def refusalOf? {α : Type} : Except Fault α → Option Rejection
  | .ok _ => none
  | .error why => why.rejection?

section

variable {α β : Type} {x : Except Fault α}

theorem refusalOf?_bind {f : α → Except Fault β} (hx : refusalOf? x = none)
    (hf : ∀ a, x = .ok a → refusalOf? (f a) = none) : refusalOf? (x >>= f) = none := by
  cases x with
  | ok a => exact hf a rfl
  | error why => exact hx

theorem refusalOf?_map (f : α → β) : refusalOf? (x.map f) = refusalOf? x := by
  cases x <;> rfl

theorem refusalOf?_ofUnits (unit : Duration) (x : Float) :
    refusalOf? (Duration.ofUnits unit x) = none := by
  unfold Duration.ofUnits
  split
  · rfl
  · split
    · rfl
    · simp only
      split <;> rfl

end

/-- The rejection with which a call of the memory ends, if it does. -/
def Call.refusal? (m : Memory) : Call → Option Rejection
  | write user conversation t => refusalOf? (m.write user conversation t).1
  | read user conversation query => refusalOf? (m.read user conversation query).1
  | recent user conversation limit =>
    refusalOf? ((m.recent user conversation limit).mapError .rejected)
  | forget user conversation id => refusalOf? (m.forget user conversation id).1
  | deleteUser user => refusalOf? (m.deleteUser user).1
  | maintain user => refusalOf? ((m.maintain user).1.mapError .rejected)
  | start => refusalOf? m.start.1
  | stop | drain | wait _ => none

/-! ### Checks that are passed -/

/-- What a read asks for passes the checks of the planner and of the tiers. -/
theorem checkPlace_of_checkRead {user conversation query : String} {p : Place}
    (h : Memory.checkRead user conversation query = .ok p) :
    checkPlace p.user p.conversation = .ok p ∧ checkQuery query = .ok query := by
  obtain ⟨q, hq, h⟩ := bind_eq_ok h
  obtain ⟨text, htext, h⟩ := bind_eq_ok h
  cases h
  obtain rfl : text = query := checkText_eq_ok htext
  exact ⟨checkPlace_again hq, htext⟩

/-! ### Tiers that are asked -/

theorem FactStore.search_ok {user : String} {limit : Int} (hu : checkUser user = .ok ())
    (hlimit : 0 ≤ limit) (query : String) (s : FactStore) (w : World) :
    ∃ r, s.search user query limit w = .ok r := by
  obtain ⟨w', h⟩ := search_eq hu hlimit query s w
  exact ⟨_, h⟩

theorem ArchiveLog.search_ok {user : String} {limit : Int} (hu : checkUser user = .ok ())
    (hlimit : 0 ≤ limit) (query : String) (a : ArchiveLog) (w : World) :
    ∃ r, a.search user query limit w = .ok r := by
  unfold search
  rw [hu, checkLimit_of_nonneg hlimit]
  simp only [bind, Except.bind]
  split
  · exact ⟨_, rfl⟩
  · exact ⟨_, rfl⟩

/-- A match may fail for the triggers and the cadence, but it is not refused. -/
theorem PatternStore.refusalOf?_apply (now : Time) (user query : String)
    (embedding : Option Embedding) (s : PatternStore) :
    refusalOf? (s.apply now user query embedding).1 = none := by
  rcases apply_inv now user query embedding s with ⟨h | h, -⟩ | ⟨p, -, -, h⟩
  · rw [h]
    rfl
  · rw [h]
    rfl
  · rw [h, refusalOf?_map]
    rcases recordMatch_inv now p s with ⟨-, h⟩ | ⟨-, _, _, _, -, h⟩ <;> rw [h] <;> rfl

theorem PatternStore.refusalOf?_matchQuery {user query : String} (hu : checkUser user = .ok ())
    (hquery : checkQuery query = .ok query) (s : PatternStore) (w : World) :
    refusalOf? (s.matchQuery user query w).1 = none := by
  obtain ⟨w', -, h⟩ := lookUp_inv user query s w
  unfold matchQuery
  rw [hu]
  simp only [bind, Except.bind, hquery]
  rw [h]
  exact refusalOf?_apply w.now user query (s.queryEmbedding user query w) s

namespace Memory

variable {L : Licence} {m m' : Memory} {p : Place}

/-! ### Memories with an archive and limits -/

/-- The archive is in memory, and the limits are natural numbers. -/
structure Ready (m : Memory) : Prop where
  log : ∃ a, m.archive = .log a
  factLimit : 0 ≤ m.factLimit
  archiveLimit : 0 ≤ m.archiveLimit

theorem Step.ready (hs : Step L m m') (h : m.Ready) : m'.Ready := by
  obtain ⟨a, ha⟩ := h.log
  cases hs with
  | remove p id isCached =>
    rw [removeTurn_log ha]
    exact ⟨⟨_, rfl⟩, h.factLimit, h.archiveLimit⟩
  | erase user =>
    rw [deleteFromTiers_log ha]
    exact ⟨⟨_, rfl⟩, h.factLimit, h.archiveLimit⟩
  | close =>
    refine ⟨⟨a, ?_⟩, h.factLimit, h.archiveLimit⟩
    rw [ha]
    rfl
  | place p t hp hv =>
    have huser : t.user = p.user := congrArg Place.user hp
    obtain ⟨embedding, world, hplace⟩ := place_log ha p (t := t) (huser ▸ hv)
    rw [hplace]
    exact ⟨⟨_, rfl⟩, h.factLimit, h.archiveLimit⟩
  | _ => exact ⟨⟨a, ha⟩, h.factLimit, h.archiveLimit⟩

theorem Reach.ready (hr : Reach L m m') (h : m.Ready) : m'.Ready :=
  hr.induction (fun _ _ => Step.ready) h

/-- The archive is in memory, and the limits are those of settings that are accepted. -/
structure Configured (m : Memory) : Prop where
  log : ∃ a, m.archive = .log a
  limits : ∃ values settings, Settings.ofValues values = .ok settings ∧
    (m.recentLimit : Int) = settings.hotCacheCapacity ∧
    m.factLimit = settings.factSearchLimit ∧ m.archiveLimit = settings.archiveSearchLimit

/-- Accepted settings that ask for the archive in memory make such a memory. -/
theorem configured_create {values : Settings.Values} {settings : Settings}
    (haccepted : Settings.ofValues values = .ok settings)
    (hbackend : settings.archiveBackend = "memory") {environment : Environment}
    {completions embeddings : Script BackendAnswer} {w : World}
    (h : Memory.create settings environment completions embeddings w = .ok m) : m.Configured := by
  obtain ⟨a, ha, -⟩ := (isNew_create hbackend h).archive
  refine ⟨⟨a, ha⟩, values, settings, haccepted, ?_⟩
  obtain ⟨hcapacity, -, -⟩ := Settings.limits_of_ofValues haccepted
  obtain ⟨w, -, h⟩ := bind_eq_ok h
  obtain ⟨archive, -, h⟩ := bind_eq_ok h
  obtain ⟨cacheTtl, -, h⟩ := bind_eq_ok h
  obtain ⟨sweepInterval, -, h⟩ := bind_eq_ok h
  obtain ⟨factTtl, -, h⟩ := bind_eq_ok h
  obtain ⟨choreInterval, -, h⟩ := bind_eq_ok h
  cases h
  exact ⟨Int.toNat_of_nonneg (by omega), rfl, rfl⟩

theorem Configured.ready (h : m.Configured) : m.Ready := by
  obtain ⟨values, settings, haccepted, -, hfacts, harchive⟩ := h.limits
  obtain ⟨-, hfactLimit, harchiveLimit⟩ := Settings.limits_of_ofValues haccepted
  exact ⟨h.log, by omega, by omega⟩

/-! ### No check fails later -/

/-- The tiers that a write goes to take the turn, whatever they check. -/
structure TakesTurn (p : Place) (t : Turn) (m : Memory) : Prop where
  cache : m.cache.addAt m.now p.user p.conversation t = .ok (m.cache.add m.now p t)
  archive : ∃ r, m.archive.append t m.world = .ok r

/-- The planner and the tiers that a read goes to take the query, whatever they check. -/
structure TakesQuery (p : Place) (query : String) (m : Memory) : Prop where
  plan : (Planner.plan query m.world).1 = .ok (Planner.consult query m.world).1.plan.1
  cache : m.cache.recentAt m.now p.user p.conversation m.recentLimit =
    .ok (m.cache.recent m.now p m.recentLimit)
  facts : ∃ r, m.facts.search p.user query m.factLimit m.world = .ok r
  archive : ∃ r, m.archive.search p.user query m.archiveLimit m.world = .ok r
  patterns : refusalOf? (m.patterns.matchQuery p.user query m.world).1 = none

theorem recentAt_eq_ok {user conversation : String}
    (hp : checkPlace user conversation = .ok p) (m : Memory) :
    m.cache.recentAt m.now user conversation m.recentLimit =
      .ok (m.cache.recent m.now p m.recentLimit) := by
  unfold HotCache.recentAt
  rw [hp, checkLimit_of_nonneg (by omega)]
  rfl

theorem Ready.takesTurn (h : m.Ready) {t : Turn} (hp : checkPlace p.user p.conversation = .ok p)
    (ht : t.place = p) : m.TakesTurn p t where
  cache := by
    unfold HotCache.addAt
    rw [hp]
    rfl
  archive := by
    obtain ⟨a, ha⟩ := h.log
    have huser : t.user = p.user := congrArg Place.user ht
    have hu : (checkUser t.user).isOk = true := by
      rw [huser, (checkPlace_inv hp).2]
      rfl
    obtain ⟨embedding, w, happend⟩ := a.append_ok t m.world hu
    rw [ha]
    exact ⟨_, by simp only [Archive.append, happend]; rfl⟩

theorem Ready.takesQuery (h : m.Ready) {query : String}
    (hp : checkPlace p.user p.conversation = .ok p) (hquery : checkQuery query = .ok query) :
    m.TakesQuery p query where
  plan := by
    unfold Planner.plan
    rw [hquery]
  cache := recentAt_eq_ok hp m
  facts := FactStore.search_ok (checkPlace_inv hp).2 h.factLimit query m.facts m.world
  archive := by
    obtain ⟨a, ha⟩ := h.log
    obtain ⟨r, hr⟩ := a.search_ok (checkPlace_inv hp).2 h.archiveLimit query m.world
    rw [ha]
    exact ⟨r, by simp only [Archive.search, hr]; rfl⟩
  patterns := PatternStore.refusalOf?_matchQuery (checkPlace_inv hp).2 hquery m.patterns m.world

/-! ### Calls that are refused -/

theorem TakesTurn.place_ok {t : Turn} (h : m.TakesTurn p t) : refusalOf? (m.place p t).1 = none := by
  obtain ⟨r, hr⟩ := h.archive
  unfold place
  rw [hr]
  rfl

theorem refusalOf?_askIf {α : Type} {none : α} {ask : Memory → Except Fault α × Memory}
    (plan : Plan) (tier : Tier) (h : refusalOf? (ask m).1 = Option.none) :
    refusalOf? (m.askIf plan tier none ask).1 = Option.none := by
  unfold askIf
  split
  · exact h
  · rfl

theorem TakesQuery.askFacts_ok {query : String} (h : m.TakesQuery p query) :
    refusalOf? (m.askFacts p query).1 = none := by
  obtain ⟨r, hr⟩ := h.facts
  unfold askFacts
  rw [hr]
  rfl

theorem TakesQuery.askArchive_ok {query : String} (h : m.TakesQuery p query) :
    refusalOf? (m.askArchive p query).1 = none := by
  obtain ⟨r, hr⟩ := h.archive
  unfold askArchive
  rw [hr]
  rfl

/-- What a read does after its check is not refused. -/
theorem Ready.ask_ok (h : m.Ready) {query : String} (plan : Plan)
    (hp : checkPlace p.user p.conversation = .ok p) (hquery : checkQuery query = .ok query) :
    refusalOf? (m.ask p query plan).1 = none := by
  obtain ⟨cached, known, archived, applied, hcached, hknown, harchived, happlied, hask⟩ :=
    ask_inv p query plan m
  have hready : cached.2.Ready := by
    rw [hcached]
    exact (reach_askIf (L := .free) plan .hotCache (reach_askCache p)).ready h
  have hready' : known.2.Ready := by
    rw [hknown]
    exact (reach_askIf (L := .free) plan .factStore (reach_askFacts p query)).ready hready
  have hready'' : archived.2.Ready := by
    rw [harchived]
    exact (reach_askIf (L := .free) plan .archive (reach_askArchive p query)).ready hready'
  rw [hask]
  refine refusalOf?_bind ?_ fun _ _ => refusalOf?_bind ?_ fun _ _ =>
    refusalOf?_bind ?_ fun _ _ => refusalOf?_bind ?_ fun _ _ => rfl
  · rw [happlied]
    exact refusalOf?_askIf plan .patternStore (hready''.takesQuery hp hquery).patterns
  · rw [hcached]
    exact refusalOf?_askIf plan .hotCache rfl
  · rw [hknown]
    exact refusalOf?_askIf plan .factStore (hready.takesQuery hp hquery).askFacts_ok
  · rw [harchived]
    exact refusalOf?_askIf plan .archive (hready'.takesQuery hp hquery).askArchive_ok

/-- Whatever the background does before the parts of a call, they find a memory that is ready. -/
theorem Ready.amid_ok {α : Type} (h : m.Ready) (parts : Memory → Except Fault α × Memory)
    (hparts : ∀ m' : Memory, m'.Ready → refusalOf? (parts m').1 = none) :
    refusalOf? (m.amid parts).1 = none :=
  hparts _ ((reach_beforeParts (L := .free)).ready h)

theorem Ready.write_ok (h : m.Ready) {user conversation : String} {t : Turn}
    (hp : checkWrite user conversation t = .ok p) :
    refusalOf? (m.write user conversation t).1 = none := by
  obtain ⟨hplace, -⟩ := checkWrite_inv hp
  have hpassed := checkPlace_again (checkPlace_of_checkWrite hp)
  have hrated : (m.assess t).2.Ready :=
    (reach_assess (L := .free) (queued_free m) trivial).ready h
  have hplaced := hrated.amid_ok (place p (m.assess t).1) fun m' hm' =>
    (hm'.takesTurn (t := (m.assess t).1) hpassed hplace).place_ok
  unfold write
  rw [hp]
  simp only
  split
  · next why m' hfailed =>
    rw [hfailed] at hplaced
    exact hplaced
  · rfl

theorem Ready.read_ok (h : m.Ready) {user conversation query : String}
    (hp : checkRead user conversation query = .ok p) :
    refusalOf? (m.read user conversation query).1 = none := by
  obtain ⟨hpassed, hquery⟩ := checkPlace_of_checkRead hp
  have hnoted : Reach .free m (m.changeState p fun s => { s with lastQueryAt := m.now }) :=
    .step (.note p _ (fun _ => rfl) trivial)
  have hplanned := (hnoted.trans (reach_planFor (queued_free _) query)).ready h
  unfold read
  rw [hp]
  simp only
  rw [refusalOf?_map]
  exact hplanned.amid_ok _ fun m' hm' => hm'.ask_ok _ hpassed hquery

theorem Ready.removeTurn_ok (h : m.Ready) (id : String) (isCached : Bool) :
    refusalOf? (m.removeTurn p id isCached).1 = none := by
  obtain ⟨a, ha⟩ := h.log
  rw [removeTurn_log ha]
  rfl

theorem Ready.forget_ok (h : m.Ready) {user conversation : String}
    (hp : checkPlace user conversation = .ok p) (id : String) :
    refusalOf? (m.forget user conversation id).1 = none := by
  have hrecent : Memory.Ready { m with cache := (m.cache.recent m.now p m.recentLimit).2 } :=
    (Reach.step (L := .free) (.recent m.now p m.recentLimit)).ready h
  unfold forget
  rw [hp]
  exact hrecent.amid_ok _ fun m' hm' => hm'.removeTurn_ok id _

theorem Ready.deleteUser_ok (h : m.Ready) {user : String} (hu : checkUser user = .ok ()) :
    refusalOf? (m.deleteUser user).1 = none := by
  have hcancelled : (m.cancelEnrichments user).Ready :=
    (reach_cancelEnrichments (L := .free) (queued_free m) user).ready h
  have herased := hcancelled.amid_ok (deleteFromTiers user) fun m' hm' => by
    obtain ⟨a, ha⟩ := hm'.log
    rw [deleteFromTiers_log ha]
    rfl
  unfold deleteUser
  rw [hu]
  simp only
  split
  · next why m' hfailed =>
    rw [hfailed] at herased
    exact herased
  · rfl

/-- A call that is refused is refused by its first check. -/
theorem Ready.after_of_refusal (h : m.Ready) {c : Call} {why : Rejection}
    (hc : c.refusal? m = some why) : c.after m = m := by
  cases c with
  | write user conversation t =>
    cases hp : checkWrite user conversation t with
    | error _ =>
      show (m.write user conversation t).2 = m
      unfold write
      rw [hp]
    | ok p => cases (h.write_ok hp).symm.trans hc
  | read user conversation query =>
    cases hp : checkRead user conversation query with
    | error _ =>
      show (m.read user conversation query).2 = m
      unfold read
      rw [hp]
    | ok p => cases (h.read_ok hp).symm.trans hc
  | recent user conversation limit =>
    dsimp only [Call.refusal?] at hc
    dsimp only [Call.after]
    cases hr : m.recent user conversation limit with
    | error _ => rfl
    | ok r =>
      rw [hr] at hc
      cases hc
  | forget user conversation id =>
    cases hp : checkPlace user conversation with
    | error _ =>
      show (m.forget user conversation id).2 = m
      unfold forget
      rw [hp]
    | ok p => cases (h.forget_ok hp id).symm.trans hc
  | deleteUser user =>
    cases hu : checkUser user with
    | error _ =>
      show (m.deleteUser user).2 = m
      unfold deleteUser
      rw [hu]
    | ok _ => cases (h.deleteUser_ok hu).symm.trans hc
  | maintain user =>
    cases hu : checkUser user with
    | error _ =>
      show (m.maintain user).2 = m
      unfold maintain
      rw [hu]
    | ok _ =>
      unfold Call.refusal? maintain at hc
      dsimp only at hc
      rw [hu] at hc
      cases hc
  | start =>
    have hinterval := refusalOf?_ofUnits hour m.maintenanceHours
    simp only [Call.refusal?, start] at hc
    cases hd : Duration.ofUnits hour m.maintenanceHours with
    | error _ =>
      rw [hd] at hc hinterval
      cases hinterval.symm.trans hc
    | ok interval =>
      rw [hd] at hc
      cases hc
  | _ => cases hc

end Memory

namespace System

/-- **A refused call changes nothing.** Let any run have led from a memory in which the limits are
those of accepted settings. A call that is refused leaves the memory as it is, and whatever goes on
besides it: no tier that a call comes to, and not the planner, refuses what the first check of the
call has let through, in whatever memory it is asked by then. -/
theorem refused_unchanged {m₀ : Memory} {s : System} (h₀ : m₀.Configured)
    (hr : Runs .free ⟨m₀, []⟩ s) :
    (∀ c why, Call.refusal? s.memory c = some why → { s with memory := c.after s.memory } = s) ∧
    ∀ m, s.memory.Reach .free m →
      (∀ user conversation t p flags entities importance,
        Memory.checkWrite user conversation t = .ok p →
          m.TakesTurn p { t with flags, entities, importance }) ∧
      (∀ user conversation query p, Memory.checkRead user conversation query = .ok p →
        m.TakesQuery p query) ∧
      (∀ user conversation p, checkPlace user conversation = .ok p →
        m.cache.recentAt m.now user conversation m.recentLimit =
          .ok (m.cache.recent m.now p m.recentLimit)) ∧
      ∀ user, checkUser user = .ok () → m.patterns.list user = .ok (m.patterns.ranked user) := by
  have hs : s.memory.Ready := hr.reach.ready h₀.ready
  refine ⟨fun c why hc => ?_, fun m hm => ⟨?_, ?_, ?_, ?_⟩⟩
  · rw [hs.after_of_refusal hc]
  · intro user conversation t p flags entities importance hp
    obtain ⟨hplace, -⟩ := checkWrite_inv hp
    exact (hm.ready hs).takesTurn (checkPlace_again (checkPlace_of_checkWrite hp)) hplace
  · intro user conversation query p hp
    obtain ⟨hpassed, hquery⟩ := checkPlace_of_checkRead hp
    exact (hm.ready hs).takesQuery hpassed hquery
  · exact fun user conversation p hp => Memory.recentAt_eq_ok hp m
  · intro user hu
    unfold PatternStore.list
    rw [hu]
    rfl

theorem runs_retold : Runs .free ⟨{}, []⟩ retold := .of_reach (Call.reach_all _) []

/-- The empty memory has the limits of the settings that are accepted without any values. -/
theorem configured_empty : Memory.Configured {} :=
  ⟨⟨_, rfl⟩, [], {}, rfl, rfl, rfl, rfl⟩

/-- A user whose name is malformed is refused and leaves everything as it is, and a query that is
not refused at once is not refused by any tier. -/
theorem refused_retold :
    Memory.Configured {} ∧ Runs .free ⟨{}, []⟩ retold ∧
      Call.refusal? retold.memory (.write "u 1" "c1" (remark "u 1" "t3" "red")) =
        some (.malformed "user_id" "'u 1'") ∧
      { retold with
        memory := Call.after retold.memory (.write "u 1" "c1" (remark "u 1" "t3" "red")) } =
        retold ∧
      Memory.checkRead "u1" "c1" "continue" = .ok ⟨"u1", "c1"⟩ ∧
      retold.memory.TakesQuery ⟨"u1", "c1"⟩ "continue" := by
  obtain ⟨hcalls, htiers⟩ := refused_unchanged configured_empty runs_retold
  have hrefused : Call.refusal? retold.memory (.write "u 1" "c1" (remark "u 1" "t3" "red")) =
      some (.malformed "user_id" "'u 1'") := by decide +kernel
  have hpassed : Memory.checkRead "u1" "c1" "continue" = .ok ⟨"u1", "c1"⟩ := by decide +kernel
  obtain ⟨-, hqueries, -⟩ := htiers retold.memory (.refl _ _)
  exact ⟨configured_empty, runs_retold, hrefused, hcalls _ _ hrefused, hpassed,
    hqueries _ _ _ _ hpassed⟩

end System

end TieredMemory
