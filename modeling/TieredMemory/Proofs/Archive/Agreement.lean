import Mathlib
import TieredMemory.Archive
import TieredMemory.Proofs.Archive.Index

/-!
# A log and a table answer alike

Without an embedder a log in memory and an open table that both start empty are the same archive to
their callers: to every sequence of calls that write, look up, list and delete turns they give the same
answers, embeddings apart (`log_and_table_agree`). One call keeps the two in step (`Mirrors.respond`): the
rows of the table are the rows of the turns of the log, in the same order. What the calls leave out is
the search, which selects by likeness in a log and by an expression in a table; of the table it is
shown that it finds only turns that are there.
-/

namespace TieredMemory.Archive

/-! ### Calls -/

/-- A call on an archive, other than a search. -/
inductive Request where
  | append (t : Turn)
  | get (id : String)
  | delete (user id : String)
  | deleteUser (user : String)
  | conversation (user conversation : String) (limit : Int)

/-- What an archive answers. -/
inductive Response where
  | written
  | turn (t : Option Turn)
  | deleted (b : Bool)
  | removed (n : Nat)
  | turns (ts : List Turn)

/-- The answer without embeddings. -/
def Response.plain : Response → Response
  | turn t => turn (t.map Turn.plain)
  | turns ts => turns (ts.map Turn.plain)
  | r => r

/-- The turn can be stored, and the limit is one that a statement takes. -/
def Request.Storable : Request → Prop
  | append t => t.Storable
  | conversation _ _ limit => limit < ArchiveTable.limitBound
  | _ => True

/-- The answer to a call, and the archive and the world after it. -/
def respond (a : Archive) (w : World) : Request → Except Fault Response × Archive × World
  | .append t =>
    match a.append t w with
    | .ok (_, a, w) => (.ok .written, a, w)
    | .error why => (.error why, a, w)
  | .get id => ((a.get? id).map .turn, a, w)
  | .delete user id =>
    match a.delete user id with
    | .ok (b, a) => (.ok (.deleted b), a, w)
    | .error why => (.error why, a, w)
  | .deleteUser user =>
    match a.deleteUser user with
    | .ok (n, a) => (.ok (.removed n), a, w)
    | .error why => (.error why, a, w)
  | .conversation user conversation limit =>
    ((a.conversation user conversation limit).map .turns, a, w)

/-- The answers to calls one after another, and the archive and the world after them. -/
def respondAll (a : Archive) (w : World) :
    List Request → List (Except Fault Response) × Archive × World
  | [] => ([], a, w)
  | r :: rs =>
    let (x, a, w) := a.respond w r
    let (xs, a, w) := a.respondAll w rs
    (x :: xs, a, w)

/-! ### One call -/

variable {log : ArchiveLog} {table : ArchiveTable} {w : World} {t : Turn}

/-- The open table holds the rows of the turns of the log. -/
structure Mirrors (log : ArchiveLog) (table : ArchiveTable) : Prop where
  isOpen : table.isOpen = true
  rows : table.working.rows = log.turns.map Row.ofTurn
  storable : ∀ t ∈ log.turns, t.Storable
  indexed : table.Indexed

namespace Mirrors

theorem empty (minSimilarity : Float) :
    Mirrors { minSimilarity } ({} : ArchiveTable).connect :=
  ⟨rfl, rfl, by simp, ArchiveTable.Indexed.empty.connect⟩

/-- No identifier occurs twice in the log. -/
theorem distinct (h : Mirrors log table) : (log.turns.map Turn.id).Nodup := by
  have := h.indexed.working.distinct
  rw [h.rows, List.map_map] at this
  exact this

theorem checkOpen (h : Mirrors log table) : table.checkOpen = .ok () := by
  simp [ArchiveTable.checkOpen, h.isOpen]

/-- A condition on rows that is one on turns selects the rows of the turns. -/
theorem filter_rows {ts : List Turn} {p : Row → Bool} {q : Turn → Bool}
    (hpq : ∀ t, p (Row.ofTurn t) = q t) :
    (ts.map Row.ofTurn).filter p = (ts.filter q).map Row.ofTurn := by
  rw [List.filter_map]
  exact congrArg _ (List.filter_congr fun t _ => hpq t)

/-- Removing turns and the rows of them. -/
theorem filter (h : Mirrors log table) {p : Row → Bool} {q : Turn → Bool}
    (hpq : ∀ t, p (Row.ofTurn t) = q t) :
    Mirrors { log with turns := log.turns.filter fun t => !q t }
      { table with working := table.working.deleteWhere p } where
  isOpen := h.isOpen
  rows := by
    simp only [Contents.deleteWhere, h.rows]
    exact filter_rows fun t => by rw [hpq]
  storable t ht := h.storable t (List.mem_of_mem_filter ht)
  indexed := h.indexed.deleteWhere p

theorem commit (h : Mirrors log table) : Mirrors log (table.run .commit) :=
  ⟨h.isOpen, h.rows, h.storable, h.indexed.commit⟩

/-- Writing a turn replaces the turn with its identifier on both sides. -/
theorem append (h : Mirrors log table) (ht : t.Storable) :
    Mirrors (log.insert t) (table.runAll (ArchiveTable.appendStatements t)) where
  isOpen := h.isOpen
  rows := by
    show (table.working.rows.filter fun r => !(r.id == t.id)) ++ [Row.ofTurn t] = _
    rw [h.rows, filter_rows (q := fun x => decide (x.id ≠ t.id)) fun x => by simp [Bool.beq_eq_decide_eq]]
    simp [ArchiveLog.insert]
  storable x hx := by
    rcases List.mem_append.1 hx with hx | hx
    · exact h.storable x (List.mem_of_mem_filter hx)
    · exact List.mem_singleton.1 hx ▸ ht
  indexed := by
    rw [← ArchiveTable.appendInterrupted_of_le (le_refl 3)]
    exact h.indexed.appendInterrupted 3 t

theorem row? (h : Mirrors log table) (id : String) :
    (table.working.row? id).map Row.toTurn = (log.get? id).map Turn.plain := by
  unfold Contents.row? ArchiveLog.get?
  rw [h.rows, List.find?_map, Option.map_map]
  show (log.turns.find? fun t => t.id == id).map _ = _
  cases hfound : log.turns.find? fun t => t.id == id with
  | none => rfl
  | some t =>
    simp only [Option.map_some, Function.comp_apply,
      Row.toTurn_ofTurn (h.storable t (List.mem_of_find?_eq_some hfound))]

/-- Deleting in a log without duplicates removes what has the identifier and the user. -/
theorem delete_eq (h : Mirrors log table) (user id : String) :
    log.delete user id = (log.turns.any fun t => t.id == id && t.user == user,
      { log with turns := log.turns.filter fun t => !(t.id == id && t.user == user) }) := by
  have hkept (hkeep : ∀ x ∈ log.turns, ¬ (x.id = id ∧ x.user = user)) :
      (log.turns.any fun t => t.id == id && t.user == user) = false ∧
        (log.turns.filter fun t => !(t.id == id && t.user == user)) = log.turns := by
    have hkeep' : ∀ x ∈ log.turns, (x.id == id && x.user == user) = false := fun x hx => by
      simpa using hkeep x hx
    exact ⟨List.any_eq_false.2 fun x hx => by simp [hkeep' x hx],
      List.filter_eq_self.2 fun x hx => by simp [hkeep' x hx]⟩
  unfold ArchiveLog.delete
  cases hfound : log.get? id with
  | none =>
    have hid : ∀ x ∈ log.turns, x.id ≠ id := by
      simpa [ArchiveLog.get?, List.find?_eq_none] using hfound
    obtain ⟨hany, hfilter⟩ := hkept fun x hx h => hid x hx h.1
    rw [hany, hfilter]
  | some t =>
    have ht : t ∈ log.turns := List.mem_of_find?_eq_some hfound
    have htid : t.id = id := by simpa using List.find?_some hfound
    have hid : ∀ x ∈ log.turns, x.id = id → x = t := fun x hx hx' =>
      List.inj_on_of_nodup_map h.distinct hx ht (hx'.trans htid.symm)
    simp only
    by_cases hu : t.user = user
    · have hany : (log.turns.any fun t => t.id == id && t.user == user) = true :=
        List.any_eq_true.2 ⟨t, ht, by simp [htid, hu]⟩
      rw [if_pos hu, hany]
      congr 2
      refine List.filter_congr fun x hx => ?_
      by_cases hx' : x.id = id
      · simp [hid x hx hx', htid, hu]
      · simp [hx']
    · obtain ⟨hany, hfilter⟩ := hkept fun x hx h => hu (hid x hx h.1 ▸ h.2)
      rw [if_neg hu, hany, hfilter]

/-- The index read backwards and turned round has the last turns of a conversation by their times. -/
theorem latest (h : Mirrors log table) (p : Place) (n : Nat) :
    (table.working.latest p n).map Row.toTurn = (log.latest p n).map Turn.plain := by
  obtain ⟨ts, hts⟩ : ∃ ts, ts = (log.ofUser p.user).filter fun t => t.conversation == p.conversation :=
    ⟨_, rfl⟩
  have hmem : ∀ t ∈ ts, t.Storable := fun t ht => by
    rw [hts] at ht
    exact h.storable t (List.mem_of_mem_filter (List.mem_of_mem_filter ht))
  have hrows : (table.working.rows.filter fun r =>
      r.user == p.user && r.conversation == p.conversation) = ts.map Row.ofTurn := by
    rw [h.rows, filter_rows (q := fun t => t.user == p.user && t.conversation == p.conversation)
      fun t => rfl, hts, ArchiveLog.ofUser, List.filter_filter]
    simp only [Bool.and_comm]
  have hindex : table.working.indexed p =
      (ascending (fun x y => decide (x.createdAt < y.createdAt)) ts).map Row.ofTurn := by
    rw [Contents.indexed, hrows, Row.ascending_map_ofTurn fun t ht => (hmem t ht).dated]
  have hstorable : ∀ t ∈ lastOf n (ascending (fun x y => decide (x.createdAt < y.createdAt)) ts),
      t.Storable := fun t ht =>
    hmem t ((List.mergeSort_perm ts _).subset (List.mem_of_mem_drop ht))
  have hlast : table.working.latest p n =
      (lastOf n (ascending (fun x y => decide (x.createdAt < y.createdAt)) ts)).map Row.ofTurn := by
    unfold Contents.latest lastOf
    rw [List.take_reverse, List.reverse_reverse, hindex, List.length_map, List.map_drop]
  rw [hlast, Row.map_toTurn_map_ofTurn hstorable, hts]
  rfl

theorem conversation (h : Mirrors log table) (user conversation : String) {limit : Int}
    (hl : limit < ArchiveTable.limitBound) :
    (Archive.table table).conversation user conversation limit =
      ((Archive.log log).conversation user conversation limit).map (·.map Turn.plain) := by
  simp only [Archive.conversation, ArchiveTable.conversation, ArchiveLog.conversation, h.checkOpen]
  cases checkUser user with
  | error why => rfl
  | ok _ =>
    by_cases hneg : limit < 0
    · simp only [checkLimit, if_pos hneg]
      rfl
    · have hbound : ArchiveTable.checkBound limit.toNat = .ok () := by
        rw [ArchiveTable.checkBound, if_pos]
        omega
      have hlatest := h.latest ⟨user, conversation⟩ limit.toNat
      simp only [checkLimit, if_neg hneg]
      change (ArchiveTable.checkBound limit.toNat >>= fun _ => Except.ok
        ((table.working.latest ⟨user, conversation⟩ limit.toNat).map Row.toTurn)) =
          Except.ok ((log.latest ⟨user, conversation⟩ limit.toNat).map Turn.plain)
      rw [hbound, ← hlatest]
      rfl

/-- Without an embedder a turn is logged as it is given. -/
theorem embedded_eq (hw : w.embedder = none) (t : Turn) : ArchiveLog.embedded t w = (t, w) := by
  unfold ArchiveLog.embedded
  split
  · rfl
  · next hnone =>
    simp only [World.embed, hw]
    rw [← hnone]

/-- One call has the same answer on both sides and keeps them in step. -/
theorem respond (h : Mirrors log table) (hw : w.embedder = none) (r : Request) (hr : r.Storable) :
    ∃ log' table', ((Archive.log log).respond w r).2 = (.log log', w) ∧
      ((Archive.table table).respond w r).2 = (.table table', w) ∧ Mirrors log' table' ∧
      ((Archive.table table).respond w r).1.map Response.plain =
        ((Archive.log log).respond w r).1.map Response.plain := by
  cases r with
  | append t =>
    cases hu : checkUser t.user with
    | error why =>
      refine ⟨log, table, ?_, ?_, h, ?_⟩ <;>
        simp only [Archive.respond, Archive.append, ArchiveLog.append, ArchiveTable.append,
          ArchiveTable.checkAppend, hu] <;>
        rfl
    | ok _ =>
      refine ⟨log.insert t, table.runAll (ArchiveTable.appendStatements t), ?_, ?_,
        h.append hr, ?_⟩ <;>
        simp only [Archive.respond, Archive.append, ArchiveLog.append, ArchiveTable.append,
          ArchiveTable.checkAppend, hu, h.checkOpen, embedded_eq hw] <;>
        rfl
  | get id =>
    refine ⟨log, table, rfl, rfl, h, ?_⟩
    simp only [Archive.respond, Archive.get?, ArchiveTable.get?, h.checkOpen]
    show Except.ok (Response.turn (((table.working.row? id).map Row.toTurn).map Turn.plain)) =
      Except.ok (Response.turn ((log.get? id).map Turn.plain))
    rw [h.row? id, Option.map_map]
    rfl
  | delete user id =>
    have hmirrors := (h.filter (p := fun r => r.id == id && r.user == user)
      (q := fun t => t.id == id && t.user == user) fun t => rfl).commit
    refine ⟨_, _, ?_, ?_, hmirrors, ?_⟩ <;>
      simp only [Archive.respond, Archive.delete, ArchiveTable.delete, h.delete_eq, h.checkOpen]
    · rfl
    · show Except.ok (Response.deleted (table.working.rows.any fun r => r.id == id && r.user == user)) =
        Except.ok (Response.deleted (log.turns.any fun t => t.id == id && t.user == user))
      rw [h.rows, List.any_map]
      rfl
  | deleteUser user =>
    have hmirrors := (h.filter (p := fun r => r.user == user) (q := fun t => t.user == user)
      fun t => rfl).commit
    have hlog : (log.deleteUser user).2 =
        { log with turns := log.turns.filter fun t => !(t.user == user) } := by
      simp [ArchiveLog.deleteUser, Bool.beq_eq_decide_eq]
    refine ⟨_, _, ?_, ?_, hmirrors, ?_⟩ <;>
      simp only [Archive.respond, Archive.deleteUser, ArchiveTable.deleteUser, ← hlog, h.checkOpen]
    · rfl
    · show Except.ok (Response.removed (table.working.rows.filter fun r => r.user == user).length) =
        Except.ok (Response.removed (log.ofUser user).length)
      rw [h.rows, filter_rows (q := fun t => t.user == user) fun t => rfl, List.length_map]
      rfl
  | conversation user conversation limit =>
    refine ⟨log, table, rfl, rfl, h, ?_⟩
    simp only [Archive.respond, h.conversation user conversation hr]
    cases (Archive.log log).conversation user conversation limit with
    | error why => rfl
    | ok ts =>
      show Except.ok (Response.turns ((ts.map Turn.plain).map Turn.plain)) =
        Except.ok (Response.turns (ts.map Turn.plain))
      rw [List.map_map]
      rfl

/-! ### Any number of calls -/

/-- Calls one after another have the same answers on both sides and keep them in step. -/
theorem respondAll (h : Mirrors log table) (hw : w.embedder = none) (rs : List Request)
    (hrs : ∀ r ∈ rs, r.Storable) :
    ∃ log' table', ((Archive.log log).respondAll w rs).2 = (.log log', w) ∧
      ((Archive.table table).respondAll w rs).2 = (.table table', w) ∧ Mirrors log' table' ∧
      ((Archive.table table).respondAll w rs).1.map (·.map Response.plain) =
        ((Archive.log log).respondAll w rs).1.map (·.map Response.plain) := by
  induction rs generalizing log table with
  | nil => exact ⟨log, table, rfl, rfl, h, rfl⟩
  | cons r rs ih =>
    obtain ⟨log', table', hlog, htable, h', hanswer⟩ := h.respond hw r (hrs r List.mem_cons_self)
    obtain ⟨log'', table'', hlogs, htables, h'', hanswers⟩ :=
      ih h' fun r hr => hrs r (List.mem_cons_of_mem _ hr)
    refine ⟨log'', table'', ?_, ?_, h'', ?_⟩
    · simpa only [Archive.respondAll, hlog] using hlogs
    · simpa only [Archive.respondAll, htable] using htables
    · simp only [Archive.respondAll, hlog, htable, List.map_cons, hanswer, hanswers]

end Mirrors

/-- A log without an embedder and an open table, both empty at first, give the same answers to all
calls, embeddings apart. The table has one index entry for each row, with its text and its user, and a
search of it finds each turn at most once, and none that is not there as it is found. -/
theorem log_and_table_agree (minSimilarity : Float) (w : World) (hw : w.embedder = none)
    (rs : List Request) (hrs : ∀ r ∈ rs, r.Storable) :
    ((Archive.log { minSimilarity }).respondAll w rs).1.map (·.map Response.plain) =
        ((Archive.table ({} : ArchiveTable).connect).respondAll w rs).1.map (·.map Response.plain) ∧
      ∃ table, ((Archive.table ({} : ArchiveTable).connect).respondAll w rs).2.1 = .table table ∧
        table.working.entries = table.working.rows.map Row.entry ∧
        (table.working.rows.map Row.id).Nodup ∧
        ∀ user query limit found w', (Archive.table table).search user query limit w = .ok (found, w') →
          (found.map Turn.id).Nodup ∧
            ∀ t ∈ found, t.user = user ∧ (Archive.table table).get? t.id = .ok (some t) := by
  obtain ⟨log, table, -, htable, h, hanswers⟩ := (Mirrors.empty minSimilarity).respondAll hw rs hrs
  refine ⟨hanswers.symm, table, congrArg Prod.fst htable, h.indexed.working.entries,
    h.indexed.working.distinct, fun user query limit found w' hs => ?_⟩
  cases hfound : table.search user query limit with
  | error why => simp [Archive.search, hfound, Except.map] at hs
  | ok p =>
    obtain ⟨found', notice⟩ := p
    simp only [Archive.search, hfound, Except.map, Except.ok.injEq, Prod.mk.injEq] at hs
    obtain ⟨rfl, -⟩ := hs
    exact h.indexed.search hfound

/-- A turn takes the identifier of another user's. -/
def reusing : List Request := [
  .append (note "u" "t1" 1), .append (note "u" "t2" 0), .append (note "v" "t1" 2),
  .conversation "u" "c" 10, .get "t1", .delete "u" "t1", .deleteUser "u"]

theorem log_and_table_agree_reusing :
    ((Archive.log { minSimilarity := 0.5 }).respondAll {} reusing).1.map (·.map Response.plain) =
      ((Archive.table ({} : ArchiveTable).connect).respondAll {} reusing).1.map
        (·.map Response.plain) := by
  refine (log_and_table_agree 0.5 {} rfl reusing fun r hr => ?_).1
  simp only [reusing, List.mem_cons, List.not_mem_nil, or_false] at hr
  rcases hr with rfl | rfl | rfl | rfl | rfl | rfl | rfl
  · exact storable_note "u" "t1" (by decide +kernel)
  · exact storable_note "u" "t2" (by decide +kernel)
  · exact storable_note "v" "t1" (by decide +kernel)
  · show (10 : Int) < ArchiveTable.limitBound
    decide
  all_goals exact trivial

end TieredMemory.Archive
