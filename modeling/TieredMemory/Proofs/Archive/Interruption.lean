import TieredMemory.Proofs.Archive.Index

/-!
# Interrupted writes

A write is three statements, and nothing undoes the first ones when a later one is not reached: what
they did is seen on the connection, the next commit makes it durable, and opening the file again takes
it back. A write that was cut short is still seen as the archive before it or as the archive after it,
whatever follows, except when it was cut between deletion and insertion of a turn that was there
(`append_interrupted_iff`): then the turn is lost, and the next commit makes the loss durable.
-/

namespace TieredMemory.ArchiveTable

/-! ### What is seen, and what may follow -/

/-- The archives are told apart by no call that looks at turns. -/
structure SeenAlike (a b : ArchiveTable) : Prop where
  get? : ∀ id, a.get? id = b.get? id
  conversation : ∀ user conversation limit,
    a.conversation user conversation limit = b.conversation user conversation limit
  search : ∀ user query limit, a.search user query limit = b.search user query limit

theorem seenAlike_of_working {a b : ArchiveTable} (hopen : a.isOpen = b.isOpen)
    (hworking : a.working = b.working) : SeenAlike a b := by
  constructor <;> intros <;>
    simp only [ArchiveTable.get?, ArchiveTable.conversation, ArchiveTable.search, checkOpen, hopen,
      hworking]

/-- What may follow a call. -/
inductive Event where
  | append (t : Turn)
  /-- A write that is cut short after `n` statements. -/
  | interrupted (n : Nat) (t : Turn)
  | delete (user id : String)
  | deleteUser (user : String)
  | reopen

/-- The archive after an event. A call that fails changes nothing. -/
def after (a : ArchiveTable) : Event → ArchiveTable
  | .append t => (a.append t).toOption.getD a
  | .interrupted n t => a.appendInterrupted n t
  | .delete user id => ((a.delete user id).toOption.map Prod.snd).getD a
  | .deleteUser user => ((a.deleteUser user).toOption.map Prod.snd).getD a
  | .reopen => a.reopen

/-- The archive after events one after another. -/
def afterAll (a : ArchiveTable) (es : List Event) : ArchiveTable := es.foldl after a

/-! ### What events keep -/

variable {a b c done : ArchiveTable} {t : Turn} {n : Nat}

theorem run_isOpen (a : ArchiveTable) (s : Statement) : (a.run s).isOpen = a.isOpen := by
  cases s <;> rfl

theorem runAll_isOpen (a : ArchiveTable) (ss : List Statement) : (a.runAll ss).isOpen = a.isOpen := by
  induction ss generalizing a with
  | nil => rfl
  | cons s ss ih => exact (ih (a.run s)).trans (run_isOpen a s)

/-- Three open archives, of which the first is one of the others, or sees what the third one sees and
has in its file what the second one has. -/
structure OneOf (a b c : ArchiveTable) : Prop where
  isOpen : a.isOpen = true ∧ b.isOpen = true ∧ c.isOpen = true
  eq : a = b ∨ a = c ∨ a.working = c.working ∧ a.durable = b.durable

namespace OneOf

theorem run (h : OneOf a b c) (s : Statement) : OneOf (a.run s) (b.run s) (c.run s) := by
  refine ⟨by simpa only [run_isOpen] using h.isOpen, ?_⟩
  rcases h.eq with rfl | rfl | ⟨hworking, hdurable⟩
  · exact .inl rfl
  · exact .inr (.inl rfl)
  · cases s with
    | commit =>
      -- what is only seen becomes durable
      obtain ⟨ha, -, hc⟩ := h.isOpen
      obtain ⟨_, _, _⟩ := a
      obtain ⟨_, _, _⟩ := c
      simp only at hworking ha hc
      subst hworking ha hc
      exact .inr (.inl rfl)
    | _ =>
      refine .inr (.inr ⟨?_, hdurable⟩)
      simp only [ArchiveTable.run, hworking]

theorem runAll (h : OneOf a b c) (ss : List Statement) :
    OneOf (a.runAll ss) (b.runAll ss) (c.runAll ss) := by
  induction ss generalizing a b c with
  | nil => exact h
  | cons s ss ih => exact ih (h.run s)

/-- What is only seen is taken back. -/
theorem reopen (h : OneOf a b c) : OneOf a.reopen b.reopen c.reopen := by
  refine ⟨⟨rfl, rfl, rfl⟩, ?_⟩
  rcases h.eq with rfl | rfl | ⟨-, hdurable⟩
  · exact .inl rfl
  · exact .inr (.inl rfl)
  · left
    simp only [ArchiveTable.reopen, close, connect, hdurable]

theorem after (h : OneOf a b c) (e : Event) : OneOf (a.after e) (b.after e) (c.after e) := by
  obtain ⟨ha, hb, hc⟩ := h.isOpen
  cases e with
  | append t =>
    cases hu : checkUser t.user with
    | error why =>
      simp only [ArchiveTable.after, append, checkAppend, hu]
      exact h
    | ok _ =>
      simp only [ArchiveTable.after, append, checkAppend, checkOpen, hu, ha, hb, hc, if_true]
      exact h.runAll (appendStatements t)
  | interrupted n t => exact h.runAll _
  | delete user id =>
    simp only [ArchiveTable.after, delete, checkOpen, ha, hb, hc, if_true]
    exact h.runAll [.deleteOwned user id, .commit]
  | deleteUser user =>
    simp only [ArchiveTable.after, deleteUser, checkOpen, ha, hb, hc, if_true]
    exact h.runAll [.deleteUser user, .commit]
  | reopen => exact h.reopen

theorem afterAll (h : OneOf a b c) (es : List Event) :
    OneOf (a.afterAll es) (b.afterAll es) (c.afterAll es) := by
  induction es generalizing a b c with
  | nil => exact h
  | cons e es ih => exact ih (h.after e)

theorem seenAlike (h : OneOf a b c) : SeenAlike a b ∨ SeenAlike a c := by
  obtain ⟨ha, hb, hc⟩ := h.isOpen
  rcases h.eq with rfl | rfl | ⟨hworking, -⟩
  · exact .inl (seenAlike_of_working rfl rfl)
  · exact .inr (seenAlike_of_working rfl rfl)
  · exact .inr (seenAlike_of_working (ha.trans hc.symm) hworking)

end OneOf

/-! ### Writing a turn -/

theorem append_inv (h : a.append t = .ok done) :
    a.isOpen = true ∧ done = a.runAll (appendStatements t) := by
  obtain ⟨⟨⟩, hcheck, h⟩ := bind_eq_ok h
  obtain ⟨-, -, hopen⟩ := bind_eq_ok hcheck
  refine ⟨?_, (Except.ok.inj h).symm⟩
  unfold checkOpen at hopen
  split at hopen
  · assumption
  · cases hopen

theorem append_of_checks (hopen : a.isOpen = true) (hu : checkUser t.user = .ok ()) :
    a.append t = .ok (a.runAll (appendStatements t)) := by
  simp only [append, checkAppend, checkOpen, hopen, hu, if_true]
  rfl

/-- Deleting what is not there changes nothing. -/
theorem deleteWhere_of_notMem {c : Contents} {id : String} (h : ∀ r ∈ c.rows, r.id ≠ id) :
    c.deleteWhere (fun r => r.id == id) = c := by
  have hany (e : IndexEntry) : (c.rows.any fun r => r.id == id && r.id == e.id) = false :=
    List.any_eq_false.2 fun r hr => by simp [h r hr]
  have hrows : (c.rows.filter fun r => !(r.id == id)) = c.rows :=
    List.filter_eq_self.2 fun r hr => by simp [h r hr]
  simp [Contents.deleteWhere, hany, hrows]

/-- A write that is cut short, unless it has lost a turn. -/
theorem oneOf_appendInterrupted (h : a.append t = .ok done)
    (hn : ¬ (n = 1 ∧ ∃ r ∈ a.working.rows, r.id = t.id)) :
    OneOf (a.appendInterrupted n t) a done := by
  obtain ⟨hopen, rfl⟩ := append_inv h
  have hrun (ss : List Statement) : (a.runAll ss).isOpen = true := (runAll_isOpen a ss).trans hopen
  refine ⟨⟨hrun _, hopen, hrun _⟩, ?_⟩
  match n with
  | 0 => exact .inl rfl
  | 1 =>
    have habsent : ∀ r ∈ a.working.rows, r.id ≠ t.id := by simpa using hn
    left
    show { a with working := a.working.deleteWhere fun r => r.id == t.id } = a
    rw [deleteWhere_of_notMem habsent]
  | 2 => exact .inr (.inr ⟨rfl, rfl⟩)
  | n + 3 => exact .inr (.inl (appendInterrupted_of_le (by omega)))

theorem get?_eq (hopen : a.isOpen = true) (id : String) :
    a.get? id = .ok ((a.working.row? id).map Row.toTurn) := by
  simp only [ArchiveTable.get?, checkOpen, hopen, if_true]
  rfl

/-- Between deletion and insertion no turn has the identifier. -/
theorem get?_appendInterrupted_one (hopen : a.isOpen = true) (t : Turn) :
    (a.appendInterrupted 1 t).get? t.id = .ok none := by
  have hopen' : (a.appendInterrupted 1 t).isOpen = true := (runAll_isOpen a _).trans hopen
  have hnone : (a.appendInterrupted 1 t).working.row? t.id = none :=
    List.find?_eq_none.2 fun r hr => by simpa using (List.mem_filter.1 hr).2
  rw [get?_eq hopen', hnone]
  rfl

/-- A turn that is there is found by its identifier. -/
theorem get?_ne_none (hopen : a.isOpen = true) {r : Row} (hr : r ∈ a.working.rows) :
    a.get? r.id ≠ .ok none := by
  rw [get?_eq hopen]
  intro h
  have hnone : a.working.row? r.id = none := Option.map_eq_none_iff.1 (Except.ok.inj h)
  simpa using List.find?_eq_none.1 hnone r hr

/-- A write that is cut between deletion and insertion is seen neither as it was before nor as it is
after. -/
theorem not_seenAlike_of_lost (h : a.append t = .ok done) {r : Row} (hr : r ∈ a.working.rows)
    (hid : r.id = t.id) :
    ¬ SeenAlike (a.appendInterrupted 1 t) a ∧ ¬ SeenAlike (a.appendInterrupted 1 t) done := by
  obtain ⟨hopen, rfl⟩ := append_inv h
  have hlost := get?_appendInterrupted_one hopen t
  have hnew : Row.ofTurn t ∈ (a.runAll (appendStatements t)).working.rows :=
    List.mem_append_right _ (List.mem_singleton_self _)
  constructor
  · intro hseen
    exact get?_ne_none hopen hr (hid ▸ (hseen.get? t.id).symm.trans hlost)
  · intro hseen
    exact get?_ne_none ((runAll_isOpen a _).trans hopen) hnew ((hseen.get? t.id).symm.trans hlost)

/-- A write that is cut short is seen, whatever follows, as if it had not been called or had been
completed, unless it is cut between the deletion of a turn that was there and the insertion of the new
one. -/
theorem append_interrupted_iff (h : a.append t = .ok done) (n : Nat) :
    (∀ es, SeenAlike ((a.appendInterrupted n t).afterAll es) (a.afterAll es) ∨
        SeenAlike ((a.appendInterrupted n t).afterAll es) (done.afterAll es)) ↔
      ¬ (n = 1 ∧ ∃ r ∈ a.working.rows, r.id = t.id) := by
  constructor
  · rintro hall ⟨rfl, r, hr, hid⟩
    -- nothing needs to follow: the turn is missing at once
    obtain ⟨hbefore, hafter⟩ := not_seenAlike_of_lost h hr hid
    exact (hall []).elim hbefore hafter
  · exact fun hn es => ((oneOf_appendInterrupted h hn).afterAll es).seenAlike

/-- An archive with one turn. -/
def oneNote : ArchiveTable := ({} : ArchiveTable).connect.runAll (appendStatements (note "u" "t1" 0))

/-- A turn with a new identifier is written in whole or not at all, also between the statements. -/
theorem append_interrupted_new :
    oneNote.append (note "u" "t2" 1) = .ok (oneNote.runAll (appendStatements (note "u" "t2" 1))) ∧
      ∀ es, SeenAlike ((oneNote.appendInterrupted 1 (note "u" "t2" 1)).afterAll es)
          (oneNote.afterAll es) ∨
        SeenAlike ((oneNote.appendInterrupted 1 (note "u" "t2" 1)).afterAll es)
          ((oneNote.runAll (appendStatements (note "u" "t2" 1))).afterAll es) := by
  have happend := append_of_checks (a := oneNote) (t := note "u" "t2" 1) rfl (by decide +kernel)
  refine ⟨happend, (append_interrupted_iff happend 1).2 ?_⟩
  rintro ⟨-, r, hr, hid⟩
  obtain rfl := List.mem_singleton.1 hr
  exact absurd hid (by decide)

/-- A turn whose new row is refused is lost: it is seen neither as it was nor as it would be, and
opening the file again after the next write does not bring it back. -/
theorem append_interrupted_loses :
    oneNote.appendWithoutText (note "u" "t1" 1) =
        (.error .incompleteRow, oneNote.appendInterrupted 1 (note "u" "t1" 1)) ∧
      ¬ (SeenAlike (oneNote.appendInterrupted 1 (note "u" "t1" 1)) oneNote ∨
        SeenAlike (oneNote.appendInterrupted 1 (note "u" "t1" 1))
          (oneNote.runAll (appendStatements (note "u" "t1" 1)))) ∧
      ((oneNote.appendInterrupted 1 (note "u" "t1" 1)).afterAll
        [.append (note "u" "t2" 2), .reopen]).get? "t1" = .ok none := by
  have hu : checkUser "u" = .ok () := by decide +kernel
  refine ⟨?_, not_or.2 (not_seenAlike_of_lost (append_of_checks rfl hu) (List.mem_singleton_self _)
    rfl), ?_⟩
  · have hcheck : oneNote.checkAppend (note "u" "t1" 1) = .ok () := by
      simp only [checkAppend, show (note "u" "t1" 1).user = "u" from rfl, hu]
      rfl
    rw [appendWithoutText, hcheck]
  · have happend : (oneNote.appendInterrupted 1 (note "u" "t1" 1)).append (note "u" "t2" 2) = .ok _ :=
      append_of_checks rfl hu
    simp only [afterAll, List.foldl_cons, List.foldl_nil, after, happend]
    rfl

end TieredMemory.ArchiveTable
