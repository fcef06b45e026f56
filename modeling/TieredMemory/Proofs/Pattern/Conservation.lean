import Mathlib
import TieredMemory.Proofs.Pattern.Background
import TieredMemory.Proofs.Pattern.Merging
import TieredMemory.Proofs.Pattern.Search
import TieredMemory.Proofs.Selection
import TieredMemory.Proofs.World

/-!
# Uses and triggers are conserved

The patterns of a user are merged when they are stored and when they are consolidated, and a match
counts a use. As long as no pattern has to be given up, the uses of a user's patterns are those that
the patterns came with and those counted since, and their triggers are those that the patterns came
with (`run_conserves`).
-/

namespace TieredMemory.PatternStore

open Pattern

variable {user : String} {s s' : PatternStore} {w : World}

/-! ### The patterns of a user -/

theorem filter_put (p : Pattern) (ps : List Pattern) :
    (Keyed.put address p ps).filter (fun q => q.user == user) =
      if p.user = user then Keyed.put Pattern.id p (ps.filter fun q => q.user == user)
      else ps.filter fun q => q.user == user := by
  induction ps with
  | nil => by_cases hp : p.user = user <;> simp [Keyed.put, hp]
  | cons b r ih =>
    rw [Keyed.put]
    by_cases hb : address b = address p
    · obtain ⟨huser, hid⟩ := Prod.mk.inj hb
      by_cases hp : p.user = user <;> simp [hb, hp, huser, hid, Keyed.put]
    · rw [if_neg hb]
      by_cases hbu : b.user = user
      · by_cases hp : p.user = user
        · have hid : b.id ≠ p.id := fun e => hb (Prod.ext (hbu.trans hp.symm) e)
          simp [hbu, hp, hid, Keyed.put, ih]
        · simp [hbu, hp, ih]
      · simp [hbu, ih]

theorem filter_remove (v i : String) (ps : List Pattern) :
    (Keyed.remove address (v, i) ps).filter (fun q => q.user == user) =
      if v = user then Keyed.remove Pattern.id i (ps.filter fun q => q.user == user)
      else ps.filter fun q => q.user == user := by
  unfold Keyed.remove
  rw [List.filter_filter]
  split
  · next hv =>
    subst hv
    rw [List.filter_filter]
    refine List.filter_congr fun q _ => ?_
    by_cases hq : q.user = v <;> simp [address, hq]
  · next hv =>
    refine List.filter_congr fun q _ => ?_
    by_cases hq : q.user = user
    · have : ¬ user = v := fun e => hv e.symm
      simp [address, hq, this]
    · simp [hq]

theorem filter_update (p used : Pattern) (hused : used.user = p.user) (ps : List Pattern) :
    (Keyed.update address (address p) (fun _ => used) ps).filter (fun q => q.user == user) =
      if p.user = user then
        Keyed.update Pattern.id p.id (fun _ => used) (ps.filter fun q => q.user == user)
      else ps.filter fun q => q.user == user := by
  induction ps with
  | nil => simp [Keyed.update]
  | cons b r ih =>
    unfold Keyed.update at ih ⊢
    rw [List.map_cons, List.filter_cons, List.filter_cons, ih]
    by_cases hb : address b = address p
    · obtain ⟨huser, hid⟩ := Prod.mk.inj hb
      by_cases hp : p.user = user <;> simp [hb, hp, huser, hid, hused]
    · by_cases hbu : b.user = user
      · by_cases hp : p.user = user
        · have hid : b.id ≠ p.id := fun e => hb (Prod.ext (hbu.trans hp.symm) e)
          simp [hb, hbu, hp, hid]
        · simp [hb, hbu, hp]
      · by_cases hp : p.user = user <;> simp [hb, hbu, hp]

theorem ofUser_put (p : Pattern) (s : PatternStore) :
    ofUser { s with patterns := Keyed.put address p s.patterns } user =
      if p.user = user then Keyed.put Pattern.id p (s.ofUser user) else s.ofUser user :=
  filter_put p s.patterns

theorem ofUser_remove (v i : String) (s : PatternStore) :
    ofUser { s with patterns := Keyed.remove address (v, i) s.patterns } user =
      if v = user then Keyed.remove Pattern.id i (s.ofUser user) else s.ofUser user :=
  filter_remove v i s.patterns

/-- The patterns of a user may have been merged, and nothing else has happened to them; the pace of
consolidations is the same. -/
structure Keeps (user : String) (s s' : PatternStore) : Prop where
  pace : s'.consolidationEvery = s.consolidationEvery
  becomes : Sound (s.ofUser user) → Becomes 0 (s.ofUser user) (s'.ofUser user)

namespace Keeps

theorem of_eq (hpace : s'.consolidationEvery = s.consolidationEvery)
    (h : s'.ofUser user = s.ofUser user) : Keeps user s s' :=
  ⟨hpace, fun hs => by rw [h]; exact .refl hs⟩

theorem refl (user : String) (s : PatternStore) : Keeps user s s := of_eq rfl rfl

theorem trans {s'' : PatternStore} (h : Keeps user s s') (h' : Keeps user s' s'') :
    Keeps user s s'' where
  pace := h'.pace.trans h.pace
  becomes hs := by
    have hfirst := h.becomes hs
    simpa using hfirst.trans (h'.becomes hfirst.sound)

end Keeps

/-! ### Consolidating -/

theorem ofUser_consolidate_of_ne {v : String} (hv : v ≠ user) :
    (s.consolidate v).2.ofUser user = s.ofUser user := by
  have husers := Pattern.user_mem_consolidate s.policy (s.ofUser v)
  have hkept : ∀ p ∈ s.patterns,
      (if p.user = v then Keyed.find? Pattern.id p.id (Pattern.consolidate s.policy (s.ofUser v)).2
        else some p).filter (fun q => q.user == user) =
      if p.user == user then some p else none := by
    intro p _
    by_cases hp : p.user = v
    · have hne : ¬ p.user = user := fun e => hv (hp.symm.trans e)
      rw [if_pos hp, if_neg (by simpa using hne), Option.filter_eq_none_iff]
      intro q hq
      obtain ⟨r, hr, hqr⟩ := husers q (List.mem_of_find?_eq_some hq)
      have : q.user = v := hqr.trans (user_of_mem_ofUser v s hr)
      simpa [this] using hv
    · rw [if_neg hp]
      by_cases hu : p.user = user <;> simp [hu]
  have hfilter : (s.consolidate v).2.ofUser user =
      (s.patterns.filterMap fun p => if p.user = v then
        Keyed.find? Pattern.id p.id (Pattern.consolidate s.policy (s.ofUser v)).2
        else some p).filter fun q => q.user == user := rfl
  rw [hfilter, List.filter_filterMap, List.filterMap_congr hkept]
  exact congrFun (List.filterMap_eq_filter (p := fun p : Pattern => p.user == user)) s.patterns

theorem keeps_consolidate (v : String) : Keeps user s (s.consolidate v).2 := by
  refine ⟨rfl, fun hs => ?_⟩
  by_cases hv : v = user
  · subst hv
    rw [ofUser_consolidate v s hs.ids]
    exact becomes_consolidate hs
  · rw [ofUser_consolidate_of_ne hv]
    exact .refl hs

theorem abides_keeps (user : String) : Abides (Keeps user) where
  idle _ _ _ := .of_eq rfl rfl
  consolidate _ v := keeps_consolidate v
  trans := Keeps.trans

/-! ### Storing -/

theorem ofUser_withoutLeast_of_ne {v : String} (hv : v ≠ user) :
    (s.withoutLeast v).ofUser user = s.ofUser user := by
  unfold withoutLeast
  split
  · rfl
  · next p r hof =>
    have hleast : (leastFrom isLesser p r).user = v :=
      user_of_mem_ofUser v s (hof ▸ leastFrom_mem isLesser p r)
    refine (ofUser_remove _ _ s).trans (if_neg ?_)
    rwa [hleast]

theorem ofUser_evict_of_ne {v : String} (hv : v ≠ user) :
    (s.evict v).ofUser user = s.ofUser user := by
  unfold evict
  generalize (s.ofUser v).length - s.capacity = n
  induction n with
  | zero => rfl
  | succ n ih => exact (ofUser_withoutLeast_of_ne hv).trans ih

theorem withoutLeast_inv (v : String) (s : PatternStore) :
    ∃ ps, s.withoutLeast v = { s with patterns := ps } := by
  unfold withoutLeast
  split <;> exact ⟨_, rfl⟩

theorem evict_inv (v : String) (s : PatternStore) : ∃ ps, s.evict v = { s with patterns := ps } := by
  unfold evict
  generalize (s.ofUser v).length - s.capacity = n
  induction n with
  | zero => exact ⟨_, rfl⟩
  | succ n ih =>
    obtain ⟨ps, hps⟩ := ih
    rw [Nat.repeat, hps]
    exact withoutLeast_inv v _

/-- Storing a pattern changes patterns only. -/
theorem insert_inv (mergeAlike : Bool) (p : Pattern) (s : PatternStore) :
    ∃ ps, (s.insert mergeAlike p).2 = { s with patterns := ps } := by
  unfold insert
  split
  · exact ⟨_, rfl⟩
  · exact evict_inv p.user _

theorem evict_of_le (h : (s.ofUser user).length ≤ s.capacity) : s.evict user = s := by
  rw [evict, Nat.sub_eq_zero_of_le h]
  rfl

/-- Embedding triggers leaves their texts alone. -/
theorem map_key_embedTriggers (ts : List Trigger) :
    (embedTriggers user ts w).1.map Trigger.key = ts.map Trigger.key := by
  induction ts generalizing w with
  | nil => rfl
  | cons t r ih =>
    rw [embedTriggers]
    simp only [List.map_cons, ih]
    split <;> rfl

/-- The pattern with its semantic triggers embedded. -/
def embedded (p : Pattern) (w : World) : Pattern :=
  { p with triggers := (embedTriggers p.user p.triggers w).1 }

theorem mem_of_counterpart? {p q : Pattern} (h : s.counterpart? p = some q) :
    q ∈ s.ofUser p.user ∧ q.id ≠ p.id := by
  have hperm : (descending (fun a b => decide (a.usage < b.usage)) (s.ofUser p.user)).Perm
      (s.ofUser p.user) := List.mergeSort_perm _ _
  obtain ⟨hne, -⟩ : q.id ≠ p.id ∧ _ := by simpa using List.find?_some h
  exact ⟨hperm.mem_iff.1 (List.mem_of_find?_eq_some h), hne⟩

theorem counterpart?_embedded (p : Pattern) : s.counterpart? (embedded p w) = s.counterpart? p := by
  have halike (q : Pattern) : q.isAlike (embedded p w) = q.isAlike p := by
    unfold Pattern.isAlike triggerKeys
    rw [embedded, map_key_embedTriggers]
  unfold counterpart?
  simp only [halike]
  rfl

theorem ofUser_settle {survivor loser : Pattern} (hs : survivor.user = loser.user) :
    (s.settle survivor loser).ofUser user =
      if loser.user = user then
        Keyed.put Pattern.id survivor (Keyed.remove Pattern.id loser.id (s.ofUser user))
      else s.ofUser user := by
  refine (filter_put _ _).trans ?_
  rw [filter_remove, hs]
  by_cases hl : loser.user = user <;> simp [hl, ofUser]

/-- A pattern that is merged with its counterpart when it is stored: the survivor, the loser, and
their user. -/
theorem ranked_users {p q survivor loser : Pattern} (hr : Pattern.ranked q p = (survivor, loser))
    (hq : q.user = p.user) : survivor.user = p.user ∧ loser.user = p.user := by
  rcases ranked_eq_or q p with h | h <;> obtain ⟨rfl, rfl⟩ := Prod.mk.inj (hr.symm.trans h)
  · exact ⟨hq, rfl⟩
  · exact ⟨rfl, hq⟩

/-- A pattern that comes in is merged with a stored one of its user: of the two, one survives. -/
structure Merges (s : PatternStore) (p q survivor loser : Pattern) : Prop where
  counterpart : s.counterpart? p = some q
  ranked : Pattern.ranked q p = (survivor, loser)
  stored : q ∈ s.ofUser p.user
  other : q.id ≠ p.id
  survivor_user : survivor.user = p.user
  loser_user : loser.user = p.user

/-- The two that are merged are the stored one and the one that comes in. -/
theorem Merges.eq_or {p q survivor loser : Pattern} (h : Merges s p q survivor loser) :
    survivor = q ∧ loser = p ∨ survivor = p ∧ loser = q := by
  rcases ranked_eq_or q p with hranked | hranked
  · exact .inl (Prod.mk.inj (h.ranked.symm.trans hranked))
  · exact .inr (Prod.mk.inj (h.ranked.symm.trans hranked))

/-- A pattern is put into the store, where another one may have to go, or it is merged. -/
theorem insert_cases (mergeAlike : Bool) (p : Pattern) (s : PatternStore) :
    ((mergeAlike = true → s.counterpart? p = none) ∧
      (s.insert mergeAlike p).2 =
        { s with patterns := Keyed.put address p s.patterns }.evict p.user) ∨
    ∃ q survivor loser, mergeAlike = true ∧ Merges s p q survivor loser ∧
      (s.insert mergeAlike p).2 = s.settle (survivor.merge s.policy loser) loser := by
  unfold insert
  cases mergeAlike with
  | false => exact .inl ⟨fun h => Bool.noConfusion h, rfl⟩
  | true =>
    cases hq : s.counterpart? p with
    | none =>
      refine .inl ⟨fun _ => rfl, ?_⟩
      simp only [if_true]
    | some q =>
      rcases hr : Pattern.ranked q p with ⟨survivor, loser⟩
      obtain ⟨hstored, hother⟩ := mem_of_counterpart? hq
      obtain ⟨hsurvivor, hloser⟩ := ranked_users hr (user_of_mem_ofUser _ s hstored)
      refine .inr ⟨q, survivor, loser, rfl, ⟨hq, hr, hstored, hother, hsurvivor, hloser⟩, ?_⟩
      simp only [if_true, hr]

/-- What is left of the patterns of the user when one of two has been merged into the other. -/
theorem Merges.ofUser_settle {p q survivor loser : Pattern} (h : Merges s p q survivor loser) :
    (s.settle (survivor.merge s.policy loser) loser).ofUser user =
      if p.user = user then
        Keyed.put Pattern.id (survivor.merge s.policy loser)
          (Keyed.remove Pattern.id loser.id (s.ofUser user))
      else s.ofUser user := by
  rw [PatternStore.ofUser_settle (by rw [merge_user, h.survivor_user, h.loser_user]), h.loser_user]

/-- A pattern that is stored is put in the place of its own user's. -/
theorem ofUser_insert_of_ne {p : Pattern} (hp : p.user ≠ user) (mergeAlike : Bool) :
    (s.insert mergeAlike p).2.ofUser user = s.ofUser user := by
  rcases insert_cases mergeAlike p s with ⟨-, h⟩ | ⟨q, survivor, loser, -, hmerges, h⟩ <;> rw [h]
  · exact (ofUser_evict_of_ne hp).trans ((ofUser_put p s).trans (if_neg hp))
  · exact hmerges.ofUser_settle.trans (if_neg hp)

theorem insert_pace (mergeAlike : Bool) (p : Pattern) (s : PatternStore) :
    (s.insert mergeAlike p).2.consolidationEvery = s.consolidationEvery := by
  obtain ⟨ps, h⟩ := insert_inv mergeAlike p s
  rw [h]

theorem keeps_insert {p : Pattern} (hp : p.user ≠ user) (mergeAlike : Bool) :
    Keeps user s (s.insert mergeAlike p).2 :=
  .of_eq (insert_pace mergeAlike p s) (ofUser_insert_of_ne hp mergeAlike)

theorem becomes_insert {p : Pattern} (hp : p.user = user) (mergeAlike : Bool)
    (hs : Sound (p :: s.ofUser user))
    (hroom : (mergeAlike = true → s.counterpart? p = none) →
      (s.ofUser user).length < s.capacity) :
    Becomes 0 (p :: s.ofUser user) ((s.insert mergeAlike p).2.ofUser user) := by
  obtain ⟨hfresh, hids⟩ := List.nodup_cons.1 hs.ids
  have habsent := Keyed.remove_of_notMem Pattern.id hfresh
  rcases insert_cases mergeAlike p s with ⟨hnone, h⟩ | ⟨q, survivor, loser, -, hmerges, h⟩ <;> rw [h]
  · have hput := Keyed.put_perm Pattern.id hids p
    rw [habsent] at hput
    have hof : { s with patterns := Keyed.put address p s.patterns }.ofUser user =
        Keyed.put Pattern.id p (s.ofUser user) := (ofUser_put p s).trans (if_pos hp)
    have hlength := hput.length_eq
    rw [← hof, List.length_cons] at hlength
    rw [hp, evict_of_le (hlength.trans_le (hroom hnone)), hof]
    exact .of_perm hput.symm hs
  · have hmem := hp ▸ hmerges.stored
    have hbefore : (p :: s.ofUser user).Perm
        (survivor :: loser :: Keyed.remove Pattern.id q.id (s.ofUser user)) := by
      have hranked := ranked_perm q p (Keyed.remove Pattern.id q.id (s.ofUser user))
      rw [hmerges.ranked] at hranked
      exact (((Keyed.perm_cons_remove Pattern.id hids hmem).cons p).trans (.swap q p _)).trans
        hranked.symm
    have hrest : Keyed.remove Pattern.id survivor.id
        (Keyed.remove Pattern.id loser.id (s.ofUser user)) =
        Keyed.remove Pattern.id q.id (s.ofUser user) := by
      rcases hmerges.eq_or with ⟨rfl, rfl⟩ | ⟨rfl, rfl⟩
      · rw [habsent]
      · rw [Keyed.remove_comm, habsent]
    have hafter := Keyed.put_perm Pattern.id (Keyed.nodup_remove Pattern.id loser.id hids)
      (survivor.merge s.policy loser)
    rw [merge_id, hrest] at hafter
    rw [hmerges.ofUser_settle, if_pos hp]
    exact .merge_of_perm hs hbefore hafter.symm

/-! ### Matching -/

/-- The store with a pattern used once more. -/
def withUse (now : Time) (p : Pattern) (s : PatternStore) : PatternStore :=
  { s with
    patterns := Keyed.update address (address p) (fun _ => p.recordUsage s.policy now) s.patterns }

theorem ofUser_withUse (now : Time) (p : Pattern) (s : PatternStore) :
    (s.withUse now p).ofUser user = if p.user = user then
      Keyed.update Pattern.id p.id (fun _ => p.recordUsage s.policy now) (s.ofUser user)
      else s.ofUser user :=
  filter_update p (p.recordUsage s.policy now) rfl s.patterns

/-- Counting a use of a pattern breaks off if there is no cadence to keep to, and it may set a
consolidation going otherwise. -/
theorem recordMatch_inv (now : Time) (p : Pattern) (s : PatternStore) :
    s.consolidationEvery = 0 ∧ s.recordMatch now p = (.error .zeroCadence, s.withUse now p) ∨
      s.consolidationEvery ≠ 0 ∧ ∃ guards guardCount, ∃ scheduled : Option Consolidation,
        (∀ c ∈ scheduled, c.user = p.user ∧ c.wakeAt = none) ∧
        s.recordMatch now p = (.ok (p.recordUsage s.policy now), { s.withUse now p with
          guards, guardCount, background := s.background ++ scheduled.toList }) := by
  unfold recordMatch
  by_cases hzero : s.consolidationEvery = 0
  · exact .inl ⟨hzero, if_pos hzero⟩
  · refine .inr ⟨hzero, ?_⟩
    simp only [if_neg hzero]
    split
    · obtain ⟨guards, guardCount, scheduled, hscheduled, h⟩ :=
        schedule_inv p.user (s.withUse now p)
      exact ⟨guards, guardCount, scheduled, hscheduled, Prod.ext rfl h⟩
    · exact ⟨s.guards, s.guardCount, none, by simp, by simp [withUse]⟩

theorem becomes_withUse {u : String} {p : Pattern} (now : Time) (hp : p ∈ s.ofUser u)
    (hs : Sound (s.ofUser user)) :
    Becomes (if u = user then 1 else 0) (s.ofUser user) ((s.withUse now p).ofUser user) := by
  have huser := user_of_mem_ofUser u s hp
  have hof : (s.withUse now p).ofUser user = _ := ofUser_withUse now p s
  rw [huser] at hof
  by_cases hu : u = user
  · subst hu
    rw [if_pos rfl] at hof ⊢
    have hbefore := Keyed.perm_cons_remove Pattern.id hs.ids hp
    have hafter := Keyed.update_perm Pattern.id hs.ids (fun _ => p.recordUsage s.policy now) hp
    rw [hof]
    exact .of_perms (.use now (hs.perm hbefore)) hs hbefore hafter.symm
  · rw [if_neg hu] at hof ⊢
    rw [hof]
    exact .refl hs

/-- How a match of a user's patterns ends: nothing happens, or a use is counted and answered with a
pattern, or it is counted and there is no cadence to keep to. -/
theorem apply_inv (now : Time) (u query : String) (e : Option Embedding) (s : PatternStore) :
    (((s.apply now u query e).1 = .ok none ∨ (s.apply now u query e).1 = .error .tooLarge) ∧
      (s.apply now u query e).2 = s) ∨
    ∃ p ∈ s.ofUser u, (s.apply now u query e).2 = (s.recordMatch now p).2 ∧
      (s.apply now u query e).1 = (s.recordMatch now p).1.map some := by
  unfold apply
  rcases best?_inv query e (s.ofUser u) with ⟨p, hp, h⟩ | h | h <;> rw [h]
  · exact .inr ⟨p, hp, rfl, rfl⟩
  · exact .inl ⟨.inl rfl, rfl⟩
  · exact .inl ⟨.inr rfl, rfl⟩

/-- What a match ended with, and the user who asked. -/
abbrev Answer := String × Except Fault (Option Pattern)

/-- How many of the user's matches returned a pattern. -/
def returned (user : String) (answers : List Answer) : Nat :=
  answers.countP fun a => a.1 == user && match a.2 with
    | .ok (some _) => true
    | _ => false

/-- How many of the user's matches broke off after a use had been counted. -/
def brokenOff (user : String) (answers : List Answer) : Nat :=
  answers.countP fun a => a.1 == user && match a.2 with
    | .error .zeroCadence => true
    | _ => false

/-- From one store to the next, nothing of a user is lost: the patterns given to the store and those
that were there before become those that are there afterwards, with one more use for every answer.
Only a cadence of zero makes a match break off. -/
structure Conserves (user : String) (given : List Pattern) (answers : List Answer)
    (s s' : PatternStore) : Prop where
  pace : s'.consolidationEvery = s.consolidationEvery
  becomes : Sound (given ++ s.ofUser user) →
    Becomes (returned user answers + brokenOff user answers) (given ++ s.ofUser user)
      (s'.ofUser user)
  unbroken : s.consolidationEvery ≠ 0 → brokenOff user answers = 0

theorem Keeps.conserves (h : Keeps user s s') : Conserves user [] [] s s' where
  pace := h.pace
  becomes := h.becomes
  unbroken _ := rfl

theorem returned_eq_zero {u : String} {r : Except Fault (Option Pattern)}
    (h : ∀ p, r ≠ .ok (some p)) : returned user [(u, r)] = 0 := by
  rcases r with why | _ | p
  · simp [returned]
  · simp [returned]
  · exact absurd rfl (h p)

theorem brokenOff_eq_zero {u : String} {r : Except Fault (Option Pattern)}
    (h : r ≠ .error .zeroCadence) : brokenOff user [(u, r)] = 0 := by
  rcases r with why | p
  · cases why <;> first | exact absurd rfl h | simp [brokenOff]
  · simp [brokenOff]

theorem conserves_apply (now : Time) (u query : String) (e : Option Embedding) (s : PatternStore) :
    Conserves user [] [(u, (s.apply now u query e).1)] s (s.apply now u query e).2 := by
  rcases apply_inv now u query e s with ⟨hanswer, hsame⟩ | ⟨p, hp, hsame, hanswer⟩
  · have hnone : ∀ p, (s.apply now u query e).1 ≠ .ok (some p) := by
      rcases hanswer with h | h <;> simp [h]
    have hwhy : (s.apply now u query e).1 ≠ .error .zeroCadence := by
      rcases hanswer with h | h <;> simp [h]
    rw [hsame]
    refine ⟨rfl, fun hs => ?_, fun _ => brokenOff_eq_zero hwhy⟩
    rw [returned_eq_zero hnone, brokenOff_eq_zero hwhy]
    exact .refl hs
  · rw [hsame, hanswer]
    rcases recordMatch_inv now p s with
      ⟨hzero, h⟩ | ⟨hpace, guards, guardCount, scheduled, -, h⟩ <;> rw [h]
    · refine ⟨rfl, fun hs => ?_, fun hne => absurd hzero hne⟩
      have hcount : ((returned user [(u, .error .zeroCadence)] : Int) +
          brokenOff user [(u, .error .zeroCadence)]) = if u = user then 1 else 0 := by
        by_cases hu : u = user <;> simp [returned, brokenOff, hu]
      exact hcount ▸ becomes_withUse now hp hs
    · have hkeeps : Keeps user (s.withUse now p) { s.withUse now p with
          guards, guardCount, background := s.background ++ scheduled.toList } := .of_eq rfl rfl
      refine ⟨hkeeps.pace, fun hs => ?_, fun _ => brokenOff_eq_zero (by simp [Except.map])⟩
      have huse := becomes_withUse now hp hs
      have hcount : ((returned user [(u, .ok (some (p.recordUsage s.policy now)))] : Int) +
          brokenOff user [(u, .ok (some (p.recordUsage s.policy now)))]) =
            (if u = user then 1 else 0) + 0 := by
        by_cases hu : u = user <;> simp [returned, brokenOff, hu]
      exact hcount ▸ huse.trans (hkeeps.becomes huse.sound)

/-- The embedding of a query that a user's patterns are compared with, if any of them needs one. -/
def queryEmbedding (u query : String) (s : PatternStore) (w : World) : Option Embedding :=
  if s.hasSemanticTriggers u then (w.embed u "patterns.match" query).1 else none

/-- Looking up a query is a match with its embedding. -/
theorem lookUp_inv (u query : String) (s : PatternStore) (w : World) :
    ∃ w', w'.now = w.now ∧ s.lookUp u query w =
      ((s.apply w.now u query (s.queryEmbedding u query w)).1,
        (s.apply w.now u query (s.queryEmbedding u query w)).2, w') := by
  unfold lookUp queryEmbedding
  split
  · next hempty =>
    have hof : s.ofUser u = [] := by simpa using hempty
    refine ⟨w, rfl, ?_⟩
    have hbest (e : Option Embedding) : best? query e [] = .ok none := by
      rw [best?, descending, List.mergeSort_nil]
      rfl
    simp only [apply, hof, hbest]
  · cases s.hasSemanticTriggers u with
    | false => exact ⟨w, rfl, rfl⟩
    | true =>
      have hnow : (w.embed u "patterns.match" query).2.now = w.now := World.now_embed ..
      exact ⟨(w.embed u "patterns.match" query).2, hnow, hnow ▸ rfl⟩

/-- A match is refused, or it goes on with some embedding of the query. -/
theorem matchQuery_inv (u query : String) (s : PatternStore) (w : World) :
    (∃ why, s.matchQuery u query w = (.error (.rejected why), s, w)) ∨
      ∃ e w', w'.now = w.now ∧ s.matchQuery u query w =
        ((s.apply w'.now u query e).1, (s.apply w'.now u query e).2, w') := by
  unfold matchQuery
  split
  · exact .inl ⟨_, rfl⟩
  · obtain ⟨w', hnow, h⟩ := lookUp_inv u query s w
    exact .inr ⟨_, w', hnow, hnow ▸ h⟩

theorem conserves_matchQuery (u query : String) (s : PatternStore) (w : World) :
    Conserves user [] [(u, (s.matchQuery u query w).1)] s (s.matchQuery u query w).2.1 := by
  rcases matchQuery_inv u query s w with ⟨why, h⟩ | ⟨e, w', -, h⟩ <;> rw [h]
  · refine ⟨rfl, fun hs => ?_, fun _ => brokenOff_eq_zero (by simp)⟩
    rw [returned_eq_zero (by simp), brokenOff_eq_zero (by simp)]
    exact .refl hs
  · exact conserves_apply w'.now u query e s

/-! ### Runs -/

/-- What may happen to a store. The world of an event is whatever it is at that time. -/
inductive Event where
  /-- A pattern is stored, once its triggers have been embedded. -/
  | store (p : Pattern) (mergeAlike : Bool) (w : World)
  /-- A query is matched at once. -/
  | matchQuery (user query : String) (w : World)
  /-- A match goes on after its query has been embedded, or after that has failed. -/
  | answer (user query : String) (embedding : Option Embedding) (now : Time)
  | list (user : String)
  /-- A user's patterns are consolidated at once. -/
  | consolidate (user : String)
  /-- Consolidations in the background are waited for, for a time. -/
  | wait (d : Duration) (w : World)
  /-- All consolidations in the background are waited for. -/
  | waitAll (w : World)
  | deleteUser (user : String)

namespace Event

/-- The store after an event. -/
def after (s : PatternStore) : Event → PatternStore
  | store p mergeAlike w => ((s.store p mergeAlike w).toOption.map fun r => r.2.1).getD s
  | matchQuery user query w => (s.matchQuery user query w).2.1
  | answer user query embedding now => (s.apply now user query embedding).2
  | list _ => s
  | consolidate user => (s.consolidate user).2
  | wait d w => (s.wait d w).1
  | waitAll w => (s.waitAll w).1
  | deleteUser user => (s.deleteUser user).2

/-- What a match ends with. -/
def answers (s : PatternStore) : Event → List Answer
  | matchQuery user query w => [(user, (s.matchQuery user query w).1)]
  | answer user query embedding now => [(user, (s.apply now user query embedding).1)]
  | _ => []

/-- The pattern of the user that is given to the store, if it is accepted. -/
def given (user : String) : Event → List Pattern
  | store p _ _ => if (check p).isOk ∧ p.user = user then [p] else []
  | _ => []

/-- The event puts a pattern of the user into the store that is not merged with another one. -/
def Adds (user : String) (s : PatternStore) : Event → Prop
  | store p mergeAlike _ =>
    (check p).isOk ∧ p.user = user ∧ (mergeAlike = true → s.counterpart? p = none)
  | _ => False

end Event

/-- The store after a list of events. -/
def run (s : PatternStore) (es : List Event) : PatternStore := es.foldl Event.after s

/-- What the matches of a run end with. -/
def runAnswers (s : PatternStore) : List Event → List Answer
  | [] => []
  | e :: es => e.answers s ++ runAnswers (e.after s) es

/-- Embedding the triggers of a pattern leaves its uses and the keys of its triggers alone. -/
theorem becomes_embedded {p : Pattern} {ps : List Pattern} (w : World) (hs : Sound (p :: ps)) :
    Becomes 0 (p :: ps) (embedded p w :: ps) where
  sound := by
    refine ⟨hs.ids, fun q hq => ?_⟩
    rcases List.mem_cons.1 hq with rfl | hq
    · exact hs.usage p List.mem_cons_self
    · exact hs.usage q (List.mem_cons_of_mem p hq)
  ids := List.Subset.refl _
  uses := by simp [embedded]
  keys k := by
    rw [mem_keys_cons, mem_keys_cons, triggerKeys, embedded, map_key_embedTriggers]
    rfl

/-- A pattern that is accepted is put into the store with its triggers embedded. -/
theorem after_store (p : Pattern) (mergeAlike : Bool) (w : World) (s : PatternStore) :
    (Event.store p mergeAlike w).after s =
      if (check p).isOk then (s.insert mergeAlike (embedded p w)).2 else s := by
  show ((s.store p mergeAlike w).toOption.map fun r => r.2.1).getD s = _
  unfold store
  cases check p <;> rfl

theorem conserves_store {p : Pattern} {mergeAlike : Bool}
    (hroom : (Event.store p mergeAlike w).Adds user s → (s.ofUser user).length < s.capacity) :
    Conserves user ((Event.store p mergeAlike w).given user) [] s
      ((Event.store p mergeAlike w).after s) := by
  rw [after_store, Event.given]
  by_cases hok : (check p).isOk
  · rw [if_pos hok]
    by_cases hp : p.user = user
    · rw [if_pos ⟨hok, hp⟩]
      refine ⟨insert_pace _ _ s, fun hs => ?_, fun _ => rfl⟩
      have hembedded := becomes_embedded w hs
      refine hembedded.trans
        (becomes_insert (p := embedded p w) hp mergeAlike hembedded.sound fun hnone => ?_)
      refine hroom ⟨hok, hp, fun hm => ?_⟩
      rw [← counterpart?_embedded p (w := w)]
      exact hnone hm
    · rw [if_neg fun h => hp h.2]
      exact (keeps_insert (p := embedded p w) hp mergeAlike).conserves
  · rw [if_neg hok, if_neg fun h => hok h.1]
    exact (Keeps.refl user s).conserves

theorem ofUser_deleteUser_of_ne {u : String} (hu : u ≠ user) :
    (s.deleteUser u).2.ofUser user = s.ofUser user := by
  unfold ofUser deleteUser
  rw [List.filter_filter]
  refine List.filter_congr fun p _ => ?_
  by_cases hp : p.user = user
  · simp [hp, hu.symm]
  · simp [hp]

theorem conserves_after {e : Event} (hroom : e.Adds user s → (s.ofUser user).length < s.capacity)
    (hkept : e ≠ .deleteUser user) :
    Conserves user (e.given user) (e.answers s) s (e.after s) := by
  cases e with
  | store p mergeAlike w => exact conserves_store hroom
  | matchQuery u query w => exact conserves_matchQuery u query s w
  | answer u query embedding now => exact conserves_apply now u query embedding s
  | list u => exact (Keeps.refl user s).conserves
  | consolidate u => exact (keeps_consolidate u).conserves
  | wait d w => exact ((abides_keeps user).wait s w d).conserves
  | waitAll w => exact ((abides_keeps user).waitAll s w).conserves
  | deleteUser u =>
    have hu : u ≠ user := by
      rintro rfl
      exact hkept rfl
    exact Keeps.conserves (.of_eq rfl (ofUser_deleteUser_of_ne hu))

theorem Conserves.trans {s'' : PatternStore} {ps qs : List Pattern} {as bs : List Answer}
    (h : Conserves user ps as s s') (h' : Conserves user qs bs s' s'') :
    Conserves user (ps ++ qs) (as ++ bs) s s'' where
  pace := h'.pace.trans h.pace
  becomes hs := by
    have hperm : ((ps ++ qs) ++ s.ofUser user).Perm (qs ++ (ps ++ s.ofUser user)) := by
      rw [← List.append_assoc]
      exact List.perm_append_comm.append_right _
    have hlater := hs.perm hperm
    have hfirst := (h.becomes hlater.of_append).append hlater
    have hboth := (Becomes.of_perm hperm hs).trans (hfirst.trans (h'.becomes hfirst.sound))
    convert hboth using 1
    simp only [returned, brokenOff, List.countP_append]
    push_cast
    ring
  unbroken hne := by
    have hbefore := h.unbroken hne
    have hafter := h'.unbroken (h.pace.symm ▸ hne)
    simp only [brokenOff, List.countP_append] at hbefore hafter ⊢
    omega

theorem conserves_run {es : List Event}
    (hroom : ∀ before e after, es = before ++ e :: after → e.Adds user (s.run before) →
      ((s.run before).ofUser user).length < (s.run before).capacity)
    (hkept : .deleteUser user ∉ es) :
    Conserves user (es.flatMap (Event.given user)) (s.runAnswers es) s (s.run es) := by
  induction es generalizing s with
  | nil => exact (Keeps.refl user s).conserves
  | cons e es ih =>
    obtain ⟨hfirst, hlater⟩ := not_or.1 (List.mem_cons.not.1 hkept)
    have hone := conserves_after (hroom [] e es rfl) (Ne.symm hfirst)
    exact hone.trans (ih (fun before e' after h => hroom (e :: before) e' after (h ▸ rfl)) hlater)

/-- In a run from an empty store in which no pattern of the user has to be given up and the user is
not deleted, the uses of the user's patterns are those that they came with and one for every match
that returned a pattern, and their triggers are those that they came with. Only where the cadence is
zero can a match break off after a use has been counted, and this use is kept too. -/
theorem run_conserves {user : String} {s : PatternStore} {es : List Event}
    (hempty : s.patterns = [])
    (hids : ((es.flatMap (Event.given user)).map Pattern.id).Nodup)
    (husage : ∀ p ∈ es.flatMap (Event.given user), 0 ≤ p.usage)
    (hroom : ∀ before e after, es = before ++ e :: after → e.Adds user (s.run before) →
      ((s.run before).ofUser user).length < (s.run before).capacity)
    (hkept : .deleteUser user ∉ es) :
    uses ((s.run es).ofUser user) = uses (es.flatMap (Event.given user)) +
        returned user (s.runAnswers es) + brokenOff user (s.runAnswers es) ∧
      (s.consolidationEvery ≠ 0 → brokenOff user (s.runAnswers es) = 0) ∧
      ∀ k, k ∈ keys ((s.run es).ofUser user) ↔ k ∈ keys (es.flatMap (Event.given user)) := by
  have hrun := conserves_run hroom hkept
  have hof : s.ofUser user = [] := by rw [ofUser, hempty, List.filter_nil]
  have hbecomes := hrun.becomes
  rw [hof, List.append_nil] at hbecomes
  obtain ⟨-, -, huses, hkeys⟩ := hbecomes ⟨hids, husage⟩
  exact ⟨by rw [huses, Int.add_assoc], hrun.unbroken, hkeys⟩

/-- Two patterns with the same keyword are stored and so merged, and the one that is left is matched
and consolidated. -/
def greetingEvents : List Event := [
  .store { greeting "a" "morning" "hello" with usage := 2 } true {},
  .store { greeting "c" "noon" "Hello" with usage := 3 } true {},
  .matchQuery "u" "hello there" {},
  .consolidate "u"]

theorem run_greetingEvents :
    ((run {} greetingEvents).ofUser "u").length = 1 ∧
      returned "u" (runAnswers {} greetingEvents) = 1 ∧
      uses ((run {} greetingEvents).ofUser "u") = 2 + 3 + 1 ∧
      ∀ k, k ∈ keys ((run {} greetingEvents).ofUser "u") ↔ k = "hello" := by
  have hroom : ∀ before e after, greetingEvents = before ++ e :: after →
      e.Adds "u" (run {} before) →
        ((run {} before).ofUser "u").length < (run {} before).capacity := by
    have hinits : ∀ before ∈ greetingEvents.inits,
        ((run {} before).ofUser "u").length < (run {} before).capacity := by decide +kernel
    intro before e after h _
    exact hinits before ((List.mem_inits _ _).2 ⟨e :: after, h.symm⟩)
  have hreturned : returned "u" (runAnswers {} greetingEvents) = 1 := by decide +kernel
  have hkept : .deleteUser "u" ∉ greetingEvents := by
    simp only [greetingEvents, List.mem_cons, List.not_mem_nil, reduceCtorEq, or_self,
      not_false_eq_true]
  obtain ⟨huses, hbroken, hkeys⟩ :=
    run_conserves rfl (by decide +kernel) (by decide +kernel) hroom hkept
  refine ⟨by decide +kernel, hreturned, ?_, fun k => (hkeys k).trans ?_⟩
  · rw [huses, hreturned, hbroken (by decide)]
    decide +kernel
  · have hgiven : keys (greetingEvents.flatMap (Event.given "u")) = ["hello", "hello"] := by
      decide +kernel
    rw [hgiven]
    simp

end TieredMemory.PatternStore
