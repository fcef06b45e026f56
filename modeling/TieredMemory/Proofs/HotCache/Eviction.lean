import Mathlib.Data.List.Infix
import Mathlib.Data.List.Sigma
import TieredMemory.Proofs.HotCache.Contents
import TieredMemory.Proofs.Number.Order

/-!
# A bucket holds the greatest turns

A bucket that overflows gives up its least turn, one overflow at a time. The result is the same as a
choice made once among all turns that were ever added to the bucket: the `k` greatest ones by
importance, then time, then order of insertion (`mostImportant`).
-/

namespace TieredMemory.HotCache

/-! ### The choice made once -/

/-- Of two turns with their positions: more important, or as important and later, or both alike and
inserted later. -/
def outranks (a b : Turn × Nat) : Bool :=
  b.1.importance < a.1.importance ||
    (b.1.importance == a.1.importance &&
      (b.1.createdAt < a.1.createdAt || (b.1.createdAt == a.1.createdAt && b.2 < a.2)))

/-- Of turns in the order of insertion, those that fewer than `k` others outrank, in that order. -/
def mostImportant (k : Nat) (ts : List Turn) : List Turn :=
  (ts.zipIdx.filter fun x => ts.zipIdx.countP (outranks · x) < k).map Prod.fst

/-- Importance and time. -/
def weight (t : Turn) : Number.Rank ×ₗ Time := toLex (Number.rank t.importance, t.createdAt)

/-- Importance, time and position. -/
def standing (x : Turn × Nat) : (Number.Rank ×ₗ Time) ×ₗ Nat := toLex (weight x.1, x.2)

theorem isLesser_iff {a b : Turn} (ha : a.importance.isNaN = false)
    (hb : b.importance.isNaN = false) : isLesser a b = true ↔ weight a < weight b := by
  unfold isLesser weight
  rw [Number.floatThen_iff ha hb, Prod.Lex.toLex_lt_toLex, decide_eq_true_iff]

theorem outranks_iff {a b : Turn × Nat} (ha : a.1.importance.isNaN = false)
    (hb : b.1.importance.isNaN = false) : outranks a b = true ↔ standing b < standing a := by
  unfold outranks standing weight
  simp only [Bool.or_eq_true, Bool.and_eq_true, decide_eq_true_iff, beq_iff_eq,
    Number.lt_iff_rank_lt hb ha, Number.beq_iff_rank_eq hb ha, Prod.Lex.toLex_lt_toLex,
    EmbeddingLike.apply_eq_iff_eq, Prod.mk.injEq]
  tauto

theorem eq_mostImportant {k : Nat} {ts : List Turn} {xs : List (Turn × Nat)}
    (h : Greatest standing k ts.zipIdx xs) (hnum : ∀ t ∈ ts, t.importance.isNaN = false) :
    xs.map Prod.fst = mostImportant k ts := by
  have hn : ts.zipIdx.Nodup := (List.nodup_zipIdx_map_snd ts).of_map
  have hnum' : ∀ x ∈ ts.zipIdx, x.1.importance.isNaN = false :=
    fun x hx => hnum x.1 (List.fst_mem_of_mem_zipIdx hx)
  unfold mostImportant
  rw [h.eq_filter hn]
  congr 1
  refine List.filter_congr fun x hx => ?_
  congr 2
  refine List.countP_congr fun y hy => ?_
  rw [outranks_iff (hnum' y hy) (hnum' x hx), decide_eq_true_iff]

/-! ### One overflow -/

/-- The least turn by position is the one that a bucket gives up. -/
theorem leastFrom_map_fst {x : Turn × Nat} {xs : List (Turn × Nat)}
    (hpos : (x :: xs).Pairwise fun a b => a.2 < b.2)
    (hnum : ∀ y ∈ x :: xs, y.1.importance.isNaN = false) :
    leastFrom isLesser x.1 (xs.map Prod.fst) =
      (leastFrom (fun a b => decide (standing a < standing b)) x xs).1 := by
  induction xs generalizing x with
  | nil => rfl
  | cons y xs ih =>
    simp only [List.mem_cons, forall_eq_or_imp] at hnum
    obtain ⟨hx, hy, hxs⟩ := hnum
    simp only [List.pairwise_cons, List.mem_cons, forall_eq_or_imp] at hpos
    obtain ⟨⟨hxy, hxxs⟩, hyxs, hpos⟩ := hpos
    -- the later position of `y` does not make it less than `x`
    have hlt : isLesser y.1 x.1 = true ↔ standing y < standing x := by
      rw [isLesser_iff hy hx, standing, standing, Prod.Lex.toLex_lt_toLex]
      simp only
      constructor
      · exact .inl
      · rintro (h | ⟨-, h⟩)
        · exact h
        · omega
    rw [List.map_cons, leastFrom, leastFrom]
    by_cases h : standing y < standing x
    · rw [if_pos (hlt.2 h), if_pos (decide_eq_true h)]
      exact ih (List.pairwise_cons.2 ⟨hyxs, hpos⟩) (List.forall_mem_cons.2 ⟨hy, hxs⟩)
    · rw [if_neg (mt hlt.1 h), if_neg (by simpa using h)]
      exact ih (List.pairwise_cons.2 ⟨hxxs, hpos⟩) (List.forall_mem_cons.2 ⟨hx, hxs⟩)

theorem nodup_standing {xs : List (Turn × Nat)} (hpos : xs.Pairwise fun a b => a.2 < b.2) :
    (xs.map standing).Nodup := by
  refine List.pairwise_map.2 (hpos.imp fun hlt e => ?_)
  exact absurd (congrArg (fun s => (ofLex s).2) e) (Nat.ne_of_lt hlt)

theorem eraseP_id {l r : List Turn} {m : Turn} (hids : ((l ++ m :: r).map Turn.id).Nodup) :
    (l ++ m :: r).eraseP (fun t => t.id == m.id) = l ++ r := by
  rw [List.map_append, List.map_cons, List.nodup_append'] at hids
  rw [List.eraseP_append_right, List.eraseP_cons_of_pos (by simp)]
  intro t ht
  simp only [beq_iff_eq]
  intro e
  exact hids.2.2 (List.mem_map_of_mem ht) (by simp [e])

/-- Giving up the least turn takes the one of least standing out of the list. -/
theorem withoutLeast_map_fst {xs : List (Turn × Nat)} (hne : xs ≠ [])
    (hpos : xs.Pairwise fun a b => a.2 < b.2) (hnum : ∀ y ∈ xs, y.1.importance.isNaN = false)
    (hids : ((xs.map Prod.fst).map Turn.id).Nodup) :
    ∃ l m r, xs = l ++ m :: r ∧ (∀ y ∈ l ++ r, standing m < standing y) ∧
      withoutLeast (xs.map Prod.fst) = (l ++ r).map Prod.fst := by
  obtain ⟨x, r, rfl⟩ := List.exists_cons_of_ne_nil hne
  obtain ⟨l, l', hsplit, hleast⟩ := exists_split_leastFrom (nodup_standing hpos)
  refine ⟨l, _, l', hsplit, hleast, ?_⟩
  rw [List.map_cons, withoutLeast, leastFrom_map_fst hpos hnum, ← List.map_cons]
  generalize leastFrom (fun a b => decide (standing a < standing b)) x r = m at hsplit ⊢
  rw [hsplit, List.map_append, List.map_cons] at hids ⊢
  rw [eraseP_id hids, List.map_append]

theorem pairwise_snd_zipIdx (ts : List Turn) : ts.zipIdx.Pairwise fun a b => a.2 < b.2 := by
  rw [← List.pairwise_map (f := Prod.snd) (R := (· < ·)), List.zipIdx_map_snd]
  exact List.pairwise_lt_range'

theorem map_fst_sublist {ts : List Turn} {xs : List (Turn × Nat)} (h : xs.Sublist ts.zipIdx) :
    (xs.map Prod.fst).Sublist ts := by
  have := h.map Prod.fst
  rwa [List.zipIdx_map_fst] at this

theorem withTurn_of_not_mem {t : Turn} {ts : List Turn} (h : t.id ∉ ts.map Turn.id) :
    withTurn t ts = ts ++ [t] := by
  unfold withTurn
  rw [List.filter_eq_self.2]
  intro x hx
  refine decide_eq_true fun e => h ?_
  rw [← e]
  exact List.mem_map_of_mem hx

theorem evict_of_length_le {k : Nat} {ts : List Turn} (h : ts.length ≤ k) : evict k ts = ts := by
  unfold evict
  rw [Nat.sub_eq_zero_of_le h]
  rfl

theorem evict_of_length_eq {k : Nat} {ts : List Turn} (h : ts.length = k + 1) :
    evict k ts = withoutLeast ts := by
  unfold evict
  rw [h, Nat.add_sub_cancel_left]
  rfl

/-- One more turn: what the bucket keeps is what would have been chosen. -/
theorem evict_withTurn {k : Nat} {ts : List Turn} {xs : List (Turn × Nat)} {t : Turn}
    (h : Greatest standing k ts.zipIdx xs)
    (hnum : ∀ x ∈ ts ++ [t], x.importance.isNaN = false) (hids : ((ts ++ [t]).map Turn.id).Nodup) :
    ∃ xs', Greatest standing k (ts ++ [t]).zipIdx xs' ∧
      evict k (withTurn t (xs.map Prod.fst)) = xs'.map Prod.fst := by
  have hzip : (ts ++ [t]).zipIdx = ts.zipIdx ++ [(t, ts.length)] := by
    rw [List.zipIdx_append]
    simp
  have hsub : (xs ++ [(t, ts.length)]).Sublist (ts ++ [t]).zipIdx := by
    rw [hzip]
    exact h.sublist.append_right _
  have hfst := map_fst_sublist hsub
  have hids' := (hfst.map Turn.id).nodup hids
  have hnew : withTurn t (xs.map Prod.fst) = (xs ++ [(t, ts.length)]).map Prod.fst := by
    rw [withTurn_of_not_mem, List.map_append, List.map_singleton]
    rw [List.map_append, List.map_append, List.nodup_append'] at hids'
    exact fun hmem => hids'.2.2 hmem (by simp)
  rw [hzip, hnew]
  by_cases hroom : xs.length < k
  · exact ⟨_, h.snoc hroom _, evict_of_length_le (by simpa using hroom)⟩
  · have hfull : xs.length = k := by
      have := h.length
      omega
    obtain ⟨l, m, r, hsplit, hmin, hwithout⟩ := withoutLeast_map_fst (by simp)
      ((pairwise_snd_zipIdx _).sublist hsub)
      (fun y hy => hnum y.1 (hfst.subset (List.mem_map_of_mem hy))) hids'
    refine ⟨l ++ r, h.snoc_drop hfull hsplit hmin, ?_⟩
    rw [evict_of_length_eq (by simp [hfull]), hwithout]

/-! ### Any number of additions -/

/-- The turn that an event adds to the bucket of a place. -/
def Event.added? (p : Place) (e : Event) : Option Turn :=
  match e.action with
  | .add user conversation t => if validPlace? user conversation = some p then some t else none
  | _ => none

/-- The turns that are added to the bucket of a place, in the order of insertion. -/
def added (p : Place) (es : List Event) : List Turn := es.filterMap (Event.added? p)

/-- The event reads, sweeps, adds to the place, or adds elsewhere a turn with another identifier. -/
def Event.LeavesAlone (p : Place) (ids : List String) (e : Event) : Prop :=
  match e.action with
  | .add user conversation t => (validPlace? user conversation).all (· == p) ∨ t.id ∉ ids
  | .recent .. | .sweep => True
  | .clear .. | .remove _ | .deleteUser _ => False

instance (p : Place) (ids : List String) : (e : Event) → Decidable (e.LeavesAlone p ids)
  | ⟨_, .add user conversation t⟩ =>
    inferInstanceAs (Decidable ((validPlace? user conversation).all (· == p) = true ∨ t.id ∉ ids))
  | ⟨_, .recent ..⟩ | ⟨_, .sweep⟩ => inferInstanceAs (Decidable True)
  | ⟨_, .clear ..⟩ | ⟨_, .remove _⟩ | ⟨_, .deleteUser _⟩ => inferInstanceAs (Decidable False)

/-- The bucket of a place is there after every part of the run that adds to it: no sweep drops it. -/
def Kept (c : HotCache) (p : Place) (es : List Event) : Prop :=
  ∀ es', es' <+: es → added p es' ≠ [] → (((c.run es').bucket? p).isSome)

instance (c : HotCache) (p : Place) (es : List Event) : Decidable (c.Kept p es) :=
  decidable_of_iff (∀ es' ∈ es.inits, added p es' ≠ [] → ((c.run es').bucket? p).isSome) <| by
    simp only [List.mem_inits, Kept]

theorem added_concat (p : Place) (es : List Event) (e : Event) :
    added p (es ++ [e]) = added p es ++ (e.added? p).toList := by
  unfold added
  rw [List.filterMap_append]
  cases h : e.added? p <;> simp [h]

/-- The turns of a bucket after an event that adds a turn or none. -/
def grown (k : Nat) (ts : List Turn) : Option Turn → List Turn
  | some t => evict k (withTurn t ts)
  | none => ts

/-- An event that leaves a place alone adds to it at most, unless it drops the bucket. -/
theorem Consistent.turnsAt_after {c : HotCache} {p : Place} {e : Event} {ids : List String}
    (h : Consistent c) (halone : e.LeavesAlone p ids)
    (hids : ∀ t ∈ c.turnsAt p, t.id ∈ ids) :
    (c.after e).turnsAt p = grown c.capacity (c.turnsAt p) (e.added? p) ∨
      (c.after e).bucket? p = none := by
  obtain ⟨clock, action⟩ := e
  cases action with
  | add user conversation t =>
    simp only [Event.added?, Event.LeavesAlone, after_add] at halone ⊢
    cases hq : validPlace? user conversation with
    | none => exact .inl rfl
    | some q =>
      simp only [hq, Option.all_some, beq_iff_eq] at halone
      simp only [Option.some.injEq, Option.map_some, Option.getD_some]
      by_cases hqp : q = p
      · subst hqp
        rw [if_pos rfl, grown, ← h.turnsAt_write clock.touch q t]
        exact h.turnsAt_add clock q q t
      · have hsame : (c.write clock.touch q t).turnsAt p = c.turnsAt p := by
          rw [h.turnsAt_write_of_ne clock.touch t (Ne.symm hqp)]
          refine List.filter_eq_self.2 fun x hx => decide_eq_true fun e => ?_
          exact halone.resolve_left hqp (e ▸ hids x hx)
        rw [if_neg hqp, grown, ← hsame]
        exact h.turnsAt_add clock p q t
  | recent user conversation limit =>
    left
    rcases after_recent c clock user conversation limit with he | ⟨q, n, he⟩
    · rw [he]
      rfl
    · rw [he]
      exact turnsAt_recent clock.touch q n c p
  | sweep => exact h.turnsAt_sweep clock.sweep p
  | clear => exact halone.elim
  | remove => exact halone.elim
  | deleteUser => exact halone.elim

theorem exists_greatest_run {c : HotCache} (h : Consistent c) (hnew : c.buckets = []) {p : Place}
    {ids : List String} {es : List Event} (hids : ((added p es).map Turn.id).Nodup)
    (hnum : ∀ t ∈ added p es, t.importance.isNaN = false) (hown : ∀ t ∈ added p es, t.id ∈ ids)
    (halone : ∀ e ∈ es, e.LeavesAlone p ids) (hkept : Kept c p es) :
    ∃ xs, Greatest standing c.capacity (added p es).zipIdx xs ∧
      (c.run es).turnsAt p = xs.map Prod.fst := by
  induction es using List.reverseRecOn with
  | nil =>
    refine ⟨[], Greatest.nil _ _, turnsAt_of_bucket?_eq_none ?_⟩
    simp [bucket?, hnew, Keyed.find?]
  | append_singleton es e ih =>
    have hcap : (c.run es).capacity = c.capacity := congrArg Prod.fst (settings_run c es)
    have hfull := hkept (es ++ [e]) List.prefix_rfl
    rw [added_concat] at hids hnum hown hfull ⊢
    obtain ⟨xs, hxs, hturns⟩ := ih
      (((List.sublist_append_left ..).map Turn.id).nodup hids)
      (fun t ht => hnum t (List.mem_append_left _ ht))
      (fun t ht => hown t (List.mem_append_left _ ht))
      (fun a ha => halone a (List.mem_append_left _ ha))
      (fun es' hpre => hkept es' (hpre.trans (List.prefix_append ..)))
    have hstep := (h.run es).turnsAt_after (halone e (by simp)) fun t ht => by
      rw [hturns] at ht
      exact hown t (List.mem_append_left _ ((map_fst_sublist hxs.sublist).subset ht))
    rw [run_concat] at hfull ⊢
    rcases hstep with hstep | hnone
    · rw [hstep, hcap, hturns]
      cases ht : e.added? p with
      | none => exact ⟨xs, by simpa using hxs, rfl⟩
      | some t =>
        rw [ht] at hnum hids
        exact evict_withTurn hxs hnum hids
    -- the bucket is missing, so nothing has been added yet
    · have hnil : added p es ++ (e.added? p).toList = [] := by
        by_contra hne
        have := hfull hne
        rw [hnone] at this
        cases this
      rw [hnil, turnsAt_of_bucket?_eq_none hnone]
      exact ⟨[], Greatest.nil _ _, rfl⟩

/-- **Giving up the least turn at every overflow is choosing the greatest turns once**: a bucket that
no sweep drops holds the `capacity` greatest of all turns added to it, in the order of insertion, or
all of them if there are fewer. -/
theorem turnsAt_run_eq_mostImportant (capacity : Nat) (ttl : Duration) (maxBuckets : Nat)
    (sweepInterval : Duration) (start : Time) (p : Place) (es : List Event)
    (hids : ((added p es).map Turn.id).Nodup)
    (hnum : ∀ t ∈ added p es, t.importance.isNaN = false)
    (halone : ∀ e ∈ es, e.LeavesAlone p ((added p es).map Turn.id))
    (hkept : Kept (opened capacity ttl maxBuckets sweepInterval start) p es) :
    let kept := ((opened capacity ttl maxBuckets sweepInterval start).run es).turnsAt p
    kept = mostImportant capacity (added p es) ∧
      kept.length = min capacity (added p es).length := by
  intro kept
  obtain ⟨xs, hxs, hturns⟩ := exists_greatest_run (consistent_opened ..) rfl hids hnum
    (fun t ht => List.mem_map_of_mem ht) halone hkept
  refine ⟨hturns.trans (eq_mostImportant hxs hnum), ?_⟩
  have hlength := hxs.length
  rw [List.length_zipIdx] at hlength
  calc kept.length = xs.length := by rw [show kept = xs.map Prod.fst from hturns, List.length_map]
    _ = min capacity (added p es).length := hlength

/-- Three turns for a bucket of two, the first and the last alike, and one for another bucket. -/
def crowded : List Event :=
  [.still 1 (.add "u" "a" (bareTurn "x" 0.5)), .still 2 (.add "u" "b" (bareTurn "o" 0.1)),
    .still 3 (.recent "u" "a" 5), .still 4 (.add "u" "a" (bareTurn "y" 0.9)),
    .still 5 (.add "u" "a" (bareTurn "z" 0.5))]

theorem turnsAt_crowded :
    let c := (opened 2 100 10 50 0).run crowded
    ((added ⟨"u", "a"⟩ crowded).map Turn.id = ["x", "y", "z"] ∧
      (opened 2 100 10 50 0).Kept ⟨"u", "a"⟩ crowded) ∧
      (c.turnsAt ⟨"u", "a"⟩).map Turn.id = ["y", "z"] ∧
      c.turnsAt ⟨"u", "a"⟩ = mostImportant 2 (added ⟨"u", "a"⟩ crowded) ∧
      (c.turnsAt ⟨"u", "a"⟩).length = min 2 3 :=
  ⟨by decide, by decide, turnsAt_run_eq_mostImportant 2 100 10 50 0 ⟨"u", "a"⟩ crowded (by decide)
    (by decide) (by decide) (by decide)⟩

end TieredMemory.HotCache
