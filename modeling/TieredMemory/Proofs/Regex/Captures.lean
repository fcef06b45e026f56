import TieredMemory.Proofs.Regex.Spans
import TieredMemory.Proofs.Text.Blank

/-!
# What a group captures

Where an expression has a group right after a space, what the group holds after a match begins after a
blank of the text, with a character of the first set in the group (`Spans.captured`). For this,
comparison without regard to letter case does not matter: every form of a character is as blank as the
character (`isBlank_of_mem_formsOf`).
-/

namespace TieredMemory.Regex

open TieredMemory.Text

/-! ### Letter case and blanks -/

theorem isBlank_foldChar (c : Char) : isBlank (foldChar c) = isBlank c := by
  unfold foldChar
  split
  · next hc =>
    rw [eq_of_beq hc]
    rfl
  · exact isBlank_lowerChar c

theorem isBlank_of_mem_sameLower {c d : Char} (h : d ∈ sameLower c) : isBlank d = isBlank c := by
  have hnone : ∀ set ∈ sharedCapitals, ∀ d ∈ set, isBlank d = false := by
    simpa [List.all_eq_true] using
      show (sharedCapitals.all fun set => set.all fun d => !isBlank d) = true by rfl
  unfold sameLower at h
  cases hset : sharedCapitals.find? (fun set => set.contains c) with
  | none =>
    rw [hset] at h
    rw [List.mem_singleton.1 h]
  | some set =>
    rw [hset] at h
    have hmem := List.mem_of_find?_eq_some hset
    have hc : c ∈ set := by simpa using List.find?_some hset
    rw [hnone set hmem d h, hnone set hmem c hc]

theorem isBlank_of_mem_withLower {c f : Char} (h : f ∈ withLower c) : isBlank f = isBlank c := by
  unfold withLower at h
  simp only [List.mem_append, List.mem_ite_nil_right, List.mem_singleton, List.mem_filterMap] at h
  rcases h with (⟨-, rfl⟩ | ⟨hi, rfl⟩) | ⟨r, hr, hf⟩
  · rfl
  · rw [eq_of_beq hi]
    rfl
  · split at hf
    · next hholds =>
      cases hf
      obtain ⟨hsource, himage⟩ := isBlank_of_holds hr hholds
      have hfirst := (blankRanges_apart r hr (0x09, 0x0D) List.mem_cons_self).2.1
      have hn : 0 < (Int.ofNat c.toNat - r.2.2.2).toNat := by
        simp only [ShiftRun.holds, Bool.and_eq_true, decide_eq_true_eq] at hholds
        omega
      have hc : (((Int.ofNat c.toNat - r.2.2.2).toNat : Int) + r.2.2.2).toNat = c.toNat := by
        have hof : Int.ofNat c.toNat = (c.toNat : Int) := rfl
        omega
      rw [hc, Char.ofNat_toNat] at himage
      rw [hsource, himage]
    · cases hf

/-- Every form of a character is as blank as the character. -/
theorem isBlank_of_mem_formsOf {c f : Char} (h : f ∈ formsOf c) : isBlank f = isBlank c := by
  obtain ⟨l, hl, hf⟩ := List.mem_flatten.1 h
  obtain ⟨d, hd, rfl⟩ := List.mem_map.1 hl
  rw [isBlank_of_mem_withLower hf, isBlank_of_mem_sameLower hd, isBlank_foldChar]

/-! ### First sets -/

/-- A set of characters as an expression has it. -/
structure CharSet where
  negated : Bool
  items : List SetItem
  options : Options

namespace CharSet

/-- The set holds the character. -/
def holds (s : CharSet) (c : Char) : Bool := setHolds s.negated s.items s.options c

/-- There are only ranges in the set, all of which satisfy `p`, and any other character is outside. -/
def isWithin (p : Char → Char → Bool) (s : CharSet) : Bool :=
  !s.negated && !s.options.ascii && s.items.all fun item =>
    match item with
    | .range lo hi => p lo hi
    | .inClass .. => false

/-- The set holds the space alone. -/
def isSpace : CharSet → Bool := isWithin fun lo hi => lo == ' ' && hi == ' '

/-- The set holds characters between the blanks of ASCII and those beyond it. -/
def isInk : CharSet → Bool := isWithin fun lo hi => 0x20 < lo.toNat && hi.toNat < 0x85

variable {s : CharSet} {c : Char}

/-- A character of such a set has a form in one of the ranges. -/
theorem exists_form {p : Char → Char → Bool} (hs : s.isWithin p = true) (h : s.holds c = true) :
    ∃ f lo hi, isBlank f = isBlank c ∧ p lo hi = true ∧ lo ≤ f ∧ f ≤ hi := by
  simp only [isWithin, Bool.and_eq_true, Bool.not_eq_true', List.all_eq_true] at hs
  obtain ⟨⟨hnegated, hascii⟩, hitems⟩ := hs
  simp only [holds, setHolds, hnegated, hascii, Bool.bne_false, List.any_eq_true] at h
  obtain ⟨item, hmem, h⟩ := h
  have hitem := hitems item hmem
  cases item with
  | inClass cls negated => cases hitem
  | range lo hi =>
    obtain ⟨f, hf, hrange⟩ := List.any_eq_true.1 h
    simp only [SetItem.holds, Bool.and_eq_true, decide_eq_true_eq] at hrange
    refine ⟨f, lo, hi, ?_, hitem, hrange⟩
    split at hf
    · rw [List.mem_singleton.1 hf]
    · exact isBlank_of_mem_formsOf hf

theorem isBlank_of_isSpace (hs : s.isSpace = true) (h : s.holds c = true) : isBlank c = true := by
  obtain ⟨f, lo, hi, hblank, hp, hlo, hhi⟩ := exists_form hs h
  simp only [Bool.and_eq_true, beq_iff_eq] at hp
  obtain ⟨rfl, rfl⟩ := hp
  obtain rfl := Char.le_antisymm hhi hlo
  rw [← hblank]
  rfl

theorem isBlank_of_isInk (hs : s.isInk = true) (h : s.holds c = true) : isBlank c = false := by
  obtain ⟨f, lo, hi, hblank, hp, hlo, hhi⟩ := exists_form hs h
  simp only [Bool.and_eq_true, decide_eq_true_eq] at hp
  have hlo : lo.toNat ≤ f.toNat := hlo
  have hhi : f.toNat ≤ hi.toNat := hhi
  rw [← hblank]
  by_contra hf
  have := toNat_of_isBlank (eq_true_of_ne_false hf)
  omega

end CharSet

mutual

/-- The set that every match of the expression begins with, if there is one. -/
def Expr.firstSet? : Expr → Option CharSet
  | .set negated items options => some ⟨negated, items, options⟩
  | .seq parts => firstSetOf? parts
  | .repetition (_ + 1) _ _ body => body.firstSet?
  | _ => none

/-- The set that every match of the expressions in a row begins with. -/
def firstSetOf? : List Expr → Option CharSet
  | [] => none
  | e :: _ => e.firstSet?

end

variable {text : Array Char} {p q : Place}

/-- A match begins with a character of the first set. -/
theorem Spans.exists_first {e : Expr} {s : CharSet} (h : Spans text e p q)
    (hs : e.firstSet? = some s) :
    ∃ c, text[p.index]? = some c ∧ s.holds c = true ∧ p.index < q.index := by
  induction h with
  | set hc h =>
    cases hs
    exact ⟨_, hc, h, Nat.lt_succ_self _⟩
  | cons first rest ih =>
    obtain ⟨c, hc, hholds, hlt⟩ := ih hs
    exact ⟨c, hc, hholds, hlt.trans_le rest.index_le⟩
  | @round least most greed body p q q' first rest ih =>
    cases least with
    | zero => cases hs
    | succ least =>
      obtain ⟨c, hc, hholds, hlt⟩ := ih hs
      exact ⟨c, hc, hholds, hlt.trans_le rest.index_le⟩
  | _ => cases hs

/-! ### Groups after a space -/

/-- The set of an expression that is one. -/
def Expr.set? : Expr → Option CharSet
  | .set negated items options => some ⟨negated, items, options⟩
  | _ => none

/-- The body of an expression that is the group. -/
def Expr.groupBody? (n : Nat) : Expr → Option Expr
  | .group (some m) body => if m == n then some body else none
  | _ => none

/-- The set that the group begins with, if it stands right after a space and is not opened again. -/
def groupStart? (n : Nat) : List Expr → Option CharSet
  | [] | [_] => none
  | e :: d :: r =>
    match e.set?, d.groupBody? n with
    | some s, some body =>
      if s.isSpace && !opensAny n r then body.firstSet? else groupStart? n (d :: r)
    | _, _ => groupStart? n (d :: r)

/-- What a group holds: the piece from `first` to `last`, which begins after a blank, with a character
of the set. -/
structure Captured (text : Array Char) (q : Place) (n : Nat) (s : CharSet) (first last : Nat) : Prop where
  group : q.group? n = some (first, last)
  lt : first < last
  start : ∃ c, text[first]? = some c ∧ s.holds c = true
  before : ∃ b, 0 < first ∧ text[first - 1]? = some b ∧ isBlank b = true

theorem Expr.eq_of_set? {e : Expr} {s : CharSet} (h : e.set? = some s) :
    e = .set s.negated s.items s.options := by
  cases e <;> cases h
  rfl

theorem Expr.eq_of_groupBody? {e body : Expr} {n : Nat} (h : e.groupBody? n = some body) :
    e = .group (some n) body := by
  unfold groupBody? at h
  split at h
  · split at h
    · next hm =>
      cases h
      rw [eq_of_beq hm]
    · cases h
  · cases h

/-- After a match the group holds what it has matched after the space. -/
theorem Spans.captured {parts : List Expr} {n : Nat} {s : CharSet} (h : Spans text (.seq parts) p q)
    (hs : groupStart? n parts = some s) : ∃ first last, Captured text q n s first last := by
  induction parts generalizing p with
  | nil => cases hs
  | cons e r ih =>
    cases h with
    | cons first rest =>
      cases r with
      | nil => cases hs
      | cons d r =>
        rw [groupStart?] at hs
        split at hs
        · next space body hspace hbody =>
          split at hs
          · next hafter =>
            obtain ⟨hblank, hclosed⟩ := Bool.and_eq_true_iff.1 hafter
            obtain rfl := Expr.eq_of_set? hspace
            obtain rfl := Expr.eq_of_groupBody? hbody
            cases first with
            | @set _ _ _ p b hb hholds =>
              cases rest with
              | cons hgroup hrest =>
                cases hgroup with
                | @capture _ _ _ m hmatch =>
                  obtain ⟨c, hc, hin, hlt⟩ := hmatch.exists_first hs
                  have hkept := hrest.group?_eq (n := n) (by simpa [Expr.opens] using hclosed)
                  rw [Place.group?_withGroup_self] at hkept
                  exact ⟨_, _, hkept, hlt, ⟨c, hc, hin⟩, b, Nat.succ_pos _, hb,
                    CharSet.isBlank_of_isSpace hblank hholds⟩
          · exact ih rest hs
        · exact ih rest hs

/-- The piece that the group holds has a character of the set in it, and a blank before that. -/
theorem Captured.exists_piece {s : String} {n first last : Nat} {set : CharSet}
    (h : Captured s.toList.toArray q n set first last) :
    ∃ piece c b, q.text? s n = some piece ∧ c ∈ piece.toList ∧ set.holds c = true ∧ 0 < first ∧
      s.toList[first - 1]? = some b ∧ isBlank b = true ∧ s.toList[first]? = some c := by
  obtain ⟨hgroup, hlt, ⟨c, hc, hholds⟩, b, hpos, hb, hblank⟩ := h
  rw [List.getElem?_toArray] at hc hb
  refine ⟨slice s first last, c, b, by simp [Place.text?, hgroup], ?_, hholds, hpos, hb, hblank, hc⟩
  have hfirst : ((s.toList.drop first).take (last - first))[0]? = some c := by
    rw [List.getElem?_take_of_lt (by omega), List.getElem?_drop, Nat.add_zero, hc]
  rw [slice, String.toList_ofList]
  exact List.mem_of_getElem? hfirst

end TieredMemory.Regex
