import Mathlib
import TieredMemory.Proofs.Outcome
import TieredMemory.Regex.Reader

/-!
# Repetition counts that are too large

The reader refuses an expression for the size of a count only if the text has the digits of such a count
in it (`read_ne_countTooLarge`); whatever else is wrong with a text, it is refused as malformed. While
it reads, what is left is a rest of the text, and so as free of large numbers as the text itself.
-/

namespace TieredMemory.Regex

open Std.Do

set_option mvcgen.warning false

/-- No digits in a row stand for a number that is too large for a count. -/
def Tame (l : List Char) : Prop :=
  ∀ ds, ds <:+: l → ds.all isDigit = true → numberOf 10 ds < countLimit

theorem Tame.of_suffix {l l' : List Char} (h : Tame l) (hs : l' <:+ l) : Tame l' :=
  fun ds hds => h ds (hds.trans hs.isInfix)

theorem Tame.drop {l : List Char} (h : Tame l) (n : Nat) : Tame (l.drop n) :=
  h.of_suffix (List.drop_suffix n l)

/-- What is left to be read is free of large numbers. -/
abbrev Start : Assertion (.arg Cursor (.except Problem .pure)) := fun s => ⌜Tame s.rest⌝

/-- So is what is left afterwards, and a refusal is not for the size of a count. -/
abbrev Done {α : Type} : PostCond α (.arg Cursor (.except Problem .pure)) :=
  ⟨fun _ s => ⌜Tame s.rest⌝, fun why => ⌜why = .malformed⌝, ()⟩

/-- The outcome of a step: what is left is free of large numbers, or there is a refusal that is not for
the size of a count. -/
def Outcome {α : Type} : Except Problem (α × Cursor) → Prop
  | .ok (_, s) => Tame s.rest
  | .error why => why = .malformed

theorem triple_iff {α : Type} {x : Read α} :
    ⦃Start⦄ x ⦃Done⦄ ↔ ∀ s, Tame s.rest → Outcome (x.run s) := by
  have hwp (s : Cursor) : (wp⟦x⟧ Done s).down ↔ Outcome (x.run s) := by
    change (wp⟦x.run s⟧ _).down ↔ _
    cases x.run s <;> rfl
  exact ⟨fun h s hs => (hwp s).1 (h s hs), fun h s hs => (hwp s).2 (h s hs)⟩

/-! ### Steps -/

@[spec] theorem spec_refuse {α : Type} : ⦃Start⦄ (refuse : Read α) ⦃Done⦄ := by
  intro s _
  rfl

@[spec] theorem spec_peek : ⦃Start⦄ peek ⦃Done⦄ := by
  mvcgen [peek]

@[spec] theorem spec_next : ⦃Start⦄ next ⦃Done⦄ := by
  mvcgen [next]
  all_goals
    next h _ => exact h.drop _

@[spec] theorem spec_accept (c : Char) : ⦃Start⦄ accept c ⦃Done⦄ := by
  mvcgen [accept]

@[spec] theorem spec_takeUpTo (p : Char → Bool) (n : Nat) : ⦃Start⦄ takeUpTo p n ⦃Done⦄ := by
  induction n with
  | zero => mvcgen [takeUpTo]
  | succ n ih => mvcgen [takeUpTo, ih]

@[spec] theorem spec_takeUntil (stop : Char) (n : Nat) : ⦃Start⦄ takeUntil stop n ⦃Done⦄ := by
  induction n with
  | zero => mvcgen [takeUntil]
  | succ n ih => mvcgen [takeUntil, ih]

@[spec] theorem spec_skipComment (n : Nat) : ⦃Start⦄ skipComment n ⦃Done⦄ := by
  induction n with
  | zero => mvcgen [skipComment]
  | succ n ih => mvcgen [skipComment, ih]

@[spec] theorem spec_skipLine (n : Nat) : ⦃Start⦄ skipLine n ⦃Done⦄ := by
  induction n with
  | zero => mvcgen [skipLine]
  | succ n ih => mvcgen [skipLine, ih]

/-! ### Escapes and sets -/

@[spec] theorem spec_hexEscape (n : Nat) : ⦃Start⦄ hexEscape n ⦃Done⦄ := by
  mvcgen [hexEscape]

@[spec] theorem spec_charEscape (c : Char) : ⦃Start⦄ charEscape c ⦃Done⦄ := by
  mvcgen [charEscape]

@[spec] theorem spec_setEscape (c : Char) : ⦃Start⦄ setEscape c ⦃Done⦄ := by
  mvcgen [setEscape]

@[spec] theorem spec_setItem (t : Token) : ⦃Start⦄ setItem t ⦃Done⦄ := by
  mvcgen [setItem]

@[spec] theorem spec_setItems (n : Nat) (before : List SetItem) :
    ⦃Start⦄ setItems n before ⦃Done⦄ := by
  induction n generalizing before with
  | zero => mvcgen [setItems]
  | succ n ih => mvcgen [setItems, ih]

@[spec] theorem spec_checkBehind (n : Nat) : ⦃Start⦄ checkBehind n ⦃Done⦄ := by
  mvcgen [checkBehind]

@[spec] theorem spec_groupReference (n : Nat) : ⦃Start⦄ groupReference n ⦃Done⦄ := by
  mvcgen [groupReference]

@[spec] theorem spec_escape (c : Char) : ⦃Start⦄ escape c ⦃Done⦄ := by
  mvcgen [escape]

/-! ### Counts -/

theorem all_takeWhile {α : Type} (p : α → Bool) (l : List α) : (l.takeWhile p).all p = true :=
  List.all_eq_true.2 fun _ h => List.mem_takeWhile_imp h

/-- The counts in braces are digits of the text, and what is left is a rest of it. -/
theorem braceCounts?_inv {l lo hi r : List Char} (h : braceCounts? l = some (lo, hi, r)) :
    (lo <:+: l ∧ lo.all isDigit = true) ∧ (hi <:+: l ∧ hi.all isDigit = true) ∧ r <:+ l := by
  have hlo : l.takeWhile isDigit <:+: l := (List.takeWhile_prefix _).isInfix
  have hdrop : l.dropWhile isDigit <:+ l := List.dropWhile_suffix _
  unfold braceCounts? at h
  dsimp only at h
  split at h
  · next t ht =>
    rw [ht] at hdrop
    have ht : t <:+ l := (List.suffix_cons _ t).trans hdrop
    split at h
    · next r' hr =>
      cases h
      have hr' : '}' :: r <:+ t := hr ▸ List.dropWhile_suffix _
      exact ⟨⟨hlo, all_takeWhile _ _⟩,
        ⟨(List.takeWhile_prefix _).isInfix.trans ht.isInfix, all_takeWhile _ _⟩,
        (List.suffix_cons _ r).trans (hr'.trans ht)⟩
    · cases h
  · next t ht =>
    rw [ht] at hdrop
    split at h
    · cases h
    · cases h
      exact ⟨⟨hlo, all_takeWhile _ _⟩, ⟨hlo, all_takeWhile _ _⟩,
        (List.suffix_cons _ r).trans hdrop⟩
  · cases h

/-- The counts of a repetition in braces. -/
def inBraces : Read (Option (Nat × Option Nat)) := do
  match braceCounts? (← get).rest with
  | none => return none
  | some (lo, hi, rest) =>
    modify fun s => { s with rest := rest }
    let least := numberOf 10 lo
    if least ≥ countLimit then throw .countTooLarge
    if hi.isEmpty then return some (least, none)
    let most := numberOf 10 hi
    if most ≥ countLimit then throw .countTooLarge
    if most < least then refuse
    return some (least, some most)

theorem counts?_eq (c : Char) :
    counts? c = match c with
      | '?' => return some (0, some 1)
      | '*' => return some (0, none)
      | '+' => return some (1, none)
      | _ => inBraces := rfl

theorem run_inBraces (s : Cursor) :
    inBraces.run s = match braceCounts? s.rest with
      | none => .ok (none, s)
      | some (lo, hi, rest) =>
        if numberOf 10 lo ≥ countLimit then .error .countTooLarge
        else if hi.isEmpty then .ok (some (numberOf 10 lo, none), { s with rest := rest })
        else if numberOf 10 hi ≥ countLimit then .error .countTooLarge
        else if numberOf 10 hi < numberOf 10 lo then .error .malformed
        else .ok (some (numberOf 10 lo, some (numberOf 10 hi)), { s with rest := rest }) := by
  unfold inBraces
  rw [StateT.run_bind, StateT.run_get]
  show (match braceCounts? s.rest with
    | none => _
    | some (lo, hi, rest) => _ : Read (Option (Nat × Option Nat))).run s = _
  split
  · rfl
  · dsimp only
    split_ifs <;> rfl

@[spec] theorem spec_inBraces : ⦃Start⦄ inBraces ⦃Done⦄ := by
  rw [triple_iff]
  intro s hs
  rw [run_inBraces]
  cases h : braceCounts? s.rest with
  | none => exact hs
  | some p =>
    obtain ⟨lo, hi, rest⟩ := p
    obtain ⟨⟨hlo, hlod⟩, ⟨hhi, hhid⟩, hrest⟩ := braceCounts?_inv h
    have hlo := hs lo hlo hlod
    have hhi := hs hi hhi hhid
    dsimp only
    rw [if_neg (Nat.not_le.2 hlo), if_neg (Nat.not_le.2 hhi)]
    split_ifs
    · exact hs.of_suffix hrest
    · rfl
    · exact hs.of_suffix hrest

@[spec] theorem spec_counts? (c : Char) : ⦃Start⦄ counts? c ⦃Done⦄ := by
  rw [counts?_eq]
  mvcgen

@[spec] theorem spec_repeatLatest (least : Nat) (most : Option Nat) (before : List Expr) :
    ⦃Start⦄ repeatLatest least most before ⦃Done⦄ := by
  unfold repeatLatest
  split
  all_goals mvcgen

/-! ### Groups -/

@[spec] theorem spec_optionLetters (stops : List Char) (n : Nat) :
    ⦃Start⦄ optionLetters stops n ⦃Done⦄ := by
  induction n with
  | zero => mvcgen [optionLetters]
  | succ n ih => mvcgen [optionLetters, ih]

@[spec] theorem spec_setOptions (value : Bool) (cs : List Char) (o : Options) :
    ⦃Start⦄ setOptions value cs o ⦃Done⦄ := by
  mvcgen [setOptions]

@[spec] theorem spec_groupOptions (c : Char) : ⦃Start⦄ groupOptions c ⦃Done⦄ := by
  mvcgen [groupOptions]

@[spec] theorem spec_openGroup (name : Option (List Char)) : ⦃Start⦄ openGroup name ⦃Done⦄ := by
  mvcgen [openGroup]

@[spec] theorem spec_expectClose : ⦃Start⦄ expectClose ⦃Done⦄ := by
  mvcgen [expectClose]

@[spec] theorem spec_conditionGroup (name : List Char) : ⦃Start⦄ conditionGroup name ⦃Done⦄ := by
  mvcgen [conditionGroup]

/-! ### Expressions -/

/-- The readers of expressions with the fuel leave what they should. -/
structure Steady (n : Nat) : Prop where
  alternatives : ∀ top before, ⦃Start⦄ alternatives n top before ⦃Done⦄
  sequence : ∀ first before, ⦃Start⦄ sequence n first before ⦃Done⦄
  body : ∀ options, ⦃Start⦄ body n options ⦃Done⦄
  capturing : ∀ name, ⦃Start⦄ capturing n name ⦃Done⦄
  parenthesis : ∀ first, ⦃Start⦄ parenthesis n first ⦃Done⦄

/-- Induction on the fuel: each reader calls those with one less. -/
theorem steady (n : Nat) : Steady n := by
  induction n with
  | zero =>
    constructor
    · intro top before
      mvcgen [alternatives]
    · intro first before
      mvcgen [sequence]
    · intro options
      mvcgen [body]
    · intro name
      mvcgen [capturing]
    · intro first
      mvcgen [parenthesis]
  | succ n ih =>
    obtain ⟨halternatives, hsequence, hbody, hcapturing, hparenthesis⟩ := ih
    constructor
    · intro top before
      mvcgen [alternatives, halternatives, hsequence]
    · intro first before
      mvcgen [sequence, hsequence, hparenthesis]
    · intro options
      mvcgen [body, halternatives]
    · intro name
      mvcgen [capturing, hbody]
    · intro first
      mvcgen [parenthesis, hbody, hcapturing, hsequence]

/-- An expression is refused for the size of a count only if there are digits in the text that stand for
such a number. -/
theorem read_ne_countTooLarge {s : String} (h : Tame s.toList) : read s ≠ .error .countTooLarge := by
  have hread := triple_iff.1 ((steady (6 * s.toList.length + 8)).alternatives true [])
    { rest := s.toList } h
  intro hsize
  rcases bind_eq_error hsize with hrun | ⟨⟨e, cursor⟩, -, hsize⟩
  · rw [hrun] at hread
    cases hread
  · dsimp only at hsize
    split_ifs at hsize <;> cases hsize

end TieredMemory.Regex
