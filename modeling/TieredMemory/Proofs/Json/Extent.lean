import TieredMemory.Proofs.Json.RoundTrip

/-!
# Where JSON values end

A value ends with a character that only a token has (`Json.ending`): no reader takes blanks, or
characters beyond ASCII, after the last token of what it reads. In particular each of them takes a
character at least. For the proof the readers are cut into the parts that come one after another: what
follows a bracket, an item, a name or a member.
-/

namespace TieredMemory.Json

/-- A character that no token has, strings apart: a control character or the space, the back quote, or
a character beyond ASCII. -/
def Foreign (c : Char) : Prop := c.toNat ≤ 0x20 ∨ c.toNat = 0x60 ∨ 0x85 ≤ c.toNat

instance (c : Char) : Decidable (Foreign c) :=
  inferInstanceAs (Decidable (c.toNat ≤ 0x20 ∨ c.toNat = 0x60 ∨ 0x85 ≤ c.toNat))

variable {r xs : List Char} {c : Char}

/-! ### Tokens -/

theorem not_isDigit_of_foreign (h : Foreign c) : c.isDigit = false := by
  by_contra hd
  simp only [Bool.not_eq_false, Char.isDigit, Bool.and_eq_true, decide_eq_true_eq,
    UInt32.le_iff_toNat_le] at hd
  have hlow : 48 ≤ c.toNat := hd.1
  have hhigh : c.toNat ≤ 57 := hd.2
  unfold Foreign at h
  omega

theorem not_foreign_of_hexDigit? {n : Nat} (h : hexDigit? c = some n) : ¬ Foreign c := by
  intro hc
  have hrange : ∀ lo hi : Char, (lo ≤ c && c ≤ hi) = true → lo.toNat ≤ c.toNat ∧ c.toNat ≤ hi.toNat :=
    fun lo hi h => ⟨of_decide_eq_true (Bool.and_eq_true_iff.1 h).1,
      of_decide_eq_true (Bool.and_eq_true_iff.1 h).2⟩
  unfold hexDigit? at h
  rw [if_neg (by simp [not_isDigit_of_foreign hc])] at h
  unfold Foreign at hc
  split at h
  · next hlower =>
    obtain ⟨hlow, hhigh⟩ := hrange 'a' 'f' hlower
    simp only [Char.reduceToNat] at hlow hhigh
    omega
  · split at h
    · next hupper =>
      obtain ⟨hlow, hhigh⟩ := hrange 'A' 'F' hupper
      simp only [Char.reduceToNat] at hlow hhigh
      omega
    · cases h

theorem not_foreign_of_hexQuad? {a b c d : Char} {n : Nat} (h : hexQuad? a b c d = some n) :
    ∀ e ∈ [a, b, c, d], ¬ Foreign e := by
  simp only [hexQuad?, Option.bind_eq_bind, Option.bind_eq_some_iff] at h
  obtain ⟨i, hi, j, hj, k, hk, l, hl, -⟩ := h
  simp only [List.forall_mem_cons]
  exact ⟨not_foreign_of_hexDigit? hi, not_foreign_of_hexDigit? hj, not_foreign_of_hexDigit? hk,
    not_foreign_of_hexDigit? hl, by simp⟩

theorem not_foreign_of_escapedChar? {d : Char} (h : escapedChar? c = some d) : ¬ Foreign c := by
  intro hc
  unfold escapedChar? at h
  split at h
  case h_9 => cases h
  all_goals exact absurd hc (by decide)

/-! ### Ends -/

/-- The text `s` goes on with `r` after a first part, which ends with a character of a token. -/
def Ends (s r : List Char) : Prop := ∃ xs c, s = xs ++ c :: r ∧ ¬ Foreign c

/-- What is read from the text `s` ends with a character of a token. -/
def Ended {α : Type} (s : List Char) (o : Option (α × List Char)) : Prop :=
  ∀ v r, o = some (v, r) → Ends s r

namespace Ends

variable {s t u : List Char}

theorem length_lt (h : Ends s t) : t.length < s.length := by
  obtain ⟨xs, c, rfl, -⟩ := h
  rw [List.length_append, List.length_cons]
  omega

theorem append (h : Ends s t) (ys : List Char) : Ends (ys ++ s) t := by
  obtain ⟨xs, c, rfl, hc⟩ := h
  exact ⟨ys ++ xs, c, (List.append_assoc ..).symm, hc⟩

theorem cons (h : Ends s t) (c : Char) : Ends (c :: s) t := h.append [c]

theorem trans (h : Ends s t) (h' : Ends t u) : Ends s u := by
  obtain ⟨xs, c, rfl, -⟩ := h
  exact (h'.cons c).append xs

theorem head (hc : ¬ Foreign c) (r : List Char) : Ends (c :: r) r := ⟨[], c, rfl, hc⟩

/-- A text that goes on after the foreign characters at its end has not ended among them. -/
theorem exists_append {a x : List Char} (hx : ∀ c ∈ x, Foreign c) (h : Ends (a ++ x) r) :
    ∃ r', r = r' ++ x := by
  obtain ⟨xs, c, heq, hc⟩ := h
  rcases List.append_eq_append_iff.1 heq with ⟨t, -, hx'⟩ | ⟨t, -, hr⟩
  · refine absurd (hx c ?_) hc
    rw [hx']
    simp
  · cases t with
    | nil =>
      refine absurd (hx c ?_) hc
      rw [List.nil_append] at hr
      rw [← hr]
      simp
    | cons d t =>
      obtain ⟨rfl, rfl⟩ := List.cons.inj hr
      exact ⟨t, rfl⟩

end Ends

theorem Ended.cons {α : Type} {s : List Char} {o : Option (α × List Char)} (h : Ended s o)
    (c : Char) : Ended (c :: s) o :=
  fun v r hr => (h v r hr).cons c

theorem ended_none {α : Type} (s : List Char) : Ended s (none : Option (α × List Char)) :=
  fun _ _ h => nomatch h

theorem Ended.skipSpace {α : Type} {f : List Char → Option (α × List Char)} {s : List Char}
    (h : Ended (skipSpace s) (f (skipSpace s))) : Ended s (f (Json.skipSpace s)) := by
  intro v r hr
  have hend := (h v r hr).append (s.takeWhile isSpace)
  rwa [Json.skipSpace, List.takeWhile_append_dropWhile] at hend

theorem Ended.bind {α β : Type} {o : Option (α × List Char)} {s : List Char}
    {f : α → List Char → Option (β × List Char)} (h : Ended s o) (hf : ∀ v s, Ended s (f v s)) :
    Ended s (o.bind fun q => f q.1 q.2) := by
  intro w r hr
  obtain ⟨⟨v, t⟩, ho, hr⟩ := Option.bind_eq_some_iff.1 hr
  exact (h v t ho).trans (hf v t w r hr)

/-! ### Strings -/

/-- A pair of escaped units is a token, whatever follows it. -/
theorem surrogatePair?_inv {s : List Char} {d : Char} (h : surrogatePair? s = some (d, r)) :
    ∃ xs, s = xs ++ r ∧ (∀ c ∈ xs, ¬ Foreign c) ∧ ∀ r', surrogatePair? (xs ++ r') = some (d, r') := by
  unfold surrogatePair? at h
  split at h
  · next a b c d' e f g k r' =>
    simp only [Option.bind_eq_bind, Option.bind_eq_some_iff, Option.ite_none_right_eq_some,
      Option.some.injEq, Prod.mk.injEq] at h
    obtain ⟨hi, hhi, lo, hlo, hhalves, hd, hr⟩ := h
    refine ⟨['\\', 'u', a, b, c, d', '\\', 'u', e, f, g, k], ?_, ?_, fun r' => ?_⟩
    · rw [hr]
      simp only [List.cons_append, List.nil_append]
    · have hescape : ∀ i ∈ ['\\', 'u'], ¬ Foreign i := by
        simp only [List.forall_mem_cons]
        exact ⟨by decide, by decide, by simp⟩
      change ∀ i ∈ ['\\', 'u'] ++ ([a, b, c, d'] ++ (['\\', 'u'] ++ [e, f, g, k])), ¬ Foreign i
      simp only [List.forall_mem_append]
      exact ⟨hescape, not_foreign_of_hexQuad? hhi, hescape, not_foreign_of_hexQuad? hlo⟩
    · simp only [List.cons_append, List.nil_append, surrogatePair?, hhi, hlo, Option.bind_eq_bind,
        Option.bind_some]
      rw [if_pos hhalves, hd]
  · cases h

/-- A character of a string takes a character at least. -/
theorem stringChar?_inv {s : List Char} {d : Char} (h : stringChar? s = some (d, r)) :
    ∃ c xs, s = c :: (xs ++ r) := by
  unfold stringChar? at h
  split at h
  · next p hpair =>
    cases h
    obtain ⟨xs, rfl, -, hread⟩ := surrogatePair?_inv hpair
    cases xs with
    | nil => exact absurd (hread []) (by simp [surrogatePair?])
    | cons e xs => exact ⟨e, xs, rfl⟩
  · split at h
    · next a₁ a₂ a₃ a₄ r₁ _ =>
      obtain ⟨n, -, h⟩ := Option.map_eq_some_iff.1 h
      cases h
      exact ⟨'\\', ['u', a₁, a₂, a₃, a₄], rfl⟩
    · next e r₁ _ _ =>
      obtain ⟨n, -, h⟩ := Option.map_eq_some_iff.1 h
      cases h
      exact ⟨'\\', [e], rfl⟩
    · cases h
    · split at h
      · cases h
      · cases h
        exact ⟨d, [], rfl⟩
    · cases h

/-- A string ends with its closing quote. -/
theorem ended_string? (n : Nat) (acc s : List Char) : Ended s (string? n acc s) := by
  induction n generalizing acc s with
  | zero => exact ended_none s
  | succ n ih =>
    intro v r h
    unfold string? at h
    split at h
    · cases h
      exact .head (by decide) _
    · simp only [Option.bind_eq_bind, Option.bind_eq_some_iff] at h
      obtain ⟨⟨d, r₁⟩, hchar, h⟩ := h
      obtain ⟨e, xs, rfl⟩ := stringChar?_inv hchar
      exact ((ih _ _ _ _ h).append xs).cons e

/-! ### Numbers -/

/-- The digits before the point: a leading zero stands alone. -/
def wholePart : List Char → List Char × List Char
  | '0' :: r => (['0'], r)
  | s => digitsOf s

/-- The sign of an exponent: whether it is a minus, and what follows. -/
def signPart : List Char → Bool × List Char
  | '-' :: r => (true, r)
  | '+' :: r => (false, r)
  | r => (false, r)

theorem exponentPart_cons (c : Char) (r : List Char) :
    exponentPart (c :: r) =
      if c == 'e' || c == 'E' then
        if (digitsOf (signPart r).2).1.isEmpty then (none, c :: r)
        else
          (some (if (signPart r).1 then -(natOf (digitsOf (signPart r).2).1 : Int)
            else natOf (digitsOf (signPart r).2).1), (digitsOf (signPart r).2).2)
      else (none, c :: r) := rfl

theorem number?_eq (negative : Bool) (s : List Char) :
    number? negative s =
      if (wholePart s).1.isEmpty then none
      else
        let frac := fractionPart (wholePart s).2
        let exponent := exponentPart frac.2
        if frac.1.isEmpty && exponent.1.isNone then
          if mostDigits < (wholePart s).1.length then none
          else
            some (.int (if negative then -(natOf (wholePart s).1 : Int) else natOf (wholePart s).1),
              exponent.2)
        else
          some (.real (Decimal.ofDigits negative (natOf ((wholePart s).1 ++ frac.1))
            (exponent.1.getD 0 - frac.1.length)), exponent.2) := rfl

theorem not_foreign_of_isDigit (h : c.isDigit = true) : ¬ Foreign c := by
  intro hc
  rw [not_isDigit_of_foreign hc] at h
  cases h

theorem ends_digitsOf {s : List Char} (h : (digitsOf s).1 ≠ []) : Ends s (digitsOf s).2 := by
  obtain ⟨xs, c, hxs⟩ := (List.eq_nil_or_concat (digitsOf s).1).resolve_left h
  have hc : c ∈ s.takeWhile Char.isDigit := by
    change c ∈ (digitsOf s).1
    simp [hxs]
  refine ⟨xs, c, ?_, not_foreign_of_isDigit (List.mem_takeWhile_imp hc)⟩
  calc s = (digitsOf s).1 ++ (digitsOf s).2 := List.takeWhile_append_dropWhile.symm
    _ = xs ++ c :: (digitsOf s).2 := by rw [hxs, List.concat_eq_append, List.append_assoc]; rfl

theorem ends_wholePart {s : List Char} (h : (wholePart s).1 ≠ []) : Ends s (wholePart s).2 := by
  unfold wholePart at h ⊢
  split
  · exact .head (by decide) _
  · next hzero => exact ends_digitsOf (by simpa using h)

theorem ends_fractionPart (s : List Char) :
    (fractionPart s).2 = s ∨ Ends s (fractionPart s).2 := by
  unfold fractionPart
  split
  · split
    · exact .inl rfl
    · next hdigits => exact .inr ((ends_digitsOf (by simpa using hdigits)).cons _)
  · exact .inl rfl

theorem ends_exponentPart (s : List Char) :
    (exponentPart s).2 = s ∨ Ends s (exponentPart s).2 := by
  cases s with
  | nil => exact .inl rfl
  | cons c r =>
    have hsign : ∃ xs, r = xs ++ (signPart r).2 := by
      unfold signPart
      split
      · exact ⟨['-'], rfl⟩
      · exact ⟨['+'], rfl⟩
      · exact ⟨[], rfl⟩
    rw [exponentPart_cons]
    split
    · split
      · exact .inl rfl
      · next hdigits =>
        obtain ⟨xs, hxs⟩ := hsign
        have hend := (ends_digitsOf (s := (signPart r).2) (by simpa using hdigits)).append xs
        rw [← hxs] at hend
        exact .inr (hend.cons c)
    · exact .inl rfl

/-- A number ends with a digit. -/
theorem ended_number? (negative : Bool) (s : List Char) : Ended s (number? negative s) := by
  intro v r h
  rw [number?_eq] at h
  split at h
  · cases h
  · next hwhole =>
    have hr : r = (exponentPart (fractionPart (wholePart s).2).2).2 := by
      dsimp only at h
      split at h
      · split at h
        · cases h
        · cases h
          rfl
      · cases h
        rfl
    have hend := ends_wholePart (s := s) (by simpa using hwhole)
    have hfrac : Ends s (fractionPart (wholePart s).2).2 := by
      rcases ends_fractionPart (wholePart s).2 with heq | hmore
      · rwa [heq]
      · exact hend.trans hmore
    rw [hr]
    rcases ends_exponentPart (fractionPart (wholePart s).2).2 with heq | hmore
    · rwa [heq]
    · exact hfrac.trans hmore

/-! ### Values -/

/-- What follows the opening bracket of an array and the blanks after it. -/
def arrayRest (n : Nat) : List Char → Option (Value × List Char)
  | ']' :: r => some (.arr [], r)
  | r => items? n [] r

/-- What follows the opening brace of an object and the blanks after it. -/
def objectRest (n : Nat) : List Char → Option (Value × List Char)
  | '\x7d' :: r => some (.obj [], r)
  | r => members? n [] r

/-- What follows an item of an array and the blanks after it. -/
def itemRest (n : Nat) (acc : List Value) : List Char → Option (Value × List Char)
  | ',' :: r => items? n acc (skipSpace r)
  | ']' :: r => some (.arr acc.reverse, r)
  | _ => none

/-- What follows a member of an object and the blanks after it. -/
def memberRest (n : Nat) (acc : List (String × Value)) : List Char → Option (Value × List Char)
  | ',' :: r => members? n acc (skipSpace r)
  | '\x7d' :: r => some (.obj acc, r)
  | _ => none

/-- What follows the name of a member and the blanks after it. -/
def nameRest (n : Nat) (acc : List (String × Value)) (name : String) :
    List Char → Option (Value × List Char)
  | ':' :: r => (value? n (skipSpace r)).bind fun p =>
    memberRest n (assign name p.1 acc) (skipSpace p.2)
  | _ => none

theorem value?_bracket (n : Nat) (r : List Char) :
    value? (n + 1) ('[' :: r) = arrayRest n (skipSpace r) := by
  rw [value?]
  rfl

theorem value?_brace (n : Nat) (r : List Char) :
    value? (n + 1) ('\x7b' :: r) = objectRest n (skipSpace r) := by
  rw [value?]
  rfl

theorem items?_succ (n : Nat) (acc : List Value) (s : List Char) :
    items? (n + 1) acc s = (value? n s).bind fun p => itemRest n (p.1 :: acc) (skipSpace p.2) := by
  rw [items?]
  cases value? n s <;> rfl

theorem members?_quote (n : Nat) (acc : List (String × Value)) (r : List Char) :
    members? (n + 1) acc ('"' :: r) =
      (string? (r.length + 1) [] r).bind fun p => nameRest n acc p.1 (skipSpace p.2) := by
  rw [members?]
  cases string? (r.length + 1) [] r with
  | none => rfl
  | some p =>
    simp only [Option.bind_some]
    generalize skipSpace p.2 = t
    split
    · next r =>
      rw [nameRest]
      cases value? n (skipSpace r) <;> rfl
    · next hcolon =>
      rw [nameRest]
      exact hcolon

theorem members?_of_ne {n : Nat} {acc : List (String × Value)} {s : List Char}
    (h : ∀ r, s ≠ '"' :: r) : members? n acc s = none := by
  cases n with
  | zero => rfl
  | succ n =>
    rw [members?]
    exact fun r hr => h r hr

/-- A word or a number. -/
def plain? : List Char → Option (Value × List Char)
  | 'n' :: 'u' :: 'l' :: 'l' :: r => some (.null, r)
  | 't' :: 'r' :: 'u' :: 'e' :: r => some (.bool true, r)
  | 'f' :: 'a' :: 'l' :: 's' :: 'e' :: r => some (.bool false, r)
  | 'N' :: 'a' :: 'N' :: r => some (.real (0 / 0), r)
  | 'I' :: 'n' :: 'f' :: 'i' :: 'n' :: 'i' :: 't' :: 'y' :: r => some (.real (1 / 0), r)
  | '-' :: 'I' :: 'n' :: 'f' :: 'i' :: 'n' :: 'i' :: 't' :: 'y' :: r => some (.real (-(1 / 0)), r)
  | '-' :: r => number? true r
  | s => number? false s

theorem value?_plain {s : List Char} (h : ∀ c ∈ s.head?, c ≠ '"' ∧ c ≠ '[' ∧ c ≠ '\x7b') (n : Nat) :
    value? (n + 1) s = plain? s := by
  conv_lhs => unfold value?
  split
  · exact absurd rfl (h _ rfl).1
  · exact absurd rfl (h _ rfl).2.1
  · exact absurd rfl (h _ rfl).2.2
  · rfl
  · rfl
  · rfl
  · rfl
  · rfl
  · rfl
  · next hinfinity =>
    rw [plain?]
    exact hinfinity
  · rw [plain?] <;> assumption

theorem ended_plain? (s : List Char) : Ended s (plain? s) := by
  intro v r h
  unfold plain? at h
  split at h
  case h_7 r' _ => exact (ended_number? true r' v r h).cons _
  case h_8 => exact ended_number? false s v r h
  case h_1 =>
    cases h
    exact ⟨['n', 'u', 'l'], 'l', rfl, by decide⟩
  case h_2 =>
    cases h
    exact ⟨['t', 'r', 'u'], 'e', rfl, by decide⟩
  case h_3 =>
    cases h
    exact ⟨['f', 'a', 'l', 's'], 'e', rfl, by decide⟩
  case h_4 =>
    cases h
    exact ⟨['N', 'a'], 'N', rfl, by decide⟩
  case h_5 =>
    cases h
    exact ⟨['I', 'n', 'f', 'i', 'n', 'i', 't'], 'y', rfl, by decide⟩
  case h_6 =>
    cases h
    exact ⟨['-', 'I', 'n', 'f', 'i', 'n', 'i', 't'], 'y', rfl, by decide⟩

/-- How a value begins. -/
theorem head_cases (s : List Char) :
    (∃ r, s = '"' :: r) ∨ (∃ r, s = '[' :: r) ∨ (∃ r, s = '\x7b' :: r) ∨
      ∀ c ∈ s.head?, c ≠ '"' ∧ c ≠ '[' ∧ c ≠ '\x7b' := by
  cases s with
  | nil => simp
  | cons c s =>
    simp only [List.cons.injEq, List.head?_cons, Option.mem_some_iff]
    grind

/-- What the readers with fuel `n` read ends with a character of a token. -/
structure Ending (n : Nat) : Prop where
  value : ∀ s, Ended s (value? n s)
  items : ∀ acc s, Ended s (items? n acc s)
  members : ∀ acc s, Ended s (members? n acc s)

namespace Ending

variable {n : Nat}

theorem arrayRest (h : Ending n) (s : List Char) : Ended s (Json.arrayRest n s) := by
  unfold Json.arrayRest
  split
  · rintro v r ⟨⟩
    exact .head (by decide) _
  · exact h.items _ _

theorem objectRest (h : Ending n) (s : List Char) : Ended s (Json.objectRest n s) := by
  unfold Json.objectRest
  split
  · rintro v r ⟨⟩
    exact .head (by decide) _
  · exact h.members _ _

theorem itemRest (h : Ending n) (acc : List Value) (s : List Char) :
    Ended s (Json.itemRest n acc s) := by
  unfold Json.itemRest
  split
  · exact (h.items acc _).skipSpace.cons _
  · rintro v r ⟨⟩
    exact .head (by decide) _
  · exact ended_none _

theorem memberRest (h : Ending n) (acc : List (String × Value)) (s : List Char) :
    Ended s (Json.memberRest n acc s) := by
  unfold Json.memberRest
  split
  · exact (h.members acc _).skipSpace.cons _
  · rintro v r ⟨⟩
    exact .head (by decide) _
  · exact ended_none _

theorem nameRest (h : Ending n) (acc : List (String × Value)) (name : String) (s : List Char) :
    Ended s (Json.nameRest n acc name s) := by
  unfold Json.nameRest
  split
  · refine .cons (.bind (f := fun v s => Json.memberRest n (assign name v acc) (Json.skipSpace s))
      (h.value _).skipSpace fun v s => ?_) _
    exact (h.memberRest _ _).skipSpace
  · exact ended_none _

end Ending

/-- Induction on the fuel: each reader calls those with one less. -/
theorem ending (n : Nat) : Ending n := by
  induction n with
  | zero => exact ⟨fun s => ended_none s, fun acc s => ended_none s, fun acc s => ended_none s⟩
  | succ n ih =>
    refine ⟨fun s => ?_, fun acc s => ?_, fun acc s => ?_⟩
    · rcases head_cases s with ⟨r, rfl⟩ | ⟨r, rfl⟩ | ⟨r, rfl⟩ | hplain
      · intro v t ht
        rw [value?] at ht
        obtain ⟨p, hp, ht⟩ := Option.map_eq_some_iff.1 ht
        cases ht
        exact (ended_string? _ _ _).cons _ _ _ hp
      · rw [value?_bracket]
        exact (ih.arrayRest _).skipSpace.cons _
      · rw [value?_brace]
        exact (ih.objectRest _).skipSpace.cons _
      · rw [value?_plain hplain]
        exact ended_plain? s
    · rw [items?_succ]
      exact .bind (f := fun v s => itemRest n (v :: acc) (skipSpace s)) (ih.value s)
        fun v s => (ih.itemRest _ _).skipSpace
    · by_cases hquote : ∃ r, s = '"' :: r
      · obtain ⟨r, rfl⟩ := hquote
        rw [members?_quote]
        exact .cons (.bind (f := fun name s => nameRest n acc name (skipSpace s))
          (ended_string? _ _ _) fun name s => (ih.nameRest acc name _).skipSpace) _
      · rw [members?_of_ne fun r hr => hquote ⟨r, hr⟩]
        exact ended_none s

end TieredMemory.Json
