import TieredMemory.Proofs.Json.Extent

/-!
# Truncated JSON

Reading goes from left to right and looks ahead by a token at most. Hence a text that stops before a
character that no token has (`Foreign`) is read as the whole text was, as long as the value ends before
that place; if the value goes on beyond it, the truncated text has no value (`value?_cut`). So blanks
around a text do not matter (`read?_trimmed`), and what is left of a readable text without the end of
its value cannot be read (`read?_truncated`).
-/

namespace TieredMemory.Json

/-- What the reading of the truncated text comes to, given that of the whole one: the same, less the
text `x` that is missing, or nothing if that is where the reading of the whole text has ended. -/
def Cut {α : Type} (x : List Char) (whole cut : Option (α × List Char)) : Prop :=
  ∀ v r, whole = some (v, r) →
    (∃ r', r = r' ++ x ∧ cut = some (v, r')) ∨ (r.length < x.length ∧ cut = none)

variable {a x r : List Char} {c : Char}

/-! ### Tokens -/

/-- A token at the start of the whole text is at the start of the truncated one. -/
theorem exists_of_token (xs : List Char) (hx : ∀ c ∈ x.head?, Foreign c)
    (hxs : ∀ c ∈ xs, ¬ Foreign c) (h : a ++ x = xs ++ r) : ∃ r', a = xs ++ r' ∧ r = r' ++ x := by
  rcases List.append_eq_append_iff.1 h with ⟨t, hxs', hx'⟩ | ⟨t, ha, hr⟩
  · cases t with
    | nil => exact ⟨[], by simpa using hxs'.symm, by simpa using hx'.symm⟩
    | cons d t =>
      rw [hx'] at hx
      exact absurd (hx d rfl) (hxs d (by simp [hxs']))
  · exact ⟨t, ha, hr⟩

theorem exists_of_char (hx : ∀ c ∈ x.head?, Foreign c) (hc : ¬ Foreign c) (h : a ++ x = c :: r) :
    ∃ r', a = c :: r' ∧ r = r' ++ x :=
  exists_of_token [c] hx (by simpa using hc) h

/-! ### Strings -/

theorem surrogatePair?_cut (hx : ∀ c ∈ x.head?, Foreign c) {d : Char}
    (h : surrogatePair? (a ++ x) = some (d, r)) :
    ∃ r', r = r' ++ x ∧ surrogatePair? a = some (d, r') := by
  obtain ⟨xs, hs, hxs, hread⟩ := surrogatePair?_inv h
  obtain ⟨r', ha, hr⟩ := exists_of_token xs hx hxs hs
  exact ⟨r', hr, ha ▸ hread r'⟩

theorem surrogatePair?_cut_none (h : surrogatePair? (a ++ x) = none) : surrogatePair? a = none := by
  cases ha : surrogatePair? a with
  | none => rfl
  | some p =>
    obtain ⟨xs, hs, -, hread⟩ := surrogatePair?_inv ha
    rw [hs, List.append_assoc, hread] at h
    cases h

/-- An escape of one code unit is a token, unless it begins a surrogate pair. -/
theorem stringChar?_cut_of_token {xs : List Char} {d : Char} (hx : ∀ c ∈ x.head?, Foreign c)
    (hxs : ∀ c ∈ xs, ¬ Foreign c) (hpair : surrogatePair? (a ++ x) = none) (hs : a ++ x = xs ++ r)
    (hread : ∀ t, surrogatePair? (xs ++ t) = none → stringChar? (xs ++ t) = some (d, t)) :
    ∃ r', r = r' ++ x ∧ stringChar? a = some (d, r') := by
  obtain ⟨r', rfl, hr⟩ := exists_of_token xs hx hxs hs
  exact ⟨r', hr, hread r' (surrogatePair?_cut_none hpair)⟩

/-- A character of a string ends before the place where the text is truncated, or is that place. -/
theorem stringChar?_cut (hx : ∀ c ∈ x.head?, Foreign c) {d : Char}
    (h : stringChar? (a ++ x) = some (d, r)) :
    (∃ r', r = r' ++ x ∧ stringChar? a = some (d, r')) ∨ (r.length < x.length ∧ a = []) := by
  unfold stringChar? at h
  split at h
  · next p hpair =>
    cases h
    obtain ⟨r', hr, ha⟩ := surrogatePair?_cut hx hpair
    exact .inl ⟨r', hr, by simp only [stringChar?, ha]⟩
  · next hpair =>
    split at h
    · next a₁ a₂ a₃ a₄ r₁ hs =>
      obtain ⟨n, hn, h⟩ := Option.map_eq_some_iff.1 h
      cases h
      have hxs : ∀ c ∈ ['\\', 'u', a₁, a₂, a₃, a₄], ¬ Foreign c := by
        have hquad := not_foreign_of_hexQuad? hn
        simp only [List.forall_mem_cons] at hquad ⊢
        exact ⟨by decide, by decide, hquad⟩
      refine .inl (stringChar?_cut_of_token hx hxs hpair hs fun t hnone => ?_)
      simp only [List.cons_append, List.nil_append] at hnone ⊢
      simp only [stringChar?, hnone, hn, Option.map_some]
    · next e r₁ hquad hs =>
      obtain ⟨d', he, h⟩ := Option.map_eq_some_iff.1 h
      cases h
      have hxs : ∀ c ∈ ['\\', e], ¬ Foreign c := by
        simp only [List.forall_mem_cons]
        exact ⟨by decide, not_foreign_of_escapedChar? he, by simp⟩
      have hu : e ≠ 'u' := by
        rintro rfl
        cases he
      refine .inl (stringChar?_cut_of_token hx hxs hpair hs fun t hnone => ?_)
      simp only [List.cons_append, List.nil_append] at hnone ⊢
      simp [stringChar?, hnone, hu, he]
    · cases h
    · next e r₁ hquad hslash hend hs =>
      split at h
      · cases h
      · next hcontrol =>
        cases h
        have he : d ≠ '\\' := by
          rintro rfl
          cases r with
          | nil => exact hend rfl rfl
          | cons f t => exact hslash f t rfl rfl
        -- no token here: the character itself may be where the text is truncated
        cases a with
        | nil =>
          rw [List.nil_append] at hs
          exact .inr ⟨by simp [hs], rfl⟩
        | cons e' a =>
          obtain ⟨rfl, rfl⟩ := List.cons.inj hs
          exact .inl ⟨a, rfl, stringChar?_plain he hcontrol a⟩
    · cases h

/-- The rest of a string ends before the place where the text is truncated, or beyond it. -/
theorem string?_cut (hx : ∀ c ∈ x.head?, Foreign c) {m : Nat} (hm : a.length < m) (n : Nat)
    (acc : List Char) : Cut x (string? n acc (a ++ x)) (string? m acc a) := by
  induction n generalizing a m acc with
  | zero => exact fun v r h => nomatch h
  | succ n ih =>
    intro v r h
    obtain ⟨m, rfl⟩ : ∃ k, m = k + 1 := ⟨m - 1, by omega⟩
    unfold string? at h
    split at h
    · next r₁ hs =>
      cases h
      obtain ⟨r', rfl, hr⟩ := exists_of_char hx (by decide) hs
      exact .inl ⟨r', hr, string?_quote ..⟩
    · next s hquote =>
      simp only [Option.bind_eq_bind, Option.bind_eq_some_iff] at h
      obtain ⟨⟨d, r₁⟩, hchar, h⟩ := h
      rcases stringChar?_cut hx hchar with ⟨r', rfl, ha⟩ | ⟨hlen, rfl⟩
      · have hlen : r'.length < a.length := by
          obtain ⟨e, xs, rfl⟩ := stringChar?_inv ha
          simp only [List.length_cons, List.length_append]
          omega
        have hstep : string? (m + 1) acc a = string? m (d :: acc) r' := by
          rw [string?]
          · simp [ha]
          · rintro t rfl
            exact hquote _ rfl
        rw [hstep]
        exact ih (by omega) _ _ _ h
      · have hrest := (ended_string? _ _ _ _ _ h).length_lt
        dsimp only at hrest
        exact .inr ⟨by omega, by simp [string?, stringChar?, surrogatePair?]⟩

/-! ### Numbers -/

theorem digitsOf_append (hx : ∀ c ∈ x.head?, Foreign c) (a : List Char) :
    digitsOf (a ++ x) = ((digitsOf a).1, (digitsOf a).2 ++ x) := by
  have hstop : x.takeWhile Char.isDigit = [] ∧ x.dropWhile Char.isDigit = x := by
    cases x with
    | nil => simp
    | cons c x => simp [not_isDigit_of_foreign (hx c rfl)]
  unfold digitsOf
  rw [List.takeWhile_append, List.dropWhile_append, hstop.1, hstop.2]
  by_cases hall : (a.takeWhile Char.isDigit).length = a.length
  · have hdrop : a.dropWhile Char.isDigit = [] := by
      have := congrArg List.length (List.takeWhile_append_dropWhile (p := Char.isDigit) (l := a))
      rw [List.length_append] at this
      exact List.eq_nil_of_length_eq_zero (by omega)
    have htake : a.takeWhile Char.isDigit = a := by
      have := List.takeWhile_append_dropWhile (p := Char.isDigit) (l := a)
      rwa [hdrop, List.append_nil] at this
    simp [hdrop, htake]
  · have hdrop : a.dropWhile Char.isDigit ≠ [] := by
      intro hnil
      have := List.takeWhile_append_dropWhile (p := Char.isDigit) (l := a)
      rw [hnil, List.append_nil] at this
      exact hall (by rw [this])
    simp [hall, hdrop]

theorem fractionPart_append (hx : ∀ c ∈ x.head?, Foreign c) (a : List Char) :
    fractionPart (a ++ x) = ((fractionPart a).1, (fractionPart a).2 ++ x) := by
  by_cases hdot : ∃ r, a ++ x = '.' :: r
  · obtain ⟨r, hr⟩ := hdot
    obtain ⟨r', rfl, -⟩ := exists_of_char hx (by decide) hr
    simp only [List.cons_append, fractionPart, digitsOf_append hx]
    split <;> rfl
  · have hwhole : fractionPart (a ++ x) = ([], a ++ x) := by
      unfold fractionPart
      split
      · next r hr => exact absurd ⟨r, hr⟩ hdot
      · rfl
    have hcut : fractionPart a = ([], a) := by
      unfold fractionPart
      split
      · next r => exact absurd ⟨r ++ x, rfl⟩ hdot
      · rfl
    rw [hwhole, hcut]

theorem not_exponentMark_of_foreign (h : Foreign c) : (c == 'e' || c == 'E') = false := by
  simp only [Bool.or_eq_false_iff, beq_eq_false_iff_ne]
  constructor
  · rintro rfl
    exact absurd h (by decide)
  · rintro rfl
    exact absurd h (by decide)

theorem signPart_append (hx : ∀ c ∈ x.head?, Foreign c) (a : List Char) :
    signPart (a ++ x) = ((signPart a).1, (signPart a).2 ++ x) := by
  cases a with
  | nil =>
    cases x with
    | nil => rfl
    | cons c x =>
      have hc := hx c rfl
      unfold signPart
      split
      · next heq =>
        cases heq
        exact absurd hc (by decide)
      · next heq =>
        cases heq
        exact absurd hc (by decide)
      · rfl
  | cons c a =>
    unfold signPart
    split <;> simp_all

theorem exponentPart_append (hx : ∀ c ∈ x.head?, Foreign c) (a : List Char) :
    exponentPart (a ++ x) = ((exponentPart a).1, (exponentPart a).2 ++ x) := by
  cases a with
  | nil =>
    cases x with
    | nil => rfl
    | cons c x => simp [exponentPart, not_exponentMark_of_foreign (hx c rfl)]
  | cons c a =>
    simp only [List.cons_append, exponentPart_cons, signPart_append hx, digitsOf_append hx]
    split
    · split <;> rfl
    · rfl

theorem wholePart_append (hx : ∀ c ∈ x.head?, Foreign c) (a : List Char) :
    wholePart (a ++ x) = ((wholePart a).1, (wholePart a).2 ++ x) := by
  by_cases hzero : ∃ r, a ++ x = '0' :: r
  · obtain ⟨r, hr⟩ := hzero
    obtain ⟨r', rfl, -⟩ := exists_of_char hx (by decide) hr
    rfl
  · have hwhole : wholePart (a ++ x) = digitsOf (a ++ x) := by
      unfold wholePart
      split
      · next r hr => exact absurd ⟨r, hr⟩ hzero
      · rfl
    have hcut : wholePart a = digitsOf a := by
      unfold wholePart
      split
      · next r => exact absurd ⟨r ++ x, rfl⟩ hzero
      · rfl
    rw [hwhole, hcut, digitsOf_append hx]

/-- A number ends before the place where the text is truncated, whatever follows. -/
theorem number?_append (hx : ∀ c ∈ x.head?, Foreign c) (negative : Bool) (a : List Char) :
    number? negative (a ++ x) = (number? negative a).map fun p => (p.1, p.2 ++ x) := by
  simp only [number?_eq, wholePart_append hx, fractionPart_append hx, exponentPart_append hx]
  split
  · rfl
  · split
    · split <;> rfl
    · rfl

/-! ### Blanks between tokens -/

theorem length_skipSpace_le (s : List Char) : (skipSpace s).length ≤ s.length :=
  (List.dropWhile_sublist _).length_le

/-- The blanks at the start of the whole text end in the truncated one, or are all of it. -/
theorem skipSpace_append (a x : List Char) :
    skipSpace (a ++ x) = if skipSpace a = [] then skipSpace x else skipSpace a ++ x := by
  by_cases h : skipSpace a = []
  · rw [if_pos h]
    unfold skipSpace at h ⊢
    simp [List.dropWhile_append, h]
  · rw [if_neg h]
    unfold skipSpace at h ⊢
    simp [List.dropWhile_append, h]

/-- Reading goes on after blanks, with `f` in the whole text and with `g` in the truncated one. -/
theorem Cut.skipSpace {α : Type} {f g : List Char → Option (α × List Char)}
    (hf : ∀ s, Ended s (f s)) (hg : g [] = none)
    (h : ∀ b, b.length ≤ a.length → Cut x (f (b ++ x)) (g b)) :
    Cut x (f (Json.skipSpace (a ++ x))) (g (Json.skipSpace a)) := by
  rw [skipSpace_append]
  split
  · next hblank =>
    intro v r hr
    rw [hblank]
    exact .inr ⟨(hf _ v r hr).length_lt.trans_le (length_skipSpace_le x), hg⟩
  · exact h _ (length_skipSpace_le a)

/-- Reading goes on after a first part. -/
theorem Cut.bind {α β : Type} {o p : Option (α × List Char)}
    {f g : α → List Char → Option (β × List Char)} (h : Cut x o p)
    (hf : ∀ v s, Ended s (f v s))
    (hrest : ∀ v b, p = some (v, b) → Cut x (f v (b ++ x)) (g v b)) :
    Cut x (o.bind fun q => f q.1 q.2) (p.bind fun q => g q.1 q.2) := by
  intro w r hr
  obtain ⟨⟨v, s⟩, ho, hr⟩ := Option.bind_eq_some_iff.1 hr
  rcases h v s ho with ⟨b, rfl, hp⟩ | ⟨hlen, hp⟩
  · rw [hp]
    exact hrest v b hp w r hr
  · exact .inr ⟨(hf v s w r hr).length_lt.trans hlen, by simp [hp]⟩

theorem Cut.map {α β : Type} {o p : Option (α × List Char)} (h : Cut x o p) (f : α → β) :
    Cut x (o.map fun q => (f q.1, q.2)) (p.map fun q => (f q.1, q.2)) := by
  intro w r hr
  obtain ⟨⟨v, s⟩, ho, hr⟩ := Option.map_eq_some_iff.1 hr
  cases hr
  rcases h v s ho with ⟨b, rfl, hp⟩ | ⟨hlen, hp⟩
  · exact .inl ⟨b, rfl, by simp [hp]⟩
  · exact .inr ⟨hlen, by simp [hp]⟩

/-! ### Values -/

/-- A word or a number ends before the place where the text is truncated, whatever follows. -/
theorem plain?_append (hx : ∀ c ∈ x.head?, Foreign c) (a : List Char) :
    plain? (a ++ x) = (plain? a).map fun p => (p.1, p.2 ++ x) := by
  conv_lhs => unfold plain?
  split
  · next r hr =>
    obtain ⟨r', rfl, rfl⟩ := exists_of_token ['n', 'u', 'l', 'l'] hx (by simp [Foreign]) hr
    rfl
  · next r hr =>
    obtain ⟨r', rfl, rfl⟩ := exists_of_token ['t', 'r', 'u', 'e'] hx (by simp [Foreign]) hr
    rfl
  · next r hr =>
    obtain ⟨r', rfl, rfl⟩ := exists_of_token ['f', 'a', 'l', 's', 'e'] hx
      (by simp [Foreign]) hr
    rfl
  · next r hr =>
    obtain ⟨r', rfl, rfl⟩ := exists_of_token ['N', 'a', 'N'] hx (by simp [Foreign]) hr
    rfl
  · next r hr =>
    obtain ⟨r', rfl, rfl⟩ := exists_of_token ['I', 'n', 'f', 'i', 'n', 'i', 't', 'y'] hx
      (by simp [Foreign]) hr
    rfl
  · next r hr =>
    obtain ⟨r', rfl, rfl⟩ := exists_of_token ['-', 'I', 'n', 'f', 'i', 'n', 'i', 't', 'y'] hx
      (by simp [Foreign]) hr
    rfl
  · next r hinfinity hr =>
    obtain ⟨r', rfl, rfl⟩ := exists_of_char hx (by decide) hr
    rw [number?_append hx, plain?]
    rintro t rfl
    exact hinfinity _ rfl
  · next h1 h2 h3 h4 h5 h6 h7 =>
    rw [number?_append hx, plain?]
    all_goals
      rintro t rfl
      first
        | exact h1 _ rfl
        | exact h2 _ rfl
        | exact h3 _ rfl
        | exact h4 _ rfl
        | exact h5 _ rfl
        | exact h6 _ rfl
        | exact h7 _ rfl

theorem items?_nil (m : Nat) (acc : List Value) : items? m acc [] = none := by
  cases m with
  | zero => rfl
  | succ m =>
    rw [items?_succ]
    cases m <;> rfl

theorem members?_nil (m : Nat) (acc : List (String × Value)) : members? m acc [] = none :=
  members?_of_ne (by simp)

theorem value?_nil (m : Nat) : value? m [] = none := by
  cases m <;> rfl

theorem head_append (hx : ∀ c ∈ x.head?, Foreign c)
    (h : ∀ c ∈ a.head?, c ≠ '"' ∧ c ≠ '[' ∧ c ≠ '\x7b') :
    ∀ c ∈ (a ++ x).head?, c ≠ '"' ∧ c ≠ '[' ∧ c ≠ '\x7b' := by
  cases a with
  | nil =>
    intro c hc
    have hforeign := hx c hc
    refine ⟨?_, ?_, ?_⟩
    all_goals
      rintro rfl
      exact absurd hforeign (by decide)
  | cons d a => exact h

/-- The readers with fuel `n` read the whole text, those with fuel `m` the truncated one, which is
short enough for this fuel. -/
structure Cuts (x : List Char) (n m : Nat) : Prop where
  value : ∀ a, 2 * a.length ≤ m → Cut x (value? n (a ++ x)) (value? m a)
  items : ∀ acc a, 2 * a.length + 1 ≤ m → Cut x (items? n acc (a ++ x)) (items? m acc a)
  members : ∀ acc a, 2 * a.length + 1 ≤ m → Cut x (members? n acc (a ++ x)) (members? m acc a)

theorem cut_none {α : Type} (x : List Char) (cut : Option (α × List Char)) : Cut x none cut :=
  fun _ _ h => nomatch h

theorem cut_some {α : Type} (x : List Char) (v : α) (r : List Char) :
    Cut x (some (v, r ++ x)) (some (v, r)) := by
  rintro w t ⟨⟩
  exact .inl ⟨r, rfl, rfl⟩

namespace Cuts

variable {n m : Nat}

theorem arrayRest (hx : ∀ c ∈ x.head?, Foreign c) (h : Cuts x n m) (hm : 2 * a.length + 1 ≤ m) :
    Cut x (Json.arrayRest n (a ++ x)) (Json.arrayRest m a) := by
  conv in Json.arrayRest n _ => unfold Json.arrayRest
  split
  · next r hr =>
    obtain ⟨r', rfl, rfl⟩ := exists_of_char hx (by decide) hr
    exact cut_some x _ r'
  · next hclose =>
    rw [Json.arrayRest]
    · exact h.items [] a hm
    · rintro t rfl
      exact hclose _ rfl

theorem objectRest (hx : ∀ c ∈ x.head?, Foreign c) (h : Cuts x n m) (hm : 2 * a.length + 1 ≤ m) :
    Cut x (Json.objectRest n (a ++ x)) (Json.objectRest m a) := by
  conv in Json.objectRest n _ => unfold Json.objectRest
  split
  · next r hr =>
    obtain ⟨r', rfl, rfl⟩ := exists_of_char hx (by decide) hr
    exact cut_some x _ r'
  · next hclose =>
    rw [Json.objectRest]
    · exact h.members [] a hm
    · rintro t rfl
      exact hclose _ rfl

theorem itemRest (hx : ∀ c ∈ x.head?, Foreign c) (h : Cuts x n m) (hm : 2 * a.length ≤ m)
    (acc : List Value) : Cut x (Json.itemRest n acc (a ++ x)) (Json.itemRest m acc a) := by
  conv in Json.itemRest n _ _ => unfold Json.itemRest
  split
  · next r hr =>
    obtain ⟨r', rfl, rfl⟩ := exists_of_char hx (by decide) hr
    simp only [List.length_cons] at hm
    exact .skipSpace (f := items? n acc) (g := items? m acc) (fun s => (ending n).items acc s)
      (items?_nil m acc) fun b hb => h.items acc b (by omega)
  · next r hr =>
    obtain ⟨r', rfl, rfl⟩ := exists_of_char hx (by decide) hr
    exact cut_some x _ r'
  · exact cut_none x _

theorem memberRest (hx : ∀ c ∈ x.head?, Foreign c) (h : Cuts x n m) (hm : 2 * a.length ≤ m)
    (acc : List (String × Value)) :
    Cut x (Json.memberRest n acc (a ++ x)) (Json.memberRest m acc a) := by
  conv in Json.memberRest n _ _ => unfold Json.memberRest
  split
  · next r hr =>
    obtain ⟨r', rfl, rfl⟩ := exists_of_char hx (by decide) hr
    simp only [List.length_cons] at hm
    exact .skipSpace (f := members? n acc) (g := members? m acc)
      (fun s => (ending n).members acc s) (members?_nil m acc) fun b hb => h.members acc b (by omega)
  · next r hr =>
    obtain ⟨r', rfl, rfl⟩ := exists_of_char hx (by decide) hr
    exact cut_some x _ r'
  · exact cut_none x _

theorem nameRest (hx : ∀ c ∈ x.head?, Foreign c) (h : Cuts x n m) (hm : 2 * a.length ≤ m)
    (acc : List (String × Value)) (name : String) :
    Cut x (Json.nameRest n acc name (a ++ x)) (Json.nameRest m acc name a) := by
  conv in Json.nameRest n _ _ _ => unfold Json.nameRest
  split
  · next r hr =>
    obtain ⟨r', rfl, rfl⟩ := exists_of_char hx (by decide) hr
    simp only [List.length_cons] at hm
    have hvalue : Cut x (value? n (Json.skipSpace (r' ++ x))) (value? m (Json.skipSpace r')) :=
      .skipSpace (f := value? n) (g := value? m) (fun s => (ending n).value s) (value?_nil m)
        fun b hb => h.value b (by omega)
    refine .bind (f := fun v s => Json.memberRest n (assign name v acc) (Json.skipSpace s))
      (g := fun v s => Json.memberRest m (assign name v acc) (Json.skipSpace s)) hvalue
      (fun v s => ((ending n).memberRest _ _).skipSpace) fun v b hb => ?_
    have hlen := ((ending m).value _ v b hb).length_lt
    have hskip := length_skipSpace_le r'
    exact .skipSpace (fun s => (ending n).memberRest _ s) rfl fun b' hb' =>
      h.memberRest hx (by omega) _
  · exact cut_none x _

end Cuts

/-- Induction on the fuel of the reader of the whole text. -/
theorem cuts (hx : ∀ c ∈ x.head?, Foreign c) (n m : Nat) : Cuts x n m := by
  induction n generalizing m with
  | zero => exact ⟨fun a _ => cut_none x _, fun acc a _ => cut_none x _, fun acc a _ => cut_none x _⟩
  | succ n ih =>
    refine ⟨fun a hm => ?_, fun acc a hm => ?_, fun acc a hm => ?_⟩
    · rcases head_cases a with ⟨r, rfl⟩ | ⟨r, rfl⟩ | ⟨r, rfl⟩ | hplain
      · simp only [List.length_cons] at hm
        obtain ⟨m, rfl⟩ : ∃ k, m = k + 1 := ⟨m - 1, by omega⟩
        rw [List.cons_append, value?, value?]
        exact (string?_cut hx (Nat.lt_succ_self _) _ _).map Value.str
      · simp only [List.length_cons] at hm
        obtain ⟨m, rfl⟩ : ∃ k, m = k + 1 := ⟨m - 1, by omega⟩
        rw [List.cons_append, value?_bracket, value?_bracket]
        exact .skipSpace (fun s => (ending n).arrayRest s) (items?_nil m []) fun b hb =>
          (ih m).arrayRest hx (by omega)
      · simp only [List.length_cons] at hm
        obtain ⟨m, rfl⟩ : ∃ k, m = k + 1 := ⟨m - 1, by omega⟩
        rw [List.cons_append, value?_brace, value?_brace]
        exact .skipSpace (fun s => (ending n).objectRest s) (members?_nil m []) fun b hb =>
          (ih m).objectRest hx (by omega)
      · rw [value?_plain (head_append hx hplain), plain?_append hx]
        cases a with
        | nil => exact cut_none x _
        | cons c a =>
          simp only [List.length_cons] at hm
          obtain ⟨m, rfl⟩ : ∃ k, m = k + 1 := ⟨m - 1, by omega⟩
          rw [value?_plain hplain]
          intro v r h
          obtain ⟨⟨w, b⟩, hb, h⟩ := Option.map_eq_some_iff.1 h
          cases h
          exact .inl ⟨b, rfl, hb⟩
    · obtain ⟨m, rfl⟩ : ∃ k, m = k + 1 := ⟨m - 1, by omega⟩
      rw [items?_succ, items?_succ]
      refine .bind (f := fun v s => itemRest n (v :: acc) (skipSpace s))
        (g := fun v s => itemRest m (v :: acc) (skipSpace s)) ((ih m).value a (by omega))
        (fun v s => ((ending n).itemRest _ _).skipSpace) fun v b hb => ?_
      have hlen := ((ending m).value a v b hb).length_lt
      exact .skipSpace (fun s => (ending n).itemRest _ s) rfl fun b' hb' =>
        (ih m).itemRest hx (by omega) _
    · obtain ⟨m, rfl⟩ : ∃ k, m = k + 1 := ⟨m - 1, by omega⟩
      by_cases hquote : ∃ r, a ++ x = '"' :: r
      · obtain ⟨r, hr⟩ := hquote
        obtain ⟨r', rfl, -⟩ := exists_of_char hx (by decide) hr
        simp only [List.length_cons] at hm
        rw [List.cons_append, members?_quote, members?_quote]
        refine .bind (f := fun name s => nameRest n acc name (skipSpace s))
          (g := fun name s => nameRest m acc name (skipSpace s))
          (string?_cut hx (Nat.lt_succ_self _) _ _)
          (fun name s => ((ending n).nameRest acc name _).skipSpace) fun name b hb => ?_
        have hlen := (ended_string? _ _ _ name b hb).length_lt
        exact .skipSpace (fun s => (ending n).nameRest acc name s) rfl fun b' hb' =>
          (ih m).nameRest hx (by omega) acc name
      · rw [members?_of_ne fun r hr => hquote ⟨r, hr⟩]
        exact cut_none x _

/-- Reading a truncated text, with fuel for its length: the value of the whole text if it ends before
the place of the cut, and none otherwise. -/
theorem value?_cut (hx : ∀ c ∈ x.head?, Foreign c) {n m : Nat} (hm : 2 * a.length ≤ m) :
    Cut x (value? n (a ++ x)) (value? m a) :=
  (cuts hx n m).value a hm

/-! ### Whole texts -/

theorem value?_foreign (hx : ∀ c ∈ x.head?, Foreign c) (n : Nat) : value? n x = none := by
  cases n with
  | zero => rfl
  | succ n =>
    have hplain := value?_plain (head_append (a := []) hx (by simp)) n
    rw [plain?_append hx] at hplain
    exact hplain

/-- No value begins with a foreign character. -/
theorem read?_foreign {s : List Char} (h : ∀ c ∈ (skipSpace s).head?, Foreign c) :
    read? (String.ofList s) = none := by
  simp only [read?, String.toList_ofList, value?_foreign h]

/-- The value of a text starts after the foreign characters at its start. -/
theorem exists_value?_of_read? {ws b : List Char} {v : Value} (hws : ∀ c ∈ ws, Foreign c)
    (hb : isSpace c = false) (h : read? (String.ofList (ws ++ c :: b)) = some v) :
    ∃ n r, value? n (c :: b) = some (v, r) ∧ skipSpace r = [] := by
  by_cases hblank : skipSpace ws = []
  · have hskip : skipSpace (ws ++ c :: b) = c :: b := by
      rw [skipSpace_append, if_pos hblank, skipSpace_cons hb]
    simp only [read?, String.toList_ofList, hskip] at h
    split at h
    · next w r hread =>
      split at h
      · next hend =>
        cases h
        exact ⟨_, r, hread, List.isEmpty_iff.1 hend⟩
      · cases h
    · cases h
  · have hforeign : ∀ d ∈ (skipSpace (ws ++ c :: b)).head?, Foreign d := by
      rw [skipSpace_append, if_neg hblank]
      intro d hd
      rw [List.head?_append_of_ne_nil _ hblank] at hd
      exact hws d ((List.dropWhile_suffix _).subset (List.mem_of_mem_head? hd))
    rw [read?_foreign hforeign] at h
    cases h

theorem skipSpace_eq_self {b : List Char} (hb : ∀ c ∈ b.head?, isSpace c = false) :
    skipSpace b = b := by
  cases b with
  | nil => rfl
  | cons c b => exact skipSpace_cons (hb c rfl) b

/-- Foreign characters around a text do not matter, if it can be read with them. -/
theorem read?_trimmed {ws b : List Char} {v : Value} (hws : ∀ c ∈ ws, Foreign c)
    (hb : ∀ c ∈ b.head?, isSpace c = false) (hx : ∀ c ∈ x, Foreign c)
    (h : read? (String.ofList (ws ++ (b ++ x))) = some v) : read? (String.ofList b) = some v := by
  cases b with
  | nil =>
    have hforeign : ∀ c ∈ (skipSpace (ws ++ ([] ++ x))).head?, Foreign c := fun c hc => by
      have hmem := (List.dropWhile_suffix _).subset (List.mem_of_mem_head? hc)
      rcases List.mem_append.1 hmem with hmem | hmem
      · exact hws c hmem
      · exact hx c hmem
    rw [read?_foreign hforeign] at h
    cases h
  | cons c b =>
    obtain ⟨n, r, hread, hend⟩ := exists_value?_of_read? hws (hb c rfl) h
    obtain ⟨r', rfl⟩ := Ends.exists_append (a := c :: b) hx ((ending n).value _ v r hread)
    have hcut := value?_cut (a := c :: b) (fun d hd => hx d (List.mem_of_mem_head? hd))
      (n := n) (m := 2 * (c :: b).length + 1) (by omega) v _ hread
    rcases hcut with ⟨r₁, heq, hvalue⟩ | ⟨hlen, -⟩
    · obtain rfl := List.append_cancel_right heq
      have hend' : skipSpace r' = [] := by
        rw [skipSpace_append] at hend
        split at hend
        · assumption
        · exact (List.append_eq_nil_iff.1 hend).1
      simp only [read?, String.toList_ofList, skipSpace_eq_self hb, hvalue, hend',
        List.isEmpty_nil, if_true]
    · rw [List.length_append] at hlen
      omega

/-- What is left of a readable text cannot be read, if it is cut before a character that stands after
no value. -/
theorem read?_truncated {ws b : List Char} (hws : ∀ c ∈ ws, Foreign c)
    (hb : ∀ c ∈ b.head?, isSpace c = false) (hx : ∀ c ∈ x.head?, Foreign c)
    (hmore : ∃ c ∈ x, isSpace c = false)
    (h : (read? (String.ofList (ws ++ (b ++ x)))).isSome = true) :
    read? (String.ofList b) = none := by
  obtain ⟨v, h⟩ := Option.isSome_iff_exists.1 h
  cases b with
  | nil => rfl
  | cons c b =>
    obtain ⟨n, r, hread, hend⟩ := exists_value?_of_read? hws (hb c rfl) h
    have hcut := value?_cut (a := c :: b) hx (n := n) (m := 2 * (c :: b).length + 1) (by omega) v _
      hread
    rcases hcut with ⟨r', rfl, -⟩ | ⟨-, hnone⟩
    · obtain ⟨d, hd, hspace⟩ := hmore
      have hall := List.dropWhile_eq_nil_iff.1 hend d (List.mem_append_right r' hd)
      rw [hspace] at hall
      cases hall
    · simp only [read?, String.toList_ofList, skipSpace_eq_self hb, hnone]

end TieredMemory.Json
