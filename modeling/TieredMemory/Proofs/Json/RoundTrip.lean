import Mathlib
import TieredMemory.Json.Reader
import TieredMemory.Json.Writer
import TieredMemory.Proofs.Text.Digits

/-!
# Written JSON is read back

What the writer writes is what the reader reads: one character of a string, escaped or not
(`stringChar?_writtenChar`), a whole string (`value?_writtenString`), an array of texts
(`read?_writtenStrings`) and an object of truth values (`read?_writtenBools`). The fuel of the reader is
the length of the text, and every character that is written takes at least one.
-/

namespace TieredMemory.Json

open Text

/-! ### Characters -/

theorem hexDigit?_digitChar {d : Nat} (h : d < 16) : hexDigit? (Nat.digitChar d) = some d := by
  interval_cases d <;> rfl

/-- An escaped unit is read back. -/
theorem exists_unitEscape_eq {n : Nat} (h : n < 0x10000) :
    ∃ a b c d, unitEscape n = ['\\', 'u', a, b, c, d] ∧ hexQuad? a b c d = some n := by
  have he : unitEscape n = '\\' :: 'u' :: fixedDigits 16 4 n := by
    rw [unitEscape, hexadecimal_eq (by omega) (by omega)]
  refine ⟨_, _, _, _, he, ?_⟩
  simp only [hexQuad?]
  rw [hexDigit?_digitChar (by omega), hexDigit?_digitChar (by omega), hexDigit?_digitChar (by omega),
    hexDigit?_digitChar (by omega)]
  simp only [bind, Option.bind_some, pure, Option.some.injEq]
  omega

/-- An escaped unit that is not a first half is no pair. -/
theorem surrogatePair?_unitEscape {n : Nat} (h : n < 0x10000) (hn : isHighHalf n = false)
    (r : List Char) : surrogatePair? (unitEscape n ++ r) = none := by
  obtain ⟨a, b, c, d, he, hq⟩ := exists_unitEscape_eq h
  rw [he]
  simp only [List.cons_append, List.nil_append]
  unfold surrogatePair?
  split
  · next heq =>
    simp only [List.cons.injEq, true_and] at heq
    obtain ⟨rfl, rfl, rfl, rfl, -⟩ := heq
    rw [hq]
    simp [hn]
  · rfl

theorem surrogatePair?_of_ne {c : Char} (h : c ≠ '\\') (r : List Char) :
    surrogatePair? (c :: r) = none := by
  unfold surrogatePair?
  split
  · simp_all
  · rfl

theorem stringChar?_unitEscape {n : Nat} (h : n < 0x10000) (hh : isHighHalf n = false)
    (hl : isLowHalf n = false) (r : List Char) :
    stringChar? (unitEscape n ++ r) = some (Char.ofNat n, r) := by
  obtain ⟨a, b, c, d, he, hq⟩ := exists_unitEscape_eq h
  have hpair := surrogatePair?_unitEscape h hh r
  rw [he] at hpair ⊢
  simp only [List.cons_append, List.nil_append] at hpair ⊢
  simp [stringChar?, hpair, hq, unitChar, hh, hl]

theorem stringChar?_surrogatePair {hi lo : Nat} (hh : isHighHalf hi = true)
    (hl : isLowHalf lo = true) (r : List Char) :
    stringChar? (unitEscape hi ++ (unitEscape lo ++ r)) =
      some (Char.ofNat (0x10000 + (hi - 0xD800) * 0x400 + (lo - 0xDC00)), r) := by
  have hhi : hi < 0x10000 := by
    simp only [isHighHalf, Bool.and_eq_true, decide_eq_true_eq] at hh
    omega
  have hlo : lo < 0x10000 := by
    simp only [isLowHalf, Bool.and_eq_true, decide_eq_true_eq] at hl
    omega
  obtain ⟨a, b, c, d, he, hq⟩ := exists_unitEscape_eq hhi
  obtain ⟨a', b', c', d', he', hq'⟩ := exists_unitEscape_eq hlo
  rw [he, he']
  simp [stringChar?, surrogatePair?, hq, hq', hh, hl]

theorem stringChar?_plain {c : Char} (hb : c ≠ '\\') (hc : ¬ c.toNat < 0x20) (r : List Char) :
    stringChar? (c :: r) = some (c, r) := by
  rw [stringChar?, surrogatePair?_of_ne hb]
  simp only
  split
  · simp_all
  · simp_all
  · simp_all
  · simp_all
  · simp_all

/-- A written character is read back, whatever follows it. -/
theorem stringChar?_writtenChar (c : Char) (r : List Char) :
    stringChar? (writtenChar c ++ r) = some (c, r) := by
  unfold writtenChar
  split_ifs with h1 h2 h3 h4 h5 h6 h7 hplain hunit
  · subst h1; rfl
  · subst h2; rfl
  · subst h3; rfl
  · subst h4; rfl
  · subst h5; rfl
  · subst h6; rfl
  · subst h7; rfl
  · exact stringChar?_plain h2 (by omega) r
  · -- a character is not half a pair
    have hvalid : c.toNat < 0xD800 ∨ 0xDFFF < c.toNat ∧ c.toNat < 0x110000 := c.valid
    have hh : isHighHalf c.toNat = false := by
      simp only [isHighHalf, Bool.and_eq_false_iff, decide_eq_false_iff_not]
      omega
    have hl : isLowHalf c.toNat = false := by
      simp only [isLowHalf, Bool.and_eq_false_iff, decide_eq_false_iff_not]
      omega
    rw [stringChar?_unitEscape hunit hh hl, Char.ofNat_toNat]
  · have hvalid : c.toNat < 0xD800 ∨ 0xDFFF < c.toNat ∧ c.toNat < 0x110000 := c.valid
    obtain ⟨n, hn⟩ : ∃ n, n = c.toNat := ⟨_, rfl⟩
    rw [← hn] at hvalid hunit ⊢
    have hh : isHighHalf (0xD800 + (n - 0x10000) / 0x400) = true := by
      simp only [isHighHalf, Bool.and_eq_true, decide_eq_true_eq]
      omega
    have hl : isLowHalf (0xDC00 + (n - 0x10000) % 0x400) = true := by
      simp only [isLowHalf, Bool.and_eq_true, decide_eq_true_eq]
      omega
    have hsum : 0x10000 + (0xD800 + (n - 0x10000) / 0x400 - 0xD800) * 0x400 +
        (0xDC00 + (n - 0x10000) % 0x400 - 0xDC00) = n := by
      omega
    rw [List.append_assoc, stringChar?_surrogatePair hh hl, hsum, hn, Char.ofNat_toNat]

/-! ### Strings -/

/-- A written character is not empty, and does not begin like the end of a string. -/
theorem exists_writtenChar_eq (c : Char) : ∃ x r, writtenChar c = x :: r ∧ x ≠ '"' := by
  unfold writtenChar
  split_ifs with h1
  all_goals first
    | exact ⟨_, _, rfl, by decide⟩
    | exact ⟨_, _, rfl, h1⟩

theorem string?_quote (fuel : Nat) (acc r : List Char) :
    string? (fuel + 1) acc ('"' :: r) = some (String.ofList acc.reverse, r) := by
  simp [string?]

theorem string?_writtenChar (fuel : Nat) (acc : List Char) (c : Char) (r : List Char) :
    string? (fuel + 1) acc (writtenChar c ++ r) = string? fuel (c :: acc) r := by
  have hread := stringChar?_writtenChar c r
  obtain ⟨x, cs, he, hx⟩ := exists_writtenChar_eq c
  rw [he] at hread ⊢
  simp only [List.cons_append] at hread ⊢
  rw [string?, hread]
  · rfl
  · simp_all

/-- The rest of a written string is read back, with a step for each character. -/
theorem string?_written (cs : List Char) (fuel : Nat) (acc r : List Char) (h : cs.length < fuel) :
    string? fuel acc (cs.flatMap writtenChar ++ '"' :: r) =
      some (String.ofList (acc.reverse ++ cs), r) := by
  induction cs generalizing fuel acc with
  | nil =>
    obtain ⟨fuel, rfl⟩ : ∃ n, fuel = n + 1 := ⟨fuel - 1, by omega⟩
    simpa using string?_quote fuel acc r
  | cons c cs ih =>
    simp only [List.length_cons] at h
    obtain ⟨fuel, rfl⟩ : ∃ n, fuel = n + 1 := ⟨fuel - 1, by omega⟩
    rw [List.flatMap_cons, List.append_assoc, string?_writtenChar, ih fuel (c :: acc) (by omega)]
    simp

theorem length_le_flatMap_writtenChar (cs : List Char) :
    cs.length ≤ (cs.flatMap writtenChar).length := by
  induction cs with
  | nil => simp
  | cons c cs ih =>
    obtain ⟨x, r, he, -⟩ := exists_writtenChar_eq c
    simp only [List.flatMap_cons, he, List.length_cons, List.length_append]
    omega

/-- What a reader has after the opening quote of a written string. -/
theorem string?_writtenString (s : String) (r : List Char) :
    string? ((s.toList.flatMap writtenChar ++ '"' :: r).length + 1) []
      (s.toList.flatMap writtenChar ++ '"' :: r) = some (s, r) := by
  have h := length_le_flatMap_writtenChar s.toList
  rw [string?_written _ _ _ _ (by simp only [List.length_append]; omega)]
  simp

theorem writtenString_append (s : String) (r : List Char) :
    writtenString s ++ r = '"' :: (s.toList.flatMap writtenChar ++ '"' :: r) := by
  simp [writtenString]

/-- A written string is read back. -/
theorem value?_writtenString (fuel : Nat) (s : String) (r : List Char) :
    value? (fuel + 1) (writtenString s ++ r) = some (.str s, r) := by
  rw [writtenString_append, value?, string?_writtenString]
  rfl

theorem value?_writtenBool (fuel : Nat) (b : Bool) (r : List Char) :
    value? (fuel + 1) (writtenBool b ++ r) = some (.bool b, r) := by
  cases b <;> simp [writtenBool, value?]

/-! ### Arrays and objects -/

theorem skipSpace_cons {c : Char} (h : isSpace c = false) (r : List Char) :
    skipSpace (c :: r) = c :: r := by
  simp [skipSpace, h]

/-- The separator is passed over. -/
theorem skipSpace_space {c : Char} (h : isSpace c = false) (r : List Char) :
    skipSpace (' ' :: c :: r) = c :: r := by
  simp [skipSpace, h, show isSpace ' ' = true from rfl]

theorem skipSpace_writtenBool (b : Bool) (r : List Char) :
    skipSpace (' ' :: (writtenBool b ++ r)) = writtenBool b ++ r := by
  cases b <;> rfl

theorem separated_cons_cons (a b : List Char) (r : List (List Char)) :
    separated (a :: b :: r) = a ++ ',' :: ' ' :: separated (b :: r) := rfl

/-- Items after a written string begin with its quote. -/
theorem exists_separated_eq (s : String) (q : List Char) (r : List (List Char)) :
    ∃ t, separated ((writtenString s ++ q) :: r) = '"' :: t := by
  cases r with
  | nil => exact ⟨_, writtenString_append s q⟩
  | cons a r => exact ⟨_, by rw [separated_cons_cons, writtenString_append, List.cons_append]⟩

theorem skipSpace_separated (s : String) (q : List Char) (r : List (List Char)) (t : List Char) :
    skipSpace (' ' :: (separated ((writtenString s ++ q) :: r) ++ t)) =
      separated ((writtenString s ++ q) :: r) ++ t := by
  obtain ⟨t', ht⟩ := exists_separated_eq s q r
  rw [ht, List.cons_append, skipSpace_space (by decide)]

/-- The items of a written array of texts are read back, with two steps for the last one. -/
theorem items?_written (s : String) (xs : List String) (fuel : Nat) (acc : List Value)
    (r : List Char) (h : xs.length + 1 < fuel) :
    items? fuel acc (separated ((s :: xs).map writtenString) ++ ']' :: r) =
      some (.arr (acc.reverse ++ (s :: xs).map .str), r) := by
  induction xs generalizing s fuel acc with
  | nil =>
    obtain ⟨fuel, rfl⟩ : ∃ n, fuel = n + 2 := ⟨fuel - 2, by omega⟩
    simp [separated, items?, value?_writtenString, skipSpace_cons (show isSpace ']' = false by rfl)]
  | cons t xs ih =>
    simp only [List.length_cons] at h
    obtain ⟨fuel, rfl⟩ : ∃ n, fuel = n + 2 := ⟨fuel - 2, by omega⟩
    have htail := ih t (fuel + 1) (.str s :: acc) (by omega)
    have hskip := skipSpace_separated t [] (xs.map writtenString) (']' :: r)
    simp only [List.map_cons, List.append_nil] at htail hskip ⊢
    rw [separated_cons_cons, List.append_assoc, items?, value?_writtenString]
    simp only [List.cons_append, skipSpace_cons (show isSpace ',' = false by rfl)]
    rw [hskip, htail]
    simp

/-- The members of a written object of truth values are read back, as the items of an array are. -/
theorem members?_written (m : String × Bool) (ms : List (String × Bool)) (fuel : Nat)
    (acc : List (String × Value)) (r : List Char) (h : ms.length + 1 < fuel) :
    members? fuel acc (separated ((m :: ms).map writtenMember) ++ '\x7d' :: r) =
      some (.obj ((m :: ms).foldl (fun acc m => assign m.1 (.bool m.2) acc) acc), r) := by
  induction ms generalizing m fuel acc with
  | nil =>
    obtain ⟨fuel, rfl⟩ : ∃ n, fuel = n + 2 := ⟨fuel - 2, by omega⟩
    simp only [List.map_cons, List.map_nil, separated, writtenMember, List.append_assoc,
      List.cons_append]
    rw [writtenString_append, members?, string?_writtenString]
    simp only [skipSpace_cons (show isSpace ':' = false by rfl), skipSpace_writtenBool,
      value?_writtenBool, skipSpace_cons (show isSpace '\x7d' = false by rfl)]
    rfl
  | cons n ms ih =>
    simp only [List.length_cons] at h
    obtain ⟨fuel, rfl⟩ : ∃ n, fuel = n + 2 := ⟨fuel - 2, by omega⟩
    have htail := ih n (fuel + 1) (assign m.1 (.bool m.2) acc) (by omega)
    have hskip := skipSpace_separated n.1 (':' :: ' ' :: writtenBool n.2) (ms.map writtenMember)
      ('\x7d' :: r)
    rw [← writtenMember] at hskip
    simp only [List.map_cons, List.foldl_cons] at htail hskip ⊢
    rw [separated_cons_cons]
    nth_rewrite 1 [writtenMember]
    simp only [List.append_assoc, List.cons_append]
    rw [writtenString_append, members?, string?_writtenString]
    simp only [skipSpace_cons (show isSpace ':' = false by rfl), skipSpace_writtenBool,
      value?_writtenBool, skipSpace_cons (show isSpace ',' = false by rfl)]
    rw [hskip, htail]

theorem length_le_separated (ws : List (List Char)) (h : ∀ w ∈ ws, w ≠ []) :
    ws.length ≤ (separated ws).length := by
  induction ws with
  | nil => simp
  | cons w ws ih =>
    have hw : 0 < w.length := List.length_pos_iff.2 (h w (List.mem_cons_self ..))
    have hws := ih fun v hv => h v (List.mem_cons_of_mem _ hv)
    cases ws with
    | nil => simpa [separated, Nat.succ_le_iff] using hw
    | cons v ws =>
      rw [separated_cons_cons]
      simp only [List.length_cons, List.length_append] at hws ⊢
      omega

/-- The members of an object of truth values. -/
def boolMembers (ms : List (String × Bool)) : List (String × Value) :=
  ms.foldl (fun acc m => assign m.1 (.bool m.2) acc) []

theorem value?_array (s : String) (xs : List String) (fuel : Nat) (r : List Char)
    (h : xs.length + 1 < fuel) :
    value? (fuel + 1) ('[' :: (separated ((s :: xs).map writtenString) ++ ']' :: r)) =
      some (.arr ((s :: xs).map .str), r) := by
  have hitems := items?_written s xs fuel [] r h
  obtain ⟨t, ht⟩ := exists_separated_eq s [] (xs.map writtenString)
  simp only [List.map_cons, List.append_nil] at ht hitems ⊢
  rw [ht, List.cons_append] at hitems ⊢
  rw [value?, skipSpace_cons (by decide)]
  simpa using hitems

theorem value?_object (m : String × Bool) (ms : List (String × Bool)) (fuel : Nat) (r : List Char)
    (h : ms.length + 1 < fuel) :
    value? (fuel + 1) ('\x7b' :: (separated ((m :: ms).map writtenMember) ++ '\x7d' :: r)) =
      some (.obj (boolMembers (m :: ms)), r) := by
  have hmembers := members?_written m ms fuel [] r h
  obtain ⟨t, ht⟩ := exists_separated_eq m.1 (':' :: ' ' :: writtenBool m.2) (ms.map writtenMember)
  rw [← writtenMember] at ht
  simp only [List.map_cons] at hmembers ⊢
  rw [ht, List.cons_append] at hmembers ⊢
  rw [value?, skipSpace_cons (by decide)]
  simpa [boolMembers] using hmembers

/-- A text that is one value is read as this value. -/
theorem read?_of_value? {c : Char} {cs : List Char} {v : Value} (hc : isSpace c = false)
    (h : value? (2 * (c :: cs).length + 1) (c :: cs) = some (v, [])) :
    read? (String.ofList (c :: cs)) = some v := by
  simp only [read?, String.toList_ofList]
  rw [skipSpace_cons hc, h]
  rfl

/-- A written array of texts is read back. -/
theorem read?_writtenStrings (xs : List String) :
    read? (writtenStrings xs) = some (.arr (xs.map .str)) := by
  refine read?_of_value? (by decide) ?_
  cases xs with
  | nil => rfl
  | cons s xs =>
    have hlen := length_le_separated ((s :: xs).map writtenString) (by simp [writtenString])
    refine value?_array s xs _ [] ?_
    simp only [List.length_map, List.length_cons, List.length_append] at hlen ⊢
    omega

/-- A written object of truth values is read back; where a name is given twice, the last one
counts. -/
theorem read?_writtenBools (ms : List (String × Bool)) :
    read? (writtenBools ms) = some (.obj (boolMembers ms)) := by
  refine read?_of_value? (by decide) ?_
  cases ms with
  | nil => rfl
  | cons m ms =>
    have hlen := length_le_separated ((m :: ms).map writtenMember) fun w hw => by
      obtain ⟨m, -, rfl⟩ := List.mem_map.1 hw
      simp [writtenMember, writtenString]
    refine value?_object m ms _ [] ?_
    simp only [List.length_map, List.length_cons, List.length_append] at hlen ⊢
    omega

end TieredMemory.Json
