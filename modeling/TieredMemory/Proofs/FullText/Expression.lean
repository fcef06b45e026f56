import TieredMemory.FullText.Expression
import TieredMemory.Proofs.Keywords

/-!
# Search expressions hold nothing but literals

The language of search expressions has more than literals in quotes: bare words, some of which are
operators, and marks that group and restrict (`Symbol`). Its symbols are read from left to right
(`symbols?`). A literal with its quotes written twice is read as one symbol, whatever stands in it
(`symbols?_literal`), so that the symbols of an expression are its literals with an `OR` between each two
of them (`symbols?_joined`). The reader of the search accepts literals that are joined in this way and
nothing else (`readExpression?_eq_some_iff`). The expression of a query therefore asks for the literals
of the query and for nothing that the query itself would spell (`expression_holds_literals`).
-/

namespace TieredMemory.FullText

/-! ### Reading a literal -/

theorem takeLiteral_doubled (s : List Char) {r : List Char} (hr : r.head? ≠ some '"') :
    takeLiteral (doubled s ++ '"' :: r) = some (s, r) := by
  induction s with
  | nil =>
    cases r with
    | nil => rfl
    | cons c r =>
      have hc : c ≠ '"' := by simpa using hr
      simp [doubled, takeLiteral, hc]
  | cons c s ih =>
    by_cases hc : c = '"'
    · simp [doubled, hc, takeLiteral, ih]
    · simp [doubled, hc, takeLiteral, ih]

/-- A literal ends with the first quote that stands alone. -/
theorem eq_of_takeLiteral {s l r : List Char} (h : takeLiteral s = some (l, r)) :
    s = doubled l ++ '"' :: r ∧ r.head? ≠ some '"' := by
  fun_induction takeLiteral s generalizing l with
  | case1 => cases h
  | case2 s ih =>
    obtain ⟨⟨l', r'⟩, hrest, he⟩ := Option.map_eq_some_iff.1 h
    cases he
    obtain ⟨hs, hr⟩ := ih hrest
    exact ⟨by rw [hs]; simp [doubled], hr⟩
  | case3 s hs =>
    cases h
    refine ⟨rfl, fun hhead => ?_⟩
    obtain ⟨r', rfl⟩ : ∃ r', r = '"' :: r' := by
      cases r with
      | nil => cases hhead
      | cons c r' => exact ⟨r', by simpa using hhead⟩
    exact hs r' rfl rfl
  | case4 c s hs hc ih =>
    obtain ⟨⟨l', r'⟩, hrest, he⟩ := Option.map_eq_some_iff.1 h
    cases he
    obtain ⟨hs, hr⟩ := ih hrest
    exact ⟨by rw [hs]; simp [doubled, hc], hr⟩

theorem length_of_takeLiteral {s l r : List Char} (h : takeLiteral s = some (l, r)) :
    r.length < s.length := by
  rw [(eq_of_takeLiteral h).1, List.length_append, List.length_cons]
  omega

/-! ### The symbols of the language -/

/-- A symbol of the language of search expressions. -/
inductive Symbol where
  /-- What stands in quotes, with a quote in it written once. -/
  | literal (text : List Char)
  /-- Characters without quotes, an operator or a term. -/
  | word (text : List Char)
  /-- A mark that joins, groups or restricts what stands beside it. -/
  | mark (c : Char)
  deriving DecidableEq

/-- The character separates symbols. -/
def isSeparator (c : Char) : Bool := c == ' ' || c == '\t' || c == '\n' || c == '\r'

/-- The character is a mark of its own. -/
def isPunctuation (c : Char) : Bool :=
  ['(', ')', '\x7b', '\x7d', ':', ',', '+', '*', '-', '^'].contains c

/-- The character may stand in a word. -/
def isWordChar (c : Char) : Bool :=
  c.isAlphanum || c == '_' || c == '\x1a' || decide (128 ≤ c.toNat)

/-- The symbols from left to right. A literal that does not end is refused, and so is a character that no
symbol begins with. -/
def symbols? : List Char → Option (List Symbol)
  | [] => some []
  | c :: r =>
    if isSeparator c then symbols? r
    else if isPunctuation c then (symbols? r).map (.mark c :: ·)
    else if c = '"' then
      match _h : takeLiteral r with
      | none => none
      | some (l, rest) => (symbols? rest).map (.literal l :: ·)
    else if isWordChar c then
      (symbols? (r.dropWhile isWordChar)).map (.word (c :: r.takeWhile isWordChar) :: ·)
    else none
termination_by s => s.length
decreasing_by
  · exact Nat.lt_succ_self _
  · exact Nat.lt_succ_self _
  · exact Nat.lt_succ_of_lt (length_of_takeLiteral _h)
  · exact Nat.lt_succ_of_le (List.length_dropWhile_le _ _)

/-- A literal is one symbol, whatever stands in it. -/
theorem symbols?_literal (s : List Char) {r : List Char} (hr : r.head? ≠ some '"') :
    symbols? (literal s ++ r) = (symbols? r).map (.literal s :: ·) := by
  have htake := takeLiteral_doubled s hr
  have hshape : literal s ++ r = '"' :: (doubled s ++ '"' :: r) := by simp [literal]
  rw [hshape, symbols?]
  simp only [show isSeparator '"' = false by decide, show isPunctuation '"' = false by decide,
    Bool.false_eq_true, if_false, if_true]
  split
  · next hnone => simp [htake] at hnone
  · next l rest hsome =>
    rw [htake] at hsome
    cases hsome
    rfl

theorem symbols?_space (r : List Char) : symbols? (' ' :: r) = symbols? r := by
  rw [symbols?, if_pos (by decide)]

theorem symbols?_or (r : List Char) :
    symbols? ([' ', 'O', 'R', ' '] ++ r) = (symbols? r).map (.word ['O', 'R'] :: ·) := by
  have hword : isWordChar 'R' = true ∧ isWordChar ' ' = false := by decide
  have htake : ('R' :: ' ' :: r).takeWhile isWordChar = ['R'] := by simp [hword]
  have hdrop : ('R' :: ' ' :: r).dropWhile isWordChar = ' ' :: r := by simp [hword]
  simp only [List.cons_append, List.nil_append]
  rw [symbols?_space, symbols?, if_neg (by decide), if_neg (by decide), if_neg (by decide),
    if_pos (by decide), htake, hdrop, symbols?_space]

/-- The symbols of literals that are joined are the literals with an `OR` between each two. -/
theorem symbols?_joined (s : List Char) (ls : List (List Char)) :
    symbols? (joined (s :: ls)) =
      some (((s :: ls).map Symbol.literal).intersperse (.word ['O', 'R'])) := by
  induction ls generalizing s with
  | nil =>
    have h := symbols?_literal s (r := []) (by simp)
    rw [List.append_nil] at h
    rw [joined, h, symbols?]
    rfl
  | cons t ls ih =>
    rw [joined.eq_3 _ _ (by simp), List.append_assoc, symbols?_literal s (by simp), symbols?_or, ih]
    rfl

/-! ### The reader of the search -/

theorem length_le_joined (ls : List (List Char)) : ls.length ≤ (joined ls).length := by
  fun_induction joined ls with
  | case1 => exact Nat.le_refl 0
  | case2 s => simp [literal]
  | case3 s r hr ih =>
    simp only [literal, List.length_cons, List.length_append]
    omega

theorem literals?_joined (s : List Char) (ls : List (List Char)) {fuel : Nat}
    (h : ls.length < fuel) : literals? fuel (joined (s :: ls)) = some (s :: ls) := by
  induction ls generalizing s fuel with
  | nil =>
    obtain ⟨fuel, rfl⟩ : ∃ k, fuel = k + 1 := ⟨fuel - 1, by omega⟩
    have htake := takeLiteral_doubled s (r := []) (by simp)
    simp only [joined, literal, List.cons_append, literals?, htake]
  | cons t ls ih =>
    obtain ⟨fuel, rfl⟩ : ∃ k, fuel = k + 1 := ⟨fuel - 1, by omega⟩
    have htake := takeLiteral_doubled s (r := [' ', 'O', 'R', ' '] ++ joined (t :: ls)) (by simp)
    rw [List.length_cons] at h
    simp only [List.cons_append, List.nil_append] at htake
    simp only [joined, literal, List.cons_append, List.nil_append, List.append_assoc, literals?, htake,
      ih t (by omega : ls.length < fuel), Option.map_some]

/-- What is read are joined literals. -/
theorem eq_joined_of_literals? {fuel : Nat} {s : List Char} {ls : List (List Char)}
    (h : literals? fuel s = some ls) : ls ≠ [] ∧ s = joined ls := by
  fun_induction literals? fuel s generalizing ls with
  | case1 => cases h
  | case2 => cases h
  | case3 fuel r l htake =>
    cases h
    obtain ⟨rfl, -⟩ := eq_of_takeLiteral htake
    simp [joined, literal]
  | case4 fuel r l rest htake ih =>
    obtain ⟨ls', hrest, rfl⟩ := Option.map_eq_some_iff.1 h
    obtain ⟨hne, rfl⟩ := ih hrest
    obtain ⟨rfl, -⟩ := eq_of_takeLiteral htake
    refine ⟨List.cons_ne_nil _ _, ?_⟩
    rw [joined.eq_3 _ _ hne]
    simp [literal]
  | case5 => cases h
  | case6 => cases h

theorem literals?_eq_some_iff {fuel : Nat} {s : List Char} (h : s.length < fuel)
    {ls : List (List Char)} : literals? fuel s = some ls ↔ ls ≠ [] ∧ s = joined ls := by
  refine ⟨eq_joined_of_literals?, ?_⟩
  rintro ⟨hne, rfl⟩
  have hlength := length_le_joined ls
  cases ls with
  | nil => exact absurd rfl hne
  | cons l ls => exact literals?_joined l ls (by rw [List.length_cons] at hlength; omega)

/-- An expression is read exactly if it joins literals, and then they are read. -/
theorem readExpression?_eq_some_iff {s : String} {ls : List String} :
    readExpression? s = some ls ↔
      ls ≠ [] ∧ s.toList.takeWhile (· != '\x00') = joined (ls.map String.toList) := by
  simp only [readExpression?, Option.map_eq_some_iff,
    literals?_eq_some_iff (Nat.lt_succ_self _)]
  constructor
  · rintro ⟨l, ⟨hne, hl⟩, rfl⟩
    exact ⟨by simpa using hne, by simpa using hl⟩
  · rintro ⟨hne, hl⟩
    exact ⟨ls.map String.toList, ⟨by simpa using hne, hl⟩, by simp⟩

/-! ### The end of an expression -/

/-- The symbols of a written expression, which ends at the first U+0000. -/
def readSymbols? (s : String) : Option (List Symbol) :=
  symbols? (s.toList.takeWhile (· != '\x00'))

theorem mem_doubled {c : Char} {s : List Char} : c ∈ doubled s ↔ c ∈ s := by
  fun_induction doubled s with
  | case1 => rfl
  | case2 r ih => simp [ih]
  | case3 d r hd ih => simp [ih]

theorem joined_eq_intercalate (ls : List (List Char)) :
    joined ls = [' ', 'O', 'R', ' '].intercalate (ls.map literal) := by
  fun_induction joined ls with
  | case1 => rfl
  | case2 s => simp [List.intercalate]
  | case3 s r hr ih =>
    cases r with
    | nil => exact absurd rfl hr
    | cons t r => rw [ih]; simp [List.intercalate]

/-- A character that joins no literals stands in the literals or not at all. -/
theorem mem_joined_iff {c : Char} (hc : c ∉ ['"', ' ', 'O', 'R']) {ls : List (List Char)} :
    c ∈ joined ls ↔ ∃ l ∈ ls, c ∈ l := by
  simp only [List.mem_cons, List.not_mem_nil, or_false, not_or] at hc
  obtain ⟨hquote, hspace, ho, hr⟩ := hc
  fun_induction joined ls with
  | case1 => simp
  | case2 s => simp [literal, mem_doubled, hquote]
  | case3 s r hne ih => simp [literal, mem_doubled, hquote, hspace, ho, hr, ih]

/-- Literals without U+0000 are read whole. -/
theorem takeWhile_joined {ls : List (List Char)} (h : ∀ l ∈ ls, '\x00' ∉ l) :
    (joined ls).takeWhile (· != '\x00') = joined ls := by
  refine List.takeWhile_eq_self_iff.2 fun c hc => bne_iff_ne.2 ?_
  rintro rfl
  obtain ⟨l, hl, hmem⟩ := (mem_joined_iff (by decide)).1 hc
  exact h l hl hmem

/-! ### The expression of a query -/

/-- What a search for the query asks for: its distinct tokens that are not stop words, in code point
order, or the query as it stands if it has no such token. -/
structure Sought (query : String) (literals : List String) : Prop where
  tokens : (∃ t ∈ Keywords.tokens query, t ∉ Keywords.stopWords) →
    literals.Pairwise (· < ·) ∧
      ∀ t, t ∈ literals ↔ t ∈ Keywords.tokens query ∧ t ∉ Keywords.stopWords
  whole : (∀ t ∈ Keywords.tokens query, t ∈ Keywords.stopWords) → literals = [query]

theorem literalsOf_eq_or (query : String) :
    (Keywords.contentTokens query = [] ∧ literalsOf query = [query]) ∨
      (Keywords.contentTokens query ≠ [] ∧ literalsOf query = Keywords.contentTokens query) := by
  by_cases hnone : Keywords.contentTokens query = []
  · exact .inl ⟨hnone, by simp [literalsOf, hnone]⟩
  · exact .inr ⟨hnone, by simp [literalsOf, hnone]⟩

theorem sought_literalsOf (query : String) : Sought query (literalsOf query) := by
  obtain ⟨hnone, hliterals⟩ | ⟨hsome, hliterals⟩ := literalsOf_eq_or query
  · have hstop := Keywords.contentTokens_eq_nil_iff.1 hnone
    exact ⟨fun ⟨t, ht, hcontent⟩ => absurd (hstop t ht) hcontent, fun _ => hliterals⟩
  · rw [hliterals]
    exact ⟨fun _ => ⟨Keywords.pairwise_contentTokens query, fun _ => Keywords.mem_contentTokens⟩,
      fun hstop => absurd (Keywords.contentTokens_eq_nil_iff.2 hstop) hsome⟩

theorem literalsOf_ne_nil (query : String) : literalsOf query ≠ [] := by
  obtain ⟨-, hliterals⟩ | ⟨hsome, hliterals⟩ := literalsOf_eq_or query
  · rw [hliterals]
    exact List.cons_ne_nil _ _
  · rwa [hliterals]

/-- Tokens have no U+0000, so a literal has one only if the query does. -/
theorem notMem_of_mem_literalsOf {query l : String} (h : '\x00' ∉ query.toList)
    (hl : l ∈ literalsOf query) : '\x00' ∉ l.toList := by
  obtain ⟨-, hliterals⟩ | ⟨-, hliterals⟩ := literalsOf_eq_or query
  · rw [hliterals] at hl
    rwa [List.mem_singleton.1 hl]
  · intro hmem
    rw [hliterals] at hl
    have htoken := (Keywords.mem_contentTokens.1 hl).1
    exact absurd (Keywords.mem_of_mem_tokens htoken _ hmem).1 (by decide)

/-- The expression of a query joins quoted literals by `OR`. Its symbols are these literals and the `OR`
between each two, so nothing in the query is read as an operator, and the search reads from it exactly
what the query asks for. -/
theorem expression_holds_literals {query : String} (h : '\x00' ∉ query.toList) :
    ∃ literals, Sought query literals ∧
      (expression query).toList =
        [' ', 'O', 'R', ' '].intercalate (literals.map fun l => literal l.toList) ∧
      readSymbols? (expression query) = some
        ((literals.map fun l => Symbol.literal l.toList).intersperse (.word ['O', 'R'])) ∧
      readExpression? (expression query) = some literals := by
  have hne := literalsOf_ne_nil query
  have hread : (expression query).toList.takeWhile (· != '\x00') =
      joined ((literalsOf query).map String.toList) := by
    rw [expression, String.toList_ofList]
    exact takeWhile_joined (List.forall_mem_map.2 fun l hl => notMem_of_mem_literalsOf h hl)
  refine ⟨literalsOf query, sought_literalsOf query, ?_, ?_,
    readExpression?_eq_some_iff.2 ⟨hne, hread⟩⟩
  · rw [expression, String.toList_ofList, joined_eq_intercalate, List.map_map]
    rfl
  · obtain ⟨l, ls, hliterals⟩ := List.exists_cons_of_ne_nil hne
    rw [readSymbols?, hread, hliterals, List.map_cons, symbols?_joined, ← List.map_cons, List.map_map]
    rfl

/-- A query of marks and a stop word is looked for as it stands, with its quotes doubled. -/
theorem expression_holds_literals_marks :
    '\x00' ∉ "\" OR *:(\"".toList ∧
      expression "\" OR *:(\"" = "\"\"\" OR *:(\"\"\"" ∧
      readExpression? (expression "\" OR *:(\"") = some ["\" OR *:(\""] := by
  have hnul : '\x00' ∉ "\" OR *:(\"".toList := by decide +kernel
  have hstop : ∀ t ∈ Keywords.tokens "\" OR *:(\"", t ∈ Keywords.stopWords := by decide +kernel
  obtain ⟨literals, hsought, htext, -, hread⟩ := expression_holds_literals hnul
  obtain rfl := hsought.whole hstop
  exact ⟨hnul, String.toList_inj.1 (by rw [htext]; decide +kernel), hread⟩

end TieredMemory.FullText
