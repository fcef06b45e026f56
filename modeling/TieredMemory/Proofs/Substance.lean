import TieredMemory.Proofs.Confidence
import TieredMemory.Proofs.Pattern.Detection
import TieredMemory.Proofs.Regex.Captures

/-!
# Facts that say something

A fact has a key and a value, and neither should be blank. What a completer lists is trimmed, and an item
without a key or a value is left out. The rules take the value of a fact from a group that stands after a
space, and its key, if they look for one, from a group that begins with a letter. So a key is never
blank, but a value is where the group holds blanks alone. That is the only way (`ofTurn_says_iff`), and
it takes two blanks side by side.
-/

namespace TieredMemory.Extraction

open Text Regex

/-! ### What a rule finds -/

/-- No two blanks stand side by side in the text. -/
def SinglySpaced (s : String) : Prop :=
  s.toList.IsChain fun a b => isBlank a = true → isBlank b = false

instance (s : String) : Decidable (SinglySpaced s) :=
  inferInstanceAs (Decidable (s.toList.IsChain fun a b => isBlank a = true → isBlank b = false))

/-- The group that holds the value. -/
def Rule.valueGroup (r : Rule) : Nat := if r.key.isSome then 1 else 2

/-- The value, and the key if the rule looks for one, stand after a space, and the key begins with a
letter. -/
def Rule.isAnchored (r : Rule) : Bool :=
  match Regex.read r.expression with
  | .ok (.seq parts) =>
    (groupStart? r.valueGroup parts).isSome &&
      match r.key with
      | some key => !isEmptyText key
      | none => (groupStart? 1 parts).any CharSet.isInk
  | _ => false

theorem isAnchored_of_mem_rules : ∀ r ∈ rules, r.isAnchored = true := by
  decide +kernel

/-- What a rule finds is what its groups hold after a match. -/
theorem Rule.exists_match {r : Rule} {text : String} {g : Finding} (h : r.apply? text = some g) :
    ∃ e i p, Regex.read r.expression = .ok e ∧ search? e text = some (i, p) ∧
      (∃ value, p.text? text r.valueGroup = some value ∧ g.value = trim value) ∧
      (r.key = some g.key ∨ r.key = none ∧ ∃ key, p.text? text 1 = some key ∧ g.key = trim key) := by
  unfold Rule.apply? at h
  cases hread : Regex.read r.expression with
  | error why =>
    rw [hread] at h
    cases h
  | ok e =>
    simp only [hread, Except.toOption, Option.bind_eq_bind, Option.bind_some,
      Option.bind_eq_some_iff] at h
    obtain ⟨⟨i, p⟩, hsearch, first, hfirst, h⟩ := h
    refine ⟨e, i, p, rfl, hsearch, ?_⟩
    cases hkey : r.key with
    | some key =>
      rw [hkey] at h
      cases h
      exact ⟨⟨first, by simpa [valueGroup, hkey] using hfirst, rfl⟩, .inl rfl⟩
    | none =>
      simp only [hkey, Option.bind_eq_some_iff] at h
      obtain ⟨second, hsecond, h⟩ := h
      cases h
      exact ⟨⟨second, by simpa [valueGroup, hkey] using hsecond, rfl⟩, .inr ⟨rfl, first, hfirst, rfl⟩⟩

/-- A group that begins with a letter, or after the only blank there, does not hold blanks alone. -/
theorem isEmptyText_of_spans {text piece : String} {parts : List Expr} {p q : Regex.Place}
    {n : Nat} {s : CharSet} (hspans : Spans text.toList.toArray (.seq parts) p q)
    (hstart : groupStart? n parts = some s) (h : s.isInk = true ∨ SinglySpaced text)
    (hpiece : q.text? text n = some piece) : isEmptyText piece = false := by
  obtain ⟨first, last, hcaptured⟩ := hspans.captured hstart
  obtain ⟨piece', c, b, hpiece', hc, hholds, hpos, hb, hblank, hfirst⟩ := hcaptured.exists_piece
  obtain rfl := Option.some.inj (hpiece.symm.trans hpiece')
  refine isEmptyText_eq_false_iff.2 ⟨c, hc, ?_⟩
  rcases h with hink | hspaced
  · exact CharSet.isBlank_of_isInk hink hholds
  · obtain ⟨hlt, rfl⟩ := List.getElem?_eq_some_iff.1 hfirst
    obtain ⟨hlt', rfl⟩ := List.getElem?_eq_some_iff.1 hb
    have hnext := List.isChain_iff_getElem.1 hspaced (first - 1) (by omega) hblank
    simpa only [Nat.sub_add_cancel hpos] using hnext

/-- What a rule of this kind finds has a key, and has a value where the text is singly spaced. -/
theorem Rule.says_of_apply? {r : Rule} {text : String} {g : Finding} (hr : r.isAnchored = true)
    (h : r.apply? text = some g) :
    isEmptyText g.key = false ∧ (SinglySpaced text → isEmptyText g.value = false) := by
  obtain ⟨e, i, p, hread, hsearch, ⟨value, hvalue, hg⟩, hkey⟩ := exists_match h
  have hspans := spans_of_search? hsearch
  unfold isAnchored at hr
  rw [hread] at hr
  cases e with
  | seq parts =>
    obtain ⟨hstart, hanchored⟩ := Bool.and_eq_true_iff.1 hr
    obtain ⟨s, hs⟩ := Option.isSome_iff_exists.1 hstart
    constructor
    · rcases hkey with hkey | ⟨hkey, key, htext, hg⟩
      · rw [hkey] at hanchored
        simpa using hanchored
      · rw [hkey] at hanchored
        obtain ⟨s, hs, hink⟩ := (Option.any_eq_true _ _).1 hanchored
        rw [hg, isEmptyText_trim]
        exact isEmptyText_of_spans hspans hs (.inl hink) htext
    · intro hspaced
      rw [hg, isEmptyText_trim]
      exact isEmptyText_of_spans hspans hs (.inr hspaced) hvalue
  | _ => cases hr

/-! ### What else is found -/

theorem exists_mem_firstByKey {α κ : Type} [BEq κ] [LawfulBEq κ] {key : α → κ} (seen : List κ)
    {xs : List α} {a : α} (h : a ∈ xs) :
    key a ∈ seen ∨ ∃ b ∈ firstByKey key seen xs, key b = key a := by
  induction xs generalizing seen with
  | nil => cases h
  | cons x r ih =>
    rw [firstByKey]
    split
    · next hseen =>
      rcases List.mem_cons.1 h with rfl | h
      · exact .inl (List.contains_iff_mem.1 hseen)
      · exact ih seen h
    · rcases List.mem_cons.1 h with rfl | h
      · exact .inr ⟨a, List.mem_cons_self, rfl⟩
      · rcases ih (key x :: seen) h with hseen | ⟨b, hb, hkey⟩
        · rcases List.mem_cons.1 hseen with hkey | hseen
          · exact .inr ⟨x, List.mem_cons_self, hkey.symm⟩
          · exact .inl hseen
        · exact .inr ⟨b, List.mem_cons_of_mem x hb, hkey⟩

theorem exists_mem_of_address? {l a : List Char} (h : address? l = some a) :
    ∃ c ∈ a, isBlank c = false := by
  unfold address? at h
  split at h
  · next hafter =>
    split at h
    · cases h
    · cases h
      obtain ⟨scheme, hscheme, hrest⟩ := List.exists_of_findSome?_eq_some hafter
      split at hrest
      · next hbegins =>
        obtain ⟨r, rfl⟩ := List.isPrefixOf_iff_prefix.1 hbegins
        have hblank : isBlank 'h' = false := rfl
        refine ⟨'h', ?_, hblank⟩
        have hcons : ∃ s, scheme.toList = 'h' :: s := by
          fin_cases hscheme
          · exact ⟨_, rfl⟩
          · exact ⟨_, rfl⟩
        obtain ⟨s, hs⟩ := hcons
        rw [hs, List.cons_append, List.takeWhile_cons_of_pos (by rw [hblank]; rfl)]
        exact List.mem_cons_self
      · cases hrest
  · cases h

theorem exists_address? {skip : Nat} {l a : List Char} (h : a ∈ addressesFrom skip l) :
    ∃ l, address? l = some a := by
  induction l generalizing skip with
  | nil => cases skip <;> cases h
  | cons c r ih =>
    cases skip with
    | succ skip => exact ih h
    | zero =>
      rw [addressesFrom] at h
      split at h
      · next b hb =>
        rcases List.mem_cons.1 h with rfl | h
        · exact ⟨_, hb⟩
        · exact ih h
      · exact ih h

theorem isEmptyText_of_mem_addresses {text a : String} (h : a ∈ addresses text) :
    isEmptyText a = false := by
  obtain ⟨l, hl, rfl⟩ := List.mem_map.1 h
  obtain ⟨l', haddress⟩ := exists_address? (List.mem_of_mem_take hl)
  obtain ⟨c, hc, hblank⟩ := exists_mem_of_address? haddress
  exact isEmptyText_eq_false_iff.2 ⟨c, by rwa [String.toList_ofList], hblank⟩

theorem isEmptyText_of_mem_technologiesIn {text : String} {g : Finding} (h : g ∈ technologiesIn text) :
    isEmptyText g.key = false ∧ isEmptyText g.value = false := by
  obtain ⟨c, hc, rfl⟩ := List.mem_map.1 h
  have htechnologies : ∀ t ∈ technologies, isEmptyText t = false := by decide
  have hkey : isEmptyText "technology" = false := by decide
  refine ⟨hkey, ?_⟩
  rw [← isEmptyText_lower]
  exact htechnologies _ (List.contains_iff_mem.1 (List.mem_filter.1 hc).2)

/-- What is found without a completer has a key and a value, or is what a rule finds. -/
theorem says_of_mem_byRules {text : String} {g : Finding} (h : g ∈ byRules text) :
    (∃ r ∈ rules, r.apply? text = some g) ∨ isEmptyText g.key = false ∧ isEmptyText g.value = false := by
  have h := mem_of_mem_firstByKey h
  simp only [List.mem_append, or_assoc] at h
  rcases h with h | h | h | h
  · exact .inl (List.mem_filterMap.1 h)
  · exact .inr (isEmptyText_of_mem_technologiesIn h)
  · split at h
    · obtain rfl := List.mem_singleton.1 h
      exact .inr (by decide)
    · cases h
  · obtain ⟨a, ha, rfl⟩ := List.mem_map.1 h
    have hkey : isEmptyText "referenced url" = false := by decide
    exact .inr ⟨hkey, isEmptyText_of_mem_addresses ha⟩

/-- What a rule finds is found without a completer, letter case aside. -/
theorem exists_mem_byRules {r : Rule} {text : String} {g : Finding} (hr : r ∈ rules)
    (h : r.apply? text = some g) : ∃ g' ∈ byRules text, g'.pair = g.pair := by
  have hmem : g ∈ rules.filterMap fun r => r.apply? text := List.mem_filterMap.2 ⟨r, hr, h⟩
  unfold byRules
  dsimp only
  refine (exists_mem_firstByKey [] ?_).resolve_left List.not_mem_nil
  simp only [List.mem_append, hmem, true_or]

/-! ### What a completer lists -/

theorem says_of_findingOfItem? {item : Json.Value} {g : Finding}
    (h : findingOfItem? item = .ok (some g)) :
    isEmptyText g.key = false ∧ isEmptyText g.value = false := by
  unfold findingOfItem? at h
  split at h
  · next item =>
    dsimp only at h
    split at h
    · cases h
    · next hmembers =>
      obtain ⟨hkey, hvalue⟩ : (Candidate.textMember item "key").isEmpty = false ∧
          (Candidate.textMember item "value").isEmpty = false := by
        simpa using hmembers
      obtain ⟨x, -, h⟩ := bind_eq_ok h
      cases h
      exact ⟨Candidate.isEmptyText_textMember hkey, Candidate.isEmptyText_textMember hvalue⟩
  · cases h

theorem says_of_findings {outcome : Except Fault Json.Value} {gs : List Finding}
    (h : findings outcome = .ok gs) :
    ∀ g ∈ gs, isEmptyText g.key = false ∧ isEmptyText g.value = false := by
  obtain ⟨answer, -, h⟩ := bind_eq_ok h
  obtain ⟨content, -, h⟩ := bind_eq_ok h
  obtain ⟨items, -, h⟩ := bind_eq_ok h
  obtain ⟨found, hfound, h⟩ := bind_eq_ok h
  cases h
  intro g hg
  obtain ⟨item?, hitem, hg⟩ := List.mem_filterMap.1 hg
  obtain ⟨item, -, hitem⟩ := mapM_eq_ok hfound item? hitem
  obtain rfl : item? = some g := hg
  exact says_of_findingOfItem? hitem

/-! ### The facts of a turn -/

/-- The findings that the completer gives for a turn, if there is a completer and its answer can be
read. -/
def answered? (t : Turn) (w : World) : Option (List Finding) :=
  (w.complete? (prompt t.text)).bind fun (reply, _) => (findings reply.outcome).toOption

theorem exists_factsOf (t : Turn) (w : World) :
    ∃ w', (ofTurn t w).1 =
      (factsOf t.user t.conversation ((answered? t w).getD (byRules t.text)) w').1 := by
  unfold ofTurn answered?
  cases w.complete? (prompt t.text) with
  | none =>
    simp only [Option.bind_none, Option.getD_none, factsByRules]
    exact ⟨w, rfl⟩
  | some answer =>
    obtain ⟨reply, w'⟩ := answer
    dsimp only [Option.bind_some]
    cases hfound : findings reply.outcome with
    | ok gs =>
      unfold findings at hfound
      simp only [factsOfOutcome, hfound, Except.toOption, Option.getD_some]
      exact ⟨_, rfl⟩
    | error why =>
      unfold findings at hfound
      simp only [factsOfOutcome, hfound, Except.toOption, Option.getD_none, factsByRules]
      exact ⟨_, rfl⟩

section Facts

variable {user conversation : String} {gs : List Finding} {w : World}

/-- The facts of findings say what the findings say, letter case aside. -/
theorem forall_pair_factsOf_iff {p : String × String → Prop} :
    (∀ f ∈ (factsOf user conversation gs w).1, p f.pair) ↔ ∀ g ∈ gs, p g.pair := by
  have hpairs := congrArg (List.map Prod.fst) (factsOf_inv user conversation gs w).2.2
  simp only [List.map_map, Function.comp_def] at hpairs
  rw [← List.forall_mem_map, hpairs, List.forall_mem_map]

theorem forall_key_factsOf_iff :
    (∀ f ∈ (factsOf user conversation gs w).1, isEmptyText f.key = false) ↔
      ∀ g ∈ gs, isEmptyText g.key = false := by
  simpa only [Fact.pair, Finding.pair, isEmptyText_lower] using
    forall_pair_factsOf_iff (p := fun k => isEmptyText k.1 = false)

theorem forall_value_factsOf_iff :
    (∀ f ∈ (factsOf user conversation gs w).1, isEmptyText f.value = false) ↔
      ∀ g ∈ gs, isEmptyText g.value = false := by
  simpa only [Fact.pair, Finding.pair, isEmptyText_lower] using
    forall_pair_factsOf_iff (p := fun k => isEmptyText k.2 = false)

end Facts

theorem says_of_answered? {t : Turn} {w : World} {gs : List Finding} (h : answered? t w = some gs) :
    ∀ g ∈ gs, isEmptyText g.key = false ∧ isEmptyText g.value = false := by
  obtain ⟨⟨reply, w'⟩, -, h⟩ := Option.bind_eq_some_iff.1 h
  cases hfound : findings reply.outcome with
  | error why =>
    simp only [hfound, Except.toOption] at h
    cases h
  | ok gs' =>
    simp only [hfound, Except.toOption] at h
    cases h
    exact says_of_findings hfound

/-- Without a completer everything has a value exactly if what the rules find has one. -/
theorem forall_value_byRules_iff (text : String) :
    (∀ g ∈ byRules text, isEmptyText g.value = false) ↔
      ∀ r ∈ rules, ∀ g, r.apply? text = some g → isEmptyText g.value = false := by
  constructor
  · intro h r hr g hg
    obtain ⟨g', hg', hpair⟩ := exists_mem_byRules hr hg
    have hlower : lower g'.value = lower g.value := congrArg Prod.snd hpair
    rw [← isEmptyText_lower, ← hlower, isEmptyText_lower]
    exact h g' hg'
  · intro h g hg
    rcases says_of_mem_byRules hg with ⟨r, hr, happly⟩ | ⟨-, hvalue⟩
    · exact h r hr g happly
    · exact hvalue

/-- Every fact has a key, and has a value too, unless there is no readable answer of a completer and a
rule finds blanks alone. In a singly spaced text no rule does. -/
theorem ofTurn_says_iff (t : Turn) (w : World) :
    (∀ f ∈ (ofTurn t w).1, isEmptyText f.key = false) ∧
      ((∀ f ∈ (ofTurn t w).1, isEmptyText f.value = false) ↔
        (answered? t w).isSome = true ∨
          ∀ r ∈ rules, ∀ g, r.apply? t.text = some g → isEmptyText g.value = false) ∧
      (SinglySpaced t.text → ∀ f ∈ (ofTurn t w).1, isEmptyText f.value = false) := by
  obtain ⟨w', hfacts⟩ := exists_factsOf t w
  rw [hfacts, forall_key_factsOf_iff, forall_value_factsOf_iff]
  cases hanswer : answered? t w with
  | some gs =>
    have hspoken := says_of_answered? hanswer
    exact ⟨fun g hg => (hspoken g hg).1, iff_of_true (fun g hg => (hspoken g hg).2) (.inl rfl),
      fun _ g hg => (hspoken g hg).2⟩
  | none =>
    simp only [Option.getD_none, Option.isSome_none, Bool.false_eq_true, false_or,
      forall_value_byRules_iff]
    refine ⟨?_, trivial, ?_⟩
    · intro g hg
      rcases says_of_mem_byRules hg with ⟨r, hr, happly⟩ | ⟨hkey, -⟩
      · exact (Rule.says_of_apply? (isAnchored_of_mem_rules r hr) happly).1
      · exact hkey
    · intro hspaced r hr g happly
      exact (Rule.says_of_apply? (isAnchored_of_mem_rules r hr) happly).2 hspaced

/-- A turn with the text. -/
def saying (text : String) : Turn :=
  ⟨"t", "u", "c", .user, text, 0, 0, ⟨false, false, false⟩, [], none⟩

theorem ofTurn_says_preference :
    SinglySpaced "I prefer tabs" ∧
      (ofTurn (saying "I prefer tabs") {}).1.map (fun f => (f.key, f.value)) =
        [("preference", "tabs")] ∧
      ∀ f ∈ (ofTurn (saying "I prefer tabs") {}).1, isEmptyText f.value = false := by
  have hspaced : SinglySpaced "I prefer tabs" := by decide
  exact ⟨hspaced, by decide +kernel, (ofTurn_says_iff (saying "I prefer tabs") {}).2.2 hspaced⟩

/-- Blanks after a verb are a preference without a value. -/
theorem ofTurn_says_nothing :
    (ofTurn (saying "I prefer   ") {}).1.map (fun f => (f.key, f.value)) = [("preference", "")] ∧
      ¬ ∀ f ∈ (ofTurn (saying "I prefer   ") {}).1, isEmptyText f.value = false := by
  decide +kernel

end TieredMemory.Extraction
