import TieredMemory.Extraction
import TieredMemory.Proofs.FactStore.Merging

/-!
# What the rules make of a turn

The rules give each finding one of four importances, which a fact keeps as it is. The facts of the
findings are numbered on from the number of facts so far, so that their identifiers are new
(`factsOf_inv`).
-/

namespace TieredMemory.Extraction

/-! ### The findings -/

/-- The importances that the rules give. -/
def ruleImportances : List Float := [0.9, 0.7, 0.8, 0.6]

theorem mem_of_mem_firstByKey {α κ : Type} [BEq κ] {key : α → κ} {seen : List κ} {xs : List α}
    {a : α} (h : a ∈ firstByKey key seen xs) : a ∈ xs := by
  induction xs generalizing seen with
  | nil => exact h
  | cons b r ih =>
    rw [firstByKey] at h
    split at h
    · exact List.mem_cons_of_mem b (ih h)
    · exact List.mem_cons.2 ((List.mem_cons.1 h).imp_right ih)

theorem Rule.importance_of_apply? {r : Rule} {text : String} {f : Finding}
    (h : r.apply? text = some f) : f.importance = r.importance := by
  unfold Rule.apply? at h
  cases hkey : r.key with
  | some key =>
    simp only [hkey, Option.bind_eq_bind, Option.bind_eq_some_iff] at h
    obtain ⟨e, -, p, -, first, -, h⟩ := h
    cases h
    rfl
  | none =>
    simp only [hkey, Option.bind_eq_bind, Option.bind_eq_some_iff] at h
    obtain ⟨e, -, p, -, first, -, second, -, h⟩ := h
    cases h
    rfl

theorem importance_of_mem_byRules {text : String} {f : Finding} (h : f ∈ byRules text) :
    f.importance ∈ ruleImportances := by
  have h := mem_of_mem_firstByKey h
  simp only [List.mem_append, or_assoc] at h
  rcases h with h | h | h | h
  · obtain ⟨r, hr, h⟩ := List.mem_filterMap.1 h
    rw [Rule.importance_of_apply? h]
    have hrules : ∀ r ∈ rules, r.importance ∈ ruleImportances := by
      simp [rules, ruleImportances]
    exact hrules r hr
  · obtain ⟨c, -, rfl⟩ := List.mem_map.1 h
    simp [ruleImportances]
  · split at h
    · obtain rfl := List.mem_singleton.1 h
      simp [ruleImportances]
    · cases h
  · obtain ⟨a, -, rfl⟩ := List.mem_map.1 h
    simp [ruleImportances]

theorem clampUnit_of_mem {x : Float} (h : x ∈ ruleImportances) : clampUnit x = x := by
  revert x
  decide +kernel

theorem isNaN_of_mem {x : Float} (h : x ∈ ruleImportances) : x.isNaN = false := by
  revert x
  decide +kernel

theorem eq_of_le_of_le {x y : Float} (hx : x ∈ ruleImportances) (hy : y ∈ ruleImportances)
    (hxy : x ≤ y) (hyx : y ≤ x) : x = y := by
  have hall : ∀ x ∈ ruleImportances, ∀ y ∈ ruleImportances, x ≤ y → y ≤ x → x = y := by
    decide +kernel
  exact hall x hx y hy hxy hyx

/-! ### The facts -/

/-- The identifier of the fact with the number. -/
def factId (n : Nat) : String := s!"fact-{n}"

theorem factId_injective : Function.Injective factId := by
  intro m n h
  simpa [factId] using h

/-- The facts of findings say what the findings say, have the numbers that come next, and are not
embedded. -/
theorem factsOf_inv (user conversation : String) (fs : List Finding) (w : World) :
    (factsOf user conversation fs w).2 =
        { w with numbering := { w.numbering with facts := w.numbering.facts + fs.length } } ∧
      (factsOf user conversation fs w).1.map Fact.id =
        (List.range' (w.numbering.facts + 1) fs.length).map factId ∧
      (factsOf user conversation fs w).1.map (fun f => (f.pair, f.importance)) =
        fs.map fun f => (f.pair, clampUnit f.importance) := by
  induction fs generalizing w with
  | nil => exact ⟨rfl, rfl, rfl⟩
  | cons f r ih =>
    obtain ⟨hworld, hids, hpairs⟩ := ih w.newFact.2
    have hnumber : w.newFact.2.numbering.facts = w.numbering.facts + 1 := rfl
    refine ⟨?_, ?_, ?_⟩
    · simp only [factsOf, hworld, List.length_cons]
      rw [hnumber, Nat.add_assoc, Nat.add_comm 1]
      rfl
    · simp only [factsOf, List.map_cons, hids, List.length_cons, List.range'_succ, hnumber]
      rfl
    · simp only [factsOf, List.map_cons, hpairs]
      rfl

variable {t : Turn} {w : World}

theorem nodup_factsByRules : ((factsByRules t w).1.map Fact.id).Nodup := by
  rw [factsByRules, (factsOf_inv t.user t.conversation (byRules t.text) w).2.1]
  exact (List.nodup_range' ..).map factId_injective

/-- The facts of a turn have numbers that no fact had before. -/
theorem number_of_mem_factsByRules {f : Fact} (h : f ∈ (factsByRules t w).1) :
    ∃ n, f.id = factId n ∧ w.numbering.facts < n ∧ n ≤ (factsByRules t w).2.numbering.facts := by
  obtain ⟨hworld, hids, -⟩ := factsOf_inv t.user t.conversation (byRules t.text) w
  have hid : f.id ∈ (factsByRules t w).1.map Fact.id := List.mem_map_of_mem h
  rw [factsByRules, hids] at hid
  obtain ⟨n, hn, hid⟩ := List.mem_map.1 hid
  obtain ⟨hlow, hhigh⟩ := List.mem_range'_1.1 hn
  rw [factsByRules, hworld]
  exact ⟨n, hid.symm, hlow, by simp only; omega⟩

/-- The facts of a turn say what the rules find in it. -/
theorem exists_factsByRules {k : String × String} {x : Float} :
    (∃ f ∈ (factsByRules t w).1, f.pair = k ∧ f.importance = x) ↔
      ∃ f ∈ byRules t.text, f.pair = k ∧ f.importance = x := by
  have hpairs := (factsOf_inv t.user t.conversation (byRules t.text) w).2.2
  have hfacts : (∃ f ∈ (factsByRules t w).1, f.pair = k ∧ f.importance = x) ↔
      (k, x) ∈ (factsByRules t w).1.map fun f => (f.pair, f.importance) := by
    simp only [List.mem_map, Prod.mk.injEq]
  rw [hfacts, factsByRules, hpairs]
  simp only [List.mem_map, Prod.mk.injEq]
  refine exists_congr fun f => and_congr_right fun hf => ?_
  rw [clampUnit_of_mem (importance_of_mem_byRules hf)]

end TieredMemory.Extraction
