import TieredMemory.Keywords
import TieredMemory.Proofs.Ranking
import TieredMemory.Proofs.Text.Blank

/-!
# Tokens of a text

A token is made of token characters, none of which is blank, and there is one at least
(`mem_of_mem_tokens`, `exists_mem_of_mem_tokens`). The content tokens are the tokens that are not stop
words, each once and in order (`mem_contentTokens`, `pairwise_contentTokens`).
-/

namespace TieredMemory.Keywords

open Text

/-- Token characters are marks and digits, or lower-case letters of ASCII. -/
theorem toNat_of_isTokenChar {c : Char} (h : isTokenChar c = true) :
    35 ≤ c.toNat ∧ c.toNat ≤ 57 ∨ 97 ≤ c.toNat ∧ c.toNat ≤ 122 := by
  simp only [isTokenChar, isTokenStart, Bool.or_eq_true, beq_iff_eq] at h
  rcases h with (((((h | h) | rfl) | rfl) | rfl) | rfl) | rfl
  · have hlow : 97 ≤ c.toNat := of_decide_eq_true (Bool.and_eq_true_iff.1 h).1
    have hhigh : c.toNat ≤ 122 := of_decide_eq_true (Bool.and_eq_true_iff.1 h).2
    exact .inr ⟨hlow, hhigh⟩
  · have hlow : 48 ≤ c.toNat := of_decide_eq_true (Bool.and_eq_true_iff.1 h).1
    have hhigh : c.toNat ≤ 57 := of_decide_eq_true (Bool.and_eq_true_iff.1 h).2
    omega
  all_goals decide

theorem isBlank_of_isTokenChar {c : Char} (h : isTokenChar c = true) : isBlank c = false := by
  have hrange := toNat_of_isTokenChar h
  by_contra hblank
  have := toNat_of_isBlank (eq_true_of_ne_false hblank)
  omega

/-- A run is made of token characters of the text. -/
theorem mem_runs (run : List Char) {l : List Char} (hrun : ∀ c ∈ run, isTokenChar c = true) :
    ∀ r ∈ runs run l, ∀ c ∈ r, isTokenChar c = true ∧ (c ∈ run ∨ c ∈ l) := by
  induction l generalizing run with
  | nil =>
    unfold runs
    split
    · simp
    · intro r hr c hc
      rw [List.mem_singleton.1 hr, List.mem_reverse] at hc
      exact ⟨hrun c hc, .inl hc⟩
  | cons d l ih =>
    unfold runs
    split
    · split
      · next hstart =>
        intro r hr c hc
        obtain ⟨htoken, hmem⟩ := ih [d] (by simp [isTokenChar, hstart]) r hr c hc
        exact ⟨htoken, .inr (by simpa using hmem)⟩
      · next hempty _ =>
        intro r hr c hc
        obtain ⟨htoken, hmem⟩ := ih [] (by simp) r hr c hc
        exact ⟨htoken, .inr (List.mem_cons_of_mem d (by simpa using hmem))⟩
    · split
      · next htoken =>
        intro r hr c hc
        obtain ⟨hc, hmem⟩ := ih (d :: run) (List.forall_mem_cons.2 ⟨htoken, hrun⟩) r hr c hc
        refine ⟨hc, ?_⟩
        simp only [List.mem_cons] at hmem ⊢
        tauto
      · intro r hr c hc
        rcases List.mem_cons.1 hr with rfl | hr
        · rw [List.mem_reverse] at hc
          exact ⟨hrun c hc, .inl hc⟩
        · obtain ⟨htoken, hmem⟩ := ih [] (by simp) r hr c hc
          exact ⟨htoken, .inr (List.mem_cons_of_mem d (by simpa using hmem))⟩

/-- A token is made of token characters of the lower-case text. -/
theorem mem_of_mem_tokens {text t : String} (h : t ∈ tokens text) :
    ∀ c ∈ t.toList, isTokenChar c = true ∧ c ∈ (lower text).toList := by
  obtain ⟨run, hrun, rfl⟩ := List.mem_map.1 (List.mem_filter.1 h).1
  intro c hc
  have hin := mem_of_mem_trimWhere hc
  rw [String.toList_ofList] at hin
  obtain ⟨htoken, hmem⟩ := mem_runs [] (by simp) run hrun c hin
  exact ⟨htoken, by simpa using hmem⟩

/-- A token is not empty. -/
theorem exists_mem_of_mem_tokens {text t : String} (h : t ∈ tokens text) :
    ∃ c ∈ t.toList, isTokenChar c = true ∧ c ∈ (lower text).toList := by
  have hne := (List.mem_filter.1 h).2
  obtain ⟨c, hc⟩ : ∃ c, c ∈ t.toList := by
    refine List.exists_mem_of_ne_nil _ fun hnil => ?_
    rw [String.toList_eq_nil_iff] at hnil
    simp [hnil] at hne
  exact ⟨c, hc, mem_of_mem_tokens h c hc⟩

theorem isEmptyText_of_mem_tokens {text t : String} (h : t ∈ tokens text) :
    isEmptyText t = false ∧ isEmptyText text = false := by
  obtain ⟨c, hc, htoken, hmem⟩ := exists_mem_of_mem_tokens h
  have hblank := isBlank_of_isTokenChar htoken
  refine ⟨isEmptyText_eq_false_iff.2 ⟨c, hc, hblank⟩, ?_⟩
  rw [← isEmptyText_lower]
  exact isEmptyText_eq_false_iff.2 ⟨c, hmem, hblank⟩

/-! ### Content tokens -/

theorem mem_contentTokens {text t : String} :
    t ∈ contentTokens text ↔ t ∈ tokens text ∧ t ∉ stopWords := by
  rw [contentTokens, mem_sortedDistinct, List.mem_filter]
  simp

theorem pairwise_contentTokens (text : String) : (contentTokens text).Pairwise (· < ·) :=
  pairwise_sortedDistinct _

theorem contentTokens_eq_nil_iff {text : String} :
    contentTokens text = [] ↔ ∀ t ∈ tokens text, t ∈ stopWords := by
  simp only [List.eq_nil_iff_forall_not_mem, mem_contentTokens, not_and, not_not]

end TieredMemory.Keywords
