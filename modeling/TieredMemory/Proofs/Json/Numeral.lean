import TieredMemory.Proofs.Json.Extent

/-!
# Written integers

A text that consists of digits only is read as the natural number that they denote, unless there are
more digits than an integer may have (`read?_digits`).
-/

namespace TieredMemory.Json

section

variable {c : Char} {ds : List Char}

theorem isSpace_of_isDigit (h : c.isDigit = true) : isSpace c = false := by
  by_contra hspace
  rw [Bool.not_eq_false] at hspace
  simp only [isSpace, Bool.or_eq_true, beq_iff_eq] at hspace
  rcases hspace with ((rfl | rfl) | rfl) | rfl <;> exact absurd h (by decide)

/-- What begins with a digit is neither a word nor negative. -/
theorem plain?_of_isDigit (h : c.isDigit = true) : plain? (c :: ds) = number? false (c :: ds) := by
  unfold plain?
  split <;> first | rfl | (rename_i heq; injection heq with hc; subst hc; exact absurd h (by decide))

theorem number?_digits (hzero : c ≠ '0') (hds : ∀ d ∈ c :: ds, d.isDigit = true)
    (hlength : (c :: ds).length ≤ mostDigits) :
    number? false (c :: ds) = some (.int (natOf (c :: ds)), []) := by
  have hwhole : wholePart (c :: ds) = (c :: ds, []) := by
    have htake : (c :: ds).takeWhile Char.isDigit = c :: ds := List.takeWhile_eq_self_iff.2 hds
    have hdrop : (c :: ds).dropWhile Char.isDigit = [] := List.dropWhile_eq_nil_iff.2 hds
    rw [wholePart, digitsOf, htake, hdrop]
    exact fun r h => hzero (List.cons.inj h).1
  rw [number?_eq, hwhole, if_neg (by simp)]
  have hfraction : fractionPart [] = ([], []) := rfl
  have hexponent : exponentPart [] = (none, []) := rfl
  simp only [hfraction, hexponent, List.isEmpty_nil, Option.isNone_none, Bool.and_self, if_true]
  rw [if_neg (Nat.not_lt.2 hlength)]
  rfl

theorem read?_digits (hzero : c ≠ '0') (hds : ∀ d ∈ c :: ds, d.isDigit = true)
    (hlength : (c :: ds).length ≤ mostDigits) :
    read? (String.ofList (c :: ds)) = some (.int (natOf (c :: ds))) := by
  have hc := hds c List.mem_cons_self
  refine read?_of_value? (isSpace_of_isDigit hc) ?_
  rw [value?_plain, plain?_of_isDigit hc, number?_digits hzero hds hlength]
  rintro d ⟨⟩
  refine ⟨?_, ?_, ?_⟩ <;> rintro rfl <;> exact absurd hc (by decide)

end

end TieredMemory.Json
