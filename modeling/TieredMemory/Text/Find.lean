/-!
# Searching and cutting texts

Occurrences of one text in another, counted in characters: where the first one starts, how many
there are without overlap, and the pieces between them.
-/

namespace TieredMemory.Text

/-- The characters before and after the first occurrence of `needle`. -/
def cutAt? (needle : List Char) : List Char → Option (List Char × List Char)
  | [] => if needle.isEmpty then some ([], []) else none
  | c :: r =>
    if needle.isPrefixOf (c :: r) then some ([], (c :: r).drop needle.length)
    else (cutAt? needle r).map fun p => (c :: p.1, p.2)

/-- The number of characters before the first occurrence of `needle`. -/
def find? (needle text : String) : Option Nat :=
  (cutAt? needle.toList text.toList).map fun p => p.1.length

/-- The needle occurs in the text. -/
def occursIn (needle text : String) : Bool := (cutAt? needle.toList text.toList).isSome

theorem length_of_cutAt? {needle text a b : List Char} (h : cutAt? needle text = some (a, b)) :
    a.length + needle.length + b.length = text.length := by
  induction text generalizing a b with
  | nil =>
    cases needle with
    | nil =>
      simp only [cutAt?, List.isEmpty_nil, if_true, Option.some.injEq, Prod.mk.injEq] at h
      simp [← h.1, ← h.2]
    | cons => simp [cutAt?] at h
  | cons c r ih =>
    rw [cutAt?] at h
    split at h
    · rename_i hp
      simp only [Option.some.injEq, Prod.mk.injEq] at h
      obtain ⟨rfl, rfl⟩ := h
      have := (List.isPrefixOf_iff_prefix.1 hp).length_le
      simp only [List.length_nil, List.length_drop]
      omega
    · cases hr : cutAt? needle r with
      | none => simp [hr] at h
      | some p =>
        simp only [hr, Option.map_some, Option.some.injEq, Prod.mk.injEq] at h
        obtain ⟨rfl, rfl⟩ := h
        have := ih hr
        simp only [List.length_cons]
        omega

/-- The pieces between the occurrences of a separator that is not empty. -/
def piecesOf (sep : List Char) (text : List Char) : List (List Char) :=
  match h : cutAt? sep text with
  | some (a, b) =>
    if hs : sep = [] then [text]
    else
      have : b.length < text.length := by
        have := length_of_cutAt? h
        have := List.length_pos_iff.2 hs
        omega
      a :: piecesOf sep b
  | none => [text]
termination_by text.length

/-- The pieces between the occurrences of a separator. -/
def pieces (sep text : String) : List String := (piecesOf sep.toList text.toList).map String.ofList

/-- How often the needle occurs without overlap. The empty text occurs around every character. -/
def count (needle text : String) : Nat :=
  if needle.isEmpty then text.length + 1 else (piecesOf needle.toList text.toList).length - 1

/-- Put `new` in place of every occurrence of `old`. -/
def replaceAll (old new text : String) : String := new.intercalate (pieces old text)

/-- The first `n` characters. -/
def takeFirst (n : Nat) (s : String) : String := String.ofList (s.toList.take n)

/-- All but the first `n` characters. -/
def dropFirst (n : Nat) (s : String) : String := String.ofList (s.toList.drop n)

/-- The text begins with `start`. -/
def beginsWith (start text : String) : Bool := start.toList.isPrefixOf text.toList

/-- The text ends with `finish`. -/
def endsWith (finish text : String) : Bool := finish.toList.isSuffixOf text.toList

end TieredMemory.Text
