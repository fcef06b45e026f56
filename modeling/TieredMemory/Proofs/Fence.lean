import TieredMemory.Extraction
import TieredMemory.Proofs.Json.Truncation
import TieredMemory.Proofs.Outcome
import TieredMemory.Proofs.Text.Blank
import TieredMemory.Proofs.Text.Find

/-!
# Answers in a code fence

A completer may put its answer into a code fence, which is taken off before the answer is read. What is
taken for the inside of the fence is the answer up to the first mark in it (`unfenced_fenced`), be that
the closing one or a mark in a text of the answer. A JSON text without a fence is left as it is
(`unfenced_of_isSome_read?`); in a fence it comes out as it went in, and is read as it is without one,
exactly if it has no mark in it (`unfenced_fenced_json_iff`).
-/

namespace TieredMemory

open Text

/-- The mark that opens and closes a fence. -/
def fenceMark : List Char := ['`', '`', '`']

/-- A text in a code fence, which may be marked as JSON. -/
def fenced (marked : Bool) (s : String) : String :=
  "```" ++ (if marked then "json" else "") ++ "\n" ++ s ++ "\n```"

/-! ### Inside a fence -/

theorem toList_fenced (marked : Bool) (s : String) :
    (fenced marked s).toList =
      fenceMark ++ ((if marked then ['j', 's', 'o', 'n'] else []) ++
        '\n' :: (s.toList ++ '\n' :: fenceMark)) := by
  cases marked <;> simp [fenced, fenceMark]

theorem trim_fenced (marked : Bool) (s : String) : trim (fenced marked s) = fenced marked s := by
  apply trim_eq_self
  · rw [toList_fenced]
    rintro c ⟨⟩
    rfl
  · rw [toList_fenced]
    intro c hc
    simp [fenceMark, List.getLast?_append, List.getLast?_cons] at hc
    subst hc
    rfl

/-- The closing mark stands on a line of its own, so the text before the first mark is that of the
fenced text, perhaps with the line feed before the closing mark. -/
theorem firstPiece_closing (l : List Char) :
    firstPiece fenceMark (l ++ '\n' :: fenceMark) = firstPiece fenceMark l ∨
      firstPiece fenceMark (l ++ '\n' :: fenceMark) = firstPiece fenceMark l ++ ['\n'] := by
  cases hcut : cutAt? fenceMark l with
  | none =>
    have hwhole : firstPiece fenceMark l = l := by
      rw [firstPiece, hcut]
      rfl
    rw [firstPiece_append_cons hcut (by decide), hwhole]
    exact .inr rfl
  | some p =>
    rw [firstPiece_append hcut, firstPiece, hcut]
    exact .inl rfl

/-- The second piece of a fenced text: the mark of JSON, and the text up to the first mark in it. -/
theorem piece_fenced (marked : Bool) (s : String) :
    ((pieces "```" (fenced marked s))[1]?.getD "").toList =
      (if marked then ['j', 's', 'o', 'n'] else []) ++
        '\n' :: firstPiece fenceMark (s.toList ++ '\n' :: fenceMark) := by
  have hne : fenceMark ≠ [] := by decide
  have htag : cutAt? fenceMark (if marked then ['j', 's', 'o', 'n'] else []) = none := by
    cases marked <;> rfl
  have hsecond : (piecesOf fenceMark (fenced marked s).toList)[1]? =
      some ((if marked then ['j', 's', 'o', 'n'] else []) ++
        '\n' :: firstPiece fenceMark (s.toList ++ '\n' :: fenceMark)) := by
    rw [toList_fenced, piecesOf_append hne, List.getElem?_cons_succ, ← List.head?_eq_getElem?,
      head?_piecesOf hne, firstPiece_append_cons htag (by decide)]
  rw [pieces, List.getElem?_map, show "```".toList = fenceMark from rfl, hsecond]
  exact String.toList_ofList

/-- What is taken for the inside of a fence is the text up to the first mark in it. -/
theorem unfenced_fenced (marked : Bool) (s : String) :
    unfenced (fenced marked s) = trim (String.ofList (firstPiece fenceMark s.toList)) := by
  have hopens : beginsWith "```" (fenced marked s) = true := by
    rw [beginsWith, toList_fenced]
    exact List.isPrefixOf_iff_prefix.2 (List.prefix_append fenceMark _)
  have hpiece := piece_fenced marked s
  unfold unfenced
  rw [trim_fenced]
  simp only [hopens, if_true]
  generalize (pieces "```" (fenced marked s))[1]?.getD "" = block at hpiece ⊢
  have hinside : (if beginsWith "json" block then dropFirst 4 block else block) =
      String.ofList ('\n' :: firstPiece fenceMark (s.toList ++ '\n' :: fenceMark)) := by
    rw [← String.toList_inj, String.toList_ofList, beginsWith, hpiece]
    cases marked with
    | true => simp [dropFirst, hpiece]
    | false => simpa using hpiece
  rw [hinside]
  have hlf : isEmptyText "\n" = true := by decide
  have hnone : isEmptyText "" = true := by decide
  rcases firstPiece_closing s.toList with h | h
  · rw [h, ← trim_around hlf hnone (String.ofList (firstPiece fenceMark s.toList))]
    congr 1
    simp
  · rw [h, ← trim_around hlf hlf (String.ofList (firstPiece fenceMark s.toList))]
    congr 1
    simp [← String.toList_inj]

/-- A fence comes off as it was put on exactly if there is no mark in the text. -/
theorem unfenced_fenced_eq_iff (marked : Bool) (s : String) :
    unfenced (fenced marked s) = trim s ↔ occursIn "```" s = false := by
  rw [unfenced_fenced, occursIn, show "```".toList = fenceMark from rfl, firstPiece]
  cases hcut : cutAt? fenceMark s.toList with
  | none => simp
  | some p =>
    obtain ⟨a, b⟩ := p
    simp only [Option.map_some, Option.getD_some, Option.isSome_some, Bool.true_eq_false, iff_false]
    intro h
    -- the marks that are cut off are missing
    have hcount := congrArg (fun t => t.toList.count '`') h
    simp only [count_trim (show isBlank '`' = false from by decide), String.toList_ofList,
      eq_of_cutAt? hcut, List.count_append] at hcount
    have hmarks : fenceMark.count '`' = 3 := by decide
    omega

/-! ### JSON in a fence and without -/

theorem isSpace_of_isBlank_eq_false {c : Char} (h : isBlank c = false) : Json.isSpace c = false := by
  by_contra hspace
  simp only [Bool.not_eq_false, Json.isSpace, Bool.or_eq_true, beq_iff_eq] at hspace
  rcases hspace with ((rfl | rfl) | rfl) | rfl
  all_goals exact absurd h (by decide)

theorem foreign_of_isBlank {c : Char} (h : isBlank c = true) : Json.Foreign c := by
  rcases toNat_of_isBlank h with hlow | hhigh
  · exact .inl hlow
  · exact .inr (.inr hhigh)

variable {p : String}

/-- A JSON text is JSON without the blanks around it. -/
theorem read?_trim {v : Json.Value} (h : Json.read? p = some v) : Json.read? (trim p) = some v := by
  obtain ⟨a, b, hp, ha, hb, hhead⟩ := exists_blanks_around p
  rw [← String.ofList_toList (s := p), hp] at h
  have hread := Json.read?_trimmed (fun c hc => foreign_of_isBlank (ha c hc))
    (fun c hc => isSpace_of_isBlank_eq_false (hhead c hc))
    (fun c hc => foreign_of_isBlank (hb c hc)) h
  rwa [String.ofList_toList] at hread

/-- A JSON text does not begin with a mark. -/
theorem unfenced_of_isSome_read? (h : (Json.read? p).isSome = true) : unfenced p = trim p := by
  obtain ⟨v, h⟩ := Option.isSome_iff_exists.1 h
  have hmark : beginsWith "```" (trim p) = false := by
    by_contra hmark
    obtain ⟨r, hr⟩ := List.isPrefixOf_iff_prefix.1 (eq_true_of_ne_false hmark)
    have hforeign : ∀ c ∈ (Json.skipSpace (trim p).toList).head?, Json.Foreign c := by
      rw [← hr]
      rintro c ⟨⟩
      exact .inr (.inl rfl)
    have hnone := Json.read?_foreign hforeign
    rw [String.ofList_toList, read?_trim h] at hnone
    cases hnone
  simp only [unfenced, hmark, Bool.false_eq_true, if_false, trim_trim]

/-- What comes out of the fence of a JSON text with a mark is no JSON. -/
theorem read?_unfenced_fenced (h : (Json.read? p).isSome = true) (hmark : occursIn "```" p = true)
    (marked : Bool) : Json.read? (unfenced (fenced marked p)) = none := by
  obtain ⟨⟨a, r⟩, hcut⟩ := Option.isSome_iff_exists.1 hmark
  have hfirst : firstPiece fenceMark p.toList = a := by
    rw [firstPiece, show fenceMark = "```".toList from rfl, hcut]
    rfl
  obtain ⟨ws, b, ha, hws, hb, hhead⟩ := exists_blanks_around (String.ofList a)
  rw [String.toList_ofList] at ha
  have hp : p.toList = ws ++ ((trim (String.ofList a)).toList ++ (b ++ (fenceMark ++ r))) :=
    calc p.toList = a ++ fenceMark ++ r := eq_of_cutAt? hcut
      _ = ws ++ ((trim (String.ofList a)).toList ++ b) ++ fenceMark ++ r := by rw [← ha]
      _ = _ := by simp only [List.append_assoc]
  rw [← String.ofList_toList (s := p), hp] at h
  have hread := Json.read?_truncated (fun c hc => foreign_of_isBlank (hws c hc))
    (fun c hc => isSpace_of_isBlank_eq_false (hhead c hc)) (x := b ++ (fenceMark ++ r)) ?_ ?_ h
  · rwa [String.ofList_toList, ← hfirst, ← unfenced_fenced marked] at hread
  · intro c hc
    cases b with
    | nil =>
      cases hc
      exact .inr (.inl rfl)
    | cons d b =>
      cases hc
      exact foreign_of_isBlank (hb _ List.mem_cons_self)
  · exact ⟨'`', by simp [fenceMark], by decide⟩

/-! ### Reading an answer -/

theorem Json.Value.toFloat_ne_notJson (v : Json.Value) : v.toFloat ≠ .error .notJson := by
  intro h
  unfold toFloat at h
  split at h
  · cases h
  · dsimp only at h
    split at h <;> cases h
  · cases h
  · split at h <;> cases h
  · cases h

theorem Json.Value.items_ne_notJson (v : Json.Value) : v.items ≠ .error .notJson := by
  intro h
  unfold items at h
  split at h <;> cases h

theorem Candidate.keywordsOf_ne_notJson (item : List (String × Json.Value)) :
    keywordsOf item ≠ .error .notJson := by
  intro h
  unfold keywordsOf at h
  split at h
  · cases h
  · next v _ =>
    split at h
    · have hitems := v.items_ne_notJson
      cases hv : v.items with
      | ok ks =>
        rw [hv] at h
        cases h
      | error why =>
        rw [hv] at h hitems
        cases h
        exact hitems rfl
    · cases h

/-- What an item of an array lacks is not that the answer is no JSON. -/
theorem Candidate.ofItem?_ne_notJson (item : Json.Value) : ofItem? item ≠ .error .notJson := by
  intro h
  unfold ofItem? at h
  split at h
  · dsimp only at h
    split at h
    · cases h
    · rcases bind_eq_error h with h | ⟨ks, -, h⟩
      · exact keywordsOf_ne_notJson _ h
      · rcases bind_eq_error h with h | ⟨x, -, h⟩
        · exact Json.Value.toFloat_ne_notJson _ h
        · cases h
  · cases h

theorem Extraction.findingOfItem?_ne_notJson (item : Json.Value) :
    findingOfItem? item ≠ .error .notJson := by
  intro h
  unfold findingOfItem? at h
  split at h
  · dsimp only at h
    split at h
    · cases h
    · rcases bind_eq_error h with h | ⟨x, -, h⟩
      · exact Json.Value.toFloat_ne_notJson _ h
      · cases h
  · cases h

theorem itemsOfAnswer_eq_notJson_iff (what content : String) :
    Candidate.itemsOfAnswer what content = .error .notJson ↔ Json.read? (unfenced content) = none := by
  unfold Candidate.itemsOfAnswer
  cases Json.read? (unfenced content) with
  | none => simp
  | some v => cases v <;> simp

/-- What is made of the items of an answer, those left out that nothing is made of. -/
def listedBy {α : Type} (what : String) (f : Json.Value → Except Fault (Option α))
    (content : String) : Except Fault (List α) := do
  let items ← Candidate.itemsOfAnswer what content
  return (← items.mapM f).filterMap id

/-- An answer is refused as no JSON exactly if there is no value in it. -/
theorem listedBy_eq_notJson_iff {α : Type} {f : Json.Value → Except Fault (Option α)}
    (hf : ∀ item, f item ≠ .error .notJson) (what content : String) :
    listedBy what f content = .error .notJson ↔ Json.read? (unfenced content) = none := by
  rw [← itemsOfAnswer_eq_notJson_iff what]
  constructor
  · intro h
    rcases bind_eq_error h with h | ⟨items, -, h⟩
    · exact h
    · rcases bind_eq_error h with h | ⟨found, -, h⟩
      · obtain ⟨item, -, h⟩ := mapM_eq_error h
        exact absurd h (hf item)
      · cases h
  · intro h
    rw [listedBy, h]
    rfl

/-- What is made of an answer depends on the inside of the fence alone. -/
theorem listedBy_congr {α : Type} (what : String) (f : Json.Value → Except Fault (Option α))
    {s t : String} (h : unfenced s = unfenced t) : listedBy what f s = listedBy what f t := by
  have hitems : Candidate.itemsOfAnswer what s = Candidate.itemsOfAnswer what t := by
    unfold Candidate.itemsOfAnswer
    rw [h]
  rw [listedBy, listedBy, hitems]

/-- A fence makes no difference to what is made of a JSON text exactly if it has no mark in it. -/
theorem listedBy_fenced_iff {α : Type} {f : Json.Value → Except Fault (Option α)}
    (hf : ∀ item, f item ≠ .error .notJson) (what : String)
    (h : (Json.read? p).isSome = true) (marked : Bool) :
    listedBy what f (fenced marked p) = listedBy what f p ↔ occursIn "```" p = false := by
  have hbare := unfenced_of_isSome_read? h
  constructor
  · intro heq
    by_contra hmark
    obtain ⟨v, hv⟩ := Option.isSome_iff_exists.1 h
    have hrefused : listedBy what f (fenced marked p) = .error .notJson :=
      (listedBy_eq_notJson_iff hf what _).2
        (read?_unfenced_fenced h (eq_true_of_ne_false hmark) marked)
    have hnone := (listedBy_eq_notJson_iff hf what p).1 (heq.symm.trans hrefused)
    rw [hbare, read?_trim hv] at hnone
    cases hnone
  · intro hnone
    exact listedBy_congr what f (((unfenced_fenced_eq_iff marked p).2 hnone).trans hbare.symm)

/-- A JSON text is not changed where there is no fence. In a fence it comes out as it went in exactly
if it has no mark in it, and then only is it read as it is without the fence. -/
theorem unfenced_fenced_json_iff (p : String) (h : (Json.read? p).isSome = true) :
    unfenced p = trim p ∧ ∀ marked : Bool,
      (unfenced (fenced marked p) = trim p ↔ occursIn "```" p = false) ∧
      (Candidate.ofAnswer (fenced marked p) = Candidate.ofAnswer p ↔ occursIn "```" p = false) ∧
      (Extraction.ofAnswer (fenced marked p) = Extraction.ofAnswer p ↔
        occursIn "```" p = false) := by
  refine ⟨unfenced_of_isSome_read? h, fun marked => ⟨unfenced_fenced_eq_iff marked p, ?_, ?_⟩⟩
  · exact listedBy_fenced_iff Candidate.ofItem?_ne_notJson "patterns" h marked
  · exact listedBy_fenced_iff Extraction.findingOfItem?_ne_notJson "entities" h marked

/-- An answer with a template that tells of code. -/
def answerAbout (mark : String) : String :=
  "[\x7b\"name\": \"n\", \"instructionTemplate\": \"use " ++ mark ++ " for code\"\x7d]"

/-- A template with two back quotes comes out of a fence as it went in. -/
theorem unfenced_fenced_backQuotes :
    (Json.read? (answerAbout "``")).isSome = true ∧
      unfenced (fenced true (answerAbout "``")) = trim (answerAbout "``") ∧
      Candidate.ofAnswer (fenced true (answerAbout "``")) =
        Candidate.ofAnswer (answerAbout "``") := by
  have hjson : (Json.read? (answerAbout "``")).isSome = true := by decide +kernel
  have hmark : occursIn "```" (answerAbout "``") = false := by decide +kernel
  have h := (unfenced_fenced_json_iff (answerAbout "``") hjson).2 true
  exact ⟨hjson, h.1.2 hmark, h.2.1.2 hmark⟩

/-- A template that tells of code fences is lost in one: the answer is readable without, and is refused
as no JSON with it. -/
theorem unfenced_fenced_mark :
    (Json.read? (answerAbout "```")).isSome = true ∧
      unfenced (fenced true (answerAbout "```")) ≠ trim (answerAbout "```") ∧
      (Candidate.ofAnswer (answerAbout "```")).toOption.isSome = true ∧
      (Candidate.ofAnswer (fenced true (answerAbout "```"))).toOption.isSome = false := by
  decide +kernel

end TieredMemory
