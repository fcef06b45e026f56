import TieredMemory.Regex.Reader

/-!
# Matching regular expressions

A match is looked for by trying the ways in which an expression can match one after another, each
with all that is to match after it. The place in the text and the pieces that the groups hold are
the state of a try. A round of a repetition that matches nothing is the last one, so every way is
finite; `fuel` bounds the depth of the recursion.
-/

namespace TieredMemory.Regex

open TieredMemory.Text

/-- Where a try stands. -/
structure Place where
  index : Nat
  /-- The first index and the index after the last one of what each group has matched. -/
  groups : List (Nat × Nat × Nat)

/-- What is still to match after the present expression. -/
abbrev Goal := Place → Option Place

/-- A character that makes words under the options. -/
def isWordIn (options : Options) (c : Char) : Bool :=
  isWordChar c && (!options.ascii || c.toNat < 128)

/-- The anchor holds at an index. -/
def Anchor.holds (text : Array Char) (options : Options) (i : Nat) : Anchor → Bool
  | lineStart => i == 0 || (options.multiline && text[i - 1]? == some '\n')
  | lineEnd =>
    i == text.size || (i + 1 == text.size && text[i]? == some '\n')
      || (options.multiline && text[i]? == some '\n')
  | textStart => i == 0
  | textEnd => i == text.size
  | boundary => !text.isEmpty && isEdge
  | insideWord => !text.isEmpty && !isEdge
where
  isEdge : Bool :=
    (i != 0 && (text[i - 1]?).any (isWordIn options)) != (text[i]?).any (isWordIn options)

/-- What a group has matched last. -/
def Place.group? (p : Place) (n : Nat) : Option (Nat × Nat) :=
  (p.groups.find? fun g => g.1 == n).map (·.2)

/-- The place with what a group has matched. -/
def Place.withGroup (p : Place) (n first last : Nat) : Place :=
  { p with groups := (n, first, last) :: p.groups.filter fun g => g.1 != n }

/-- The characters are the same under the options. -/
def sameChar (options : Options) (a b : Char) : Bool :=
  if !options.ignoreCase then a == b
  else if options.ascii then foldAscii a == foldAscii b
  else foldChar a == foldChar b

/-- The text repeats at `i` the characters from `first` up to `last`. -/
def repeatsAt (text : Array Char) (options : Options) (i first last : Nat) : Bool :=
  i + (last - first) ≤ text.size &&
    (List.range (last - first)).all fun k =>
      match text[first + k]?, text[i + k]? with
      | some a, some b => sameChar options a b
      | _, _ => false

mutual

/-- Match the expression here and the goal after it. -/
def matchExpr (text : Array Char) : Nat → Expr → Goal → Place → Option Place
  | 0, _, _, _ => none
  | fuel + 1, e, goal, p =>
    match e with
    | .set negated items options =>
      match text[p.index]? with
      | some c =>
          if setHolds negated items options c then goal { p with index := p.index + 1 } else none
      | none => none
    | .any options =>
      match text[p.index]? with
      | some c => if options.dotAll || c != '\n' then goal { p with index := p.index + 1 } else none
      | none => none
    | .anchor place options => if place.holds text options p.index then goal p else none
    | .seq parts => matchSeq text fuel parts goal p
    | .choice branches => matchChoice text fuel branches goal p
    | .group none body => matchExpr text fuel body goal p
    | .group (some n) body =>
      matchExpr text fuel body (fun q => goal (q.withGroup n p.index q.index)) p
    | .repetition least most greed body =>
      match greed with
      | .possessive =>
        match matchRounds text fuel least most .greedy body 0 none some p with
        | some q => goal q
        | none => none
      | greed => matchRounds text fuel least most greed body 0 none goal p
    | .look none negated body =>
      match matchExpr text fuel body some p, negated with
      | some q, false => goal { q with index := p.index }
      | none, true => goal p
      | _, _ => none
    | .look (some width) negated body =>
      let found := if p.index < width then none
        else matchExpr text fuel body some { p with index := p.index - width }
      match found, negated with
      | some q, false => goal { q with index := p.index }
      | none, true => goal p
      | _, _ => none
    | .atomic body =>
      match matchExpr text fuel body some p with
      | some q => goal q
      | none => none
    | .reference n _ _ options =>
      match p.group? n with
      | some (first, last) =>
        if repeatsAt text options p.index first last then
          goal { p with index := p.index + (last - first) }
        else none
      | none => none
    | .conditional n yes no =>
      if (p.group? n).isSome then matchExpr text fuel yes goal p else matchExpr text fuel no goal p

/-- Match the expressions one after another. -/
def matchSeq (text : Array Char) : Nat → List Expr → Goal → Place → Option Place
  | 0, _, _, _ => none
  | _ + 1, [], goal, p => goal p
  | fuel + 1, e :: r, goal, p => matchExpr text fuel e (fun q => matchSeq text fuel r goal q) p

/-- Match the first of the branches that leads to the goal. -/
def matchChoice (text : Array Char) : Nat → List Expr → Goal → Place → Option Place
  | 0, _, _, _ => none
  | _ + 1, [], _, _ => none
  | fuel + 1, e :: r, goal, p =>
    match matchExpr text fuel e goal p with
    | some q => some q
    | none => matchChoice text fuel r goal p

/-- Match further rounds of a repetition after `count` of them, the latest of which began at
`latest`. -/
def matchRounds (text : Array Char) : Nat → Nat → Option Nat → Greed → Expr → Nat → Option Nat →
    Goal → Place → Option Place
  | 0, _, _, _, _, _, _, _, _ => none
  | fuel + 1, least, most, greed, body, count, latest, goal, p =>
    let round (latest : Option Nat) : Option Place :=
      matchExpr text fuel body
        (fun q => matchRounds text fuel least most greed body (count + 1) latest goal q) p
    if count < least then round latest
    else
      let mayGoOn := most.all (count < ·) && latest != some p.index
      match greed with
      | .lazy =>
        match goal p with
        | some q => some q
        | none => if mayGoOn then round (some p.index) else none
      | _ =>
        match if mayGoOn then round (some p.index) else none with
        | some q => some q
        | none => goal p

end

mutual

/-- The number of parts of an expression, a repetition counted as often as it has to be gone
through. -/
def Expr.size : Expr → Nat
  | .seq parts => sizes parts + 1
  | .choice branches => sizes branches + 1
  | .group _ body | .atomic body | .look _ _ body => body.size + 1
  | .repetition least _ _ body => (least + 1) * (body.size + 2) + 2
  | .conditional _ yes no => yes.size + no.size + 1
  | _ => 1

/-- The number of parts of several expressions. -/
def sizes : List Expr → Nat
  | [] => 1
  | e :: r => e.size + sizes r + 1

end

/-- The match that begins at an index. -/
def matchAt? (e : Expr) (text : Array Char) (i : Nat) : Option Place :=
  matchExpr text (4 * (e.size + 4) * (text.size + 2)) e some ⟨i, []⟩

/-- The first match in a text, given the number of places still to try: where it begins, and the
place after it. -/
def searchFrom (e : Expr) (text : Array Char) : Nat → Nat → Option (Nat × Place)
  | 0, _ => none
  | n + 1, i =>
    match matchAt? e text i with
    | some p => some (i, p)
    | none => searchFrom e text n (i + 1)

/-- The first match in a text. -/
def search? (e : Expr) (s : String) : Option (Nat × Place) :=
  let text := s.toList.toArray
  searchFrom e text (text.size + 1) 0

/-- The expression is found in the text. -/
def occurs (e : Expr) (s : String) : Bool := (search? e s).isSome

/-- The text from an index up to another. -/
def slice (s : String) (first last : Nat) : String :=
  String.ofList ((s.toList.drop first).take (last - first))

/-- What a group matched at a place. -/
def Place.text? (p : Place) (s : String) (n : Nat) : Option String :=
  (p.group? n).map fun g => slice s g.1 g.2

end TieredMemory.Regex
