import TieredMemory.Regex.Syntax

/-!
# Reading regular expressions

The written form of expressions: alternatives between bars, repetitions after an item, sets in
square brackets, groups in parentheses with their many kinds, and escapes after a backslash. What is
not well formed is refused; a repetition count beyond 32 bits is refused for its size.

Reading goes from left to right with one cursor. `fuel` bounds the depth of the recursion: every
step of it reads a character or goes one level down right after having read one.
-/

namespace TieredMemory.Regex

/-- Why an expression is refused. -/
inductive Problem where
  /-- It is not well formed. -/
  | malformed
  /-- A repetition count is too large. -/
  | countTooLarge
  deriving Repr, DecidableEq

/-- How far the reading has come. -/
structure Cursor where
  rest : List Char
  /-- The number of the next group. -/
  nextGroup : Nat := 1
  /-- The named groups. -/
  names : List (String × Nat) := []
  /-- The widths of the groups that are closed. -/
  closed : List (Nat × Nat × Option Nat) := []
  /-- The first group that opens inside the lookbehind in progress. -/
  behindFrom : Option Nat := none
  /-- A lookbehind so far has no fixed width. -/
  hasUnevenBehind : Bool := false
  /-- The groups that conditions refer to. -/
  conditions : List Nat := []
  options : Options := {}

/-- A step of the reading. -/
abbrev Read := StateT Cursor (Except Problem)

/-- A character, or a character after a backslash. -/
inductive Token where
  | plain (c : Char)
  | escaped (c : Char)
  deriving DecidableEq

/-- Refuse the expression. -/
def refuse {α : Type} : Read α := throw .malformed

/-- The next token, which is not passed. -/
def peek : Read (Option Token) := do
  match (← get).rest with
  | [] => return none
  | ['\\'] => refuse
  | '\\' :: c :: _ => return some (.escaped c)
  | c :: _ => return some (.plain c)

/-- The next token, which is passed. -/
def next : Read (Option Token) := do
  let token ← peek
  match token with
  | some (.escaped _) => modify fun s => { s with rest := s.rest.drop 2 }
  | some (.plain _) => modify fun s => { s with rest := s.rest.drop 1 }
  | none => pure ()
  return token

/-- Pass the next token if it is the given character. -/
def accept (c : Char) : Read Bool := do
  if (← peek) == some (.plain c) then
    let _ ← next
    return true
  return false

/-- Pass up to `n` characters that satisfy `p`. -/
def takeUpTo (p : Char → Bool) : Nat → Read (List Char)
  | 0 => return []
  | n + 1 => do
    match ← peek with
    | some (.plain c) =>
      if p c then
        let _ ← next
        return c :: (← takeUpTo p n)
      else return []
    | _ => return []

/-- A decimal digit of ASCII. -/
def isDigit (c : Char) : Bool := '0' ≤ c && c ≤ '9'

/-- An octal digit. -/
def isOctal (c : Char) : Bool := '0' ≤ c && c ≤ '7'

/-- The value of a hexadecimal digit. -/
def hexValue? (c : Char) : Option Nat :=
  if isDigit c then some (c.toNat - 48)
  else if 'a' ≤ c && c ≤ 'f' then some (c.toNat - 87)
  else if 'A' ≤ c && c ≤ 'F' then some (c.toNat - 55)
  else none

/-- The number that digits stand for. -/
def numberOf (base : Nat) (ds : List Char) : Nat :=
  ds.foldl (fun n c => n * base + (hexValue? c).getD 0) 0

/-- The text up to a character, which is passed, too. -/
def takeUntil (stop : Char) : Nat → Read (List Char)
  | 0 => refuse
  | fuel + 1 => do
    match ← next with
    | none => refuse
    | some (.plain c) => if c == stop then return [] else return c :: (← takeUntil stop fuel)
    | some (.escaped c) => return '\\' :: c :: (← takeUntil stop fuel)

/-- A single character as an item of a set. -/
def single (c : Char) : SetItem := .range c c

/-- The class of an escape letter. -/
def classOf? : Char → Option SetItem
  | 'd' => some (.inClass .digit false)
  | 'D' => some (.inClass .digit true)
  | 's' => some (.inClass .space false)
  | 'S' => some (.inClass .space true)
  | 'w' => some (.inClass .word false)
  | 'W' => some (.inClass .word true)
  | _ => none

/-- The control character of an escape letter. -/
def controlOf? : Char → Option Char
  | 'a' => some '\x07'
  | 'f' => some '\x0c'
  | 'n' => some '\n'
  | 'r' => some '\r'
  | 't' => some '\t'
  | 'v' => some '\x0b'
  | '\\' => some '\\'
  | _ => none

/-- A letter of ASCII. -/
def isAsciiLetter (c : Char) : Bool := c.isAlpha

/-- The character of exactly `n` hexadecimal digits. -/
def hexEscape (n : Nat) : Read Char := do
  let ds ← takeUpTo (fun c => (hexValue? c).isSome) n
  if ds.length != n then refuse
  let value := numberOf 16 ds
  if value ≥ 0x110000 then refuse
  return Char.ofNat value

/-- The character of an escape that stands for one, inside and outside of sets. -/
def charEscape (c : Char) : Read Char := do
  match controlOf? c with
  | some control => return control
  | none =>
    if c == 'x' then hexEscape 2
    else if c == 'u' then hexEscape 4
    else if c == 'U' then hexEscape 8
    else if isAsciiLetter c || isDigit c then refuse
    else return c

/-- An escape inside a set. -/
def setEscape (c : Char) : Read SetItem := do
  match classOf? c with
  | some item => return item
  | none =>
    if c == 'b' then return single '\x08'
    else if isOctal c then
      let value := numberOf 8 (c :: (← takeUpTo isOctal 2))
      if value > 0o377 then refuse
      return single (Char.ofNat value)
    else return single (← charEscape c)

/-- One item of a set from a token. -/
def setItem : Token → Read SetItem
  | .plain c => return single c
  | .escaped c => setEscape c

/-- The items of a set up to its closing bracket, those before it given, latest first. -/
def setItems : Nat → List SetItem → Read (List SetItem)
  | 0, _ => refuse
  | fuel + 1, before => do
    match ← next with
    | none => refuse
    | some token =>
      if token == .plain ']' && !before.isEmpty then return before.reverse
      let first ← setItem token
      if ← accept '-' then
        match ← next with
        | none => refuse
        | some (.plain ']') => return (single '-' :: first :: before).reverse
        | some token =>
          match first, ← setItem token with
          | .range lo _, .range hi _ =>
            if hi < lo then refuse
            setItems fuel (.range lo hi :: before)
          | _, _ => refuse
      else setItems fuel (first :: before)

/-- The group is closed. -/
def Cursor.isClosed (s : Cursor) (n : Nat) : Bool := s.closed.any fun p => p.1 == n

/-- A group may be referred to inside a lookbehind only if it is closed and came before it. -/
def checkBehind (n : Nat) : Read Unit := do
  let s ← get
  match s.behindFrom with
  | none => return ()
  | some first => if !s.isClosed n || n ≥ first then refuse

/-- A reference to a group, which has to be closed. -/
def groupReference (n : Nat) : Read Expr := do
  let s ← get
  if n ≥ s.nextGroup then refuse
  match s.closed.find? fun p => p.1 == n with
  | none => refuse
  | some (_, least, most) =>
    checkBehind n
    return .reference n least most s.options

/-- An escape outside of sets. -/
def escape (c : Char) : Read Expr := do
  let options := (← get).options
  let anchor? : Option Anchor := match c with
    | 'A' => some .textStart
    | 'Z' => some .textEnd
    | 'b' => some .boundary
    | 'B' => some .insideWord
    | _ => none
  match anchor?, classOf? c with
  | some place, _ => return .anchor place options
  | none, some item => return .set false [item] options
  | none, none =>
    let char (n : Nat) : Expr := .set false [single (Char.ofNat n)] options
    if c == '0' then return char (numberOf 8 (c :: (← takeUpTo isOctal 2)))
    else if isDigit c then
      let second ← takeUpTo isDigit 1
      match second with
      | [d] =>
        if isOctal c && isOctal d then
          match ← takeUpTo isOctal 1 with
          | [e] =>
            let value := numberOf 8 [c, d, e]
            if value > 0o377 then refuse
            return char value
          | _ => groupReference (numberOf 10 [c, d])
        else groupReference (numberOf 10 [c, d])
      | _ => groupReference (numberOf 10 [c])
    else return .set false [single (← charEscape c)] options

/-- The characters of a group name. -/
def isName (name : List Char) : Bool :=
  match name with
  | [] => false
  | c :: _ => !(Text.isDecimalDigit c) && name.all Text.isWordChar

/-- The bound that a repetition count may not reach. -/
def countLimit : Nat := 4294967295

/-- The counts of a repetition in braces, if that is what stands there. -/
def braceCounts? (s : List Char) : Option (List Char × List Char × List Char) :=
  let lo := s.takeWhile isDigit
  match s.dropWhile isDigit with
  | ',' :: r =>
    match r.dropWhile isDigit with
    | '}' :: r' => some (lo, r.takeWhile isDigit, r')
    | _ => none
  | '}' :: r => if lo.isEmpty then none else some (lo, lo, r)
  | _ => none

/-- The least and the greatest number of rounds that a repetition character asks for; none if it
stands for itself. -/
def counts? (c : Char) : Read (Option (Nat × Option Nat)) := do
  match c with
  | '?' => return some (0, some 1)
  | '*' => return some (0, none)
  | '+' => return some (1, none)
  | _ =>
    match braceCounts? (← get).rest with
    | none => return none
    | some (lo, hi, rest) =>
      modify fun s => { s with rest := rest }
      let least := numberOf 10 lo
      if least ≥ countLimit then throw .countTooLarge
      if hi.isEmpty then return some (least, none)
      let most := numberOf 10 hi
      if most ≥ countLimit then throw .countTooLarge
      if most < least then refuse
      return some (least, some most)

/-- Repeat the latest item. -/
def repeatLatest (least : Nat) (most : Option Nat) : List Expr → Read (List Expr)
  | [] | .anchor .. :: _ | .repetition .. :: _ => refuse
  | item :: before => do
    if ← accept '?' then return .repetition least most .lazy item :: before
    if ← accept '+' then return .repetition least most .possessive item :: before
    return .repetition least most .greedy item :: before

/-- Set one option; the letters of the kinds of text cannot be switched off. -/
def setOption (value : Bool) (o : Options) : Char → Option Options
  | 'i' => some { o with ignoreCase := value }
  | 'm' => some { o with multiline := value }
  | 's' => some { o with dotAll := value }
  | 'x' => some { o with verbose := value }
  | 'a' => if value then some { o with ascii := true } else none
  | 'u' => if value then some { o with ascii := false } else none
  | _ => none

/-- Option letters switched on or off, up to one of the stop characters: the letters and the
stop. -/
def optionLetters (stops : List Char) : Nat → Read (List Char × Char)
  | 0 => refuse
  | fuel + 1 => do
    match ← next with
    | some (.plain c) =>
      if stops.contains c then return ([], c)
      else if "aimsux".toList.contains c then
        let (cs, stop) ← optionLetters stops fuel
        return (c :: cs, stop)
      else refuse
    | _ => refuse

/-- Apply option letters one after another. -/
def setOptions (value : Bool) (cs : List Char) (o : Options) : Read Options :=
  match cs.foldlM (setOption value) o with
  | some o => return o
  | none => refuse

/-- What the options after a group's question mark ask for: the options of the group, or nothing if
they hold from here on. `c` is the first letter. -/
def groupOptions (c : Char) : Read (Option Options) := do
  let s ← get
  let fuel := s.rest.length + 1
  let (on, stop) ← if c == '-' then pure ([], '-')
    else do
      let (cs, stop) ← optionLetters [')', '-', ':'] fuel
      pure (c :: cs, stop)
  if on.contains 'a' && on.contains 'u' then refuse
  let options ← setOptions true on s.options
  if stop == ')' then
    modify fun s => { s with options := options }
    return none
  else if stop == ':' then return some options
  else
    let (off, _) ← optionLetters [':'] fuel
    if off.isEmpty || off.any on.contains then refuse
    return some (← setOptions false off options)

/-- Skip a comment in parentheses. -/
def skipComment : Nat → Read Unit
  | 0 => refuse
  | fuel + 1 => do
    match ← next with
    | none => refuse
    | some (.plain ')') => return ()
    | some _ => skipComment fuel

/-- Skip the rest of a line. -/
def skipLine : Nat → Read Unit
  | 0 => return ()
  | fuel + 1 => do
    match ← next with
    | none | some (.plain '\n') => return ()
    | some _ => skipLine fuel

/-- Open a new group. -/
def openGroup (name : Option (List Char)) : Read Nat := do
  let s ← get
  let n := s.nextGroup
  let names ← match name with
    | none => pure s.names
    | some name =>
      let name := String.ofList name
      if s.names.any fun p => p.1 == name then refuse
      pure ((name, n) :: s.names)
  set { s with nextGroup := n + 1, names := names }
  return n

/-- The closing parenthesis has to stand here. -/
def expectClose : Read Unit := do
  if !(← accept ')') then refuse

/-- The group that a condition names. -/
def conditionGroup (name : List Char) : Read Nat := do
  let s ← get
  if isName name then
    match s.names.find? fun p => p.1 == String.ofList name with
    | some (_, n) => return n
    | none => refuse
  else if name.all isDigit && !name.isEmpty then
    let n := numberOf 10 name
    if n == 0 then refuse
    modify fun s => { s with conditions := n :: s.conditions }
    return n
  else refuse

mutual

/-- Alternatives between bars. -/
def alternatives : Nat → Bool → List Expr → Read Expr
  | 0, _, _ => refuse
  | fuel + 1, top, before => do
    let branch ← sequence fuel (top && before.isEmpty) []
    if ← accept '|' then alternatives fuel top (branch :: before)
    else
      match before with
      | [] => return branch
      | _ => return .choice (branch :: before).reverse

/-- Items one after another, those before given, latest first. `first` says that nothing of the
whole expression but options may have come before. -/
def sequence : Nat → Bool → List Expr → Read Expr
  | 0, _, _ => refuse
  | fuel + 1, first, before => do
    match ← peek with
    | none | some (.plain '|') | some (.plain ')') => return .seq before.reverse
    | some token =>
      let _ ← next
      let options := (← get).options
      match token with
      | .escaped c =>
        let item ← escape c
        sequence fuel first (item :: before)
      | .plain c =>
        if options.verbose && (c == ' ' || (9 ≤ c.toNat && c.toNat ≤ 13)) then
          sequence fuel first before
        else if options.verbose && c == '#' then
          skipLine fuel
          sequence fuel first before
        else if c == '[' then
          let negated ← accept '^'
          let items ← setItems ((← get).rest.length + 1) []
          sequence fuel first (.set negated items options :: before)
        else if c == '?' || c == '*' || c == '+' || c == '\x7b' then
          match ← counts? c with
          | none => sequence fuel first (.set false [single c] options :: before)
          | some (least, most) => sequence fuel first (← repeatLatest least most before)
        else if c == '.' then sequence fuel first (.any options :: before)
        else if c == '^' then sequence fuel first (.anchor .lineStart options :: before)
        else if c == '$' then sequence fuel first (.anchor .lineEnd options :: before)
        else if c == '(' then
          match ← parenthesis fuel (first && before.isEmpty) with
          | some item => sequence fuel first (item :: before)
          | none => sequence fuel first before
        else sequence fuel first (.set false [single c] options :: before)

/-- The body of a group up to its closing parenthesis, under its own options. -/
def body : Nat → Options → Read Expr
  | 0, _ => refuse
  | fuel + 1, options => do
    let outer := (← get).options
    modify fun s => { s with options := options }
    let e ← alternatives fuel false []
    modify fun s => { s with options := outer }
    expectClose
    return e

/-- A capturing group after its opening parenthesis and its name. -/
def capturing : Nat → Option (List Char) → Read Expr
  | 0, _ => refuse
  | fuel + 1, name => do
    let n ← openGroup name
    let e ← body fuel (← get).options
    let (least, most) := e.width
    modify fun s => { s with closed := (n, least, most) :: s.closed }
    return .group (some n) e

/-- A group after its opening parenthesis; options and comments are no items. `first` says that
options may hold from here on. -/
def parenthesis : Nat → Bool → Read (Option Expr)
  | 0, _ => refuse
  | fuel + 1, first => do
    if !(← accept '?') then return some (← capturing fuel none)
    let options := (← get).options
    match ← next with
    | some (.plain ':') => return some (.group none (← body fuel options))
    | some (.plain '>') => return some (.atomic (← body fuel options))
    | some (.plain '#') =>
      skipComment ((← get).rest.length + 1)
      return none
    | some (.plain '=') => return some (.look none false (← body fuel options))
    | some (.plain '!') => return some (.look none true (← body fuel options))
    | some (.plain '<') =>
      let negated ← match ← next with
        | some (.plain '=') => pure false
        | some (.plain '!') => pure true
        | _ => refuse
      let outer := (← get).behindFrom
      modify fun s => { s with behindFrom := outer.or (some s.nextGroup) }
      let e ← body fuel options
      modify fun s => { s with behindFrom := outer }
      let (least, most) := e.width
      if most != some least then modify fun s => { s with hasUnevenBehind := true }
      return some (.look (some least) negated e)
    | some (.plain 'P') =>
      match ← next with
      | some (.plain '<') =>
        let name ← takeUntil '>' ((← get).rest.length + 1)
        if !isName name then refuse
        return some (← capturing fuel (some name))
      | some (.plain '=') =>
        let name ← takeUntil ')' ((← get).rest.length + 1)
        if !isName name then refuse
        match (← get).names.find? fun p => p.1 == String.ofList name with
        | some (_, n) => return some (← groupReference n)
        | none => refuse
      | _ => refuse
    | some (.plain '(') =>
      let n ← conditionGroup (← takeUntil ')' ((← get).rest.length + 1))
      checkBehind n
      let yes ← sequence fuel false []
      let no ← if ← accept '|' then sequence fuel false [] else pure (.seq [])
      expectClose
      return some (.conditional n yes no)
    | some (.plain c) =>
      if c == '-' || "aimsux".toList.contains c then
        match ← groupOptions c with
        | some own => return some (.group none (← body fuel own))
        | none => if first then return none else refuse
      else refuse
    | _ => refuse

end

/-- The expression that a whole text is.

In two places the reading is not that of the dialect. Options of opposite kinds at the beginning, as
in `(?a)(?u)x`, are read one after the other and the later one holds, where the dialect has them
refused, and not as malformed but for the contradiction. And a character by its name, as in
`\N{DASH}`, is refused, since the names of characters are not modelled, where the dialect knows
them. -/
def read (s : String) : Except Problem Expr := do
  let cs := s.toList
  let (e, cursor) ← (alternatives (6 * cs.length + 8) true []).run { rest := cs }
  if !cursor.rest.isEmpty then throw .malformed
  if cursor.conditions.any (· ≥ cursor.nextGroup) || cursor.hasUnevenBehind then throw .malformed
  return e

end TieredMemory.Regex
