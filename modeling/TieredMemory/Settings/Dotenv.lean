import TieredMemory.Service.Model
import TieredMemory.Text.Blank
import TieredMemory.Text.Find

/-!
# Files of variables

A file of variables has one `NAME=value` on a line, perhaps after `export`. A value in single or
double quotes may go over several lines and may have escapes; a value without quotes ends where a
comment begins. A line that is none of this is skipped. A variable in a value, written with a dollar
sign and braces, stands for its value in the file so far, else in the environment, else for its
default.
-/

namespace TieredMemory.Dotenv

/-- A blank that does not end a line. -/
def isGap (c : Char) : Bool := Text.isBlank c && c != '\n' && c != '\r'

/-- The character ends a line. -/
def isEnd (c : Char) : Bool := c == '\n' || c == '\r'

/-- Drop the text without the characters that satisfy `p`. -/
abbrev skip (p : Char → Bool) (s : List Char) : List Char := s.dropWhile p

/-- The text without an end of line at its beginning. -/
def afterEnd : List Char → List Char
  | '\r' :: '\n' :: r => r
  | c :: r => if isEnd c then r else c :: r
  | [] => []

/-- The text after the rest of the line. -/
def nextLine (s : List Char) : List Char := afterEnd (skip (fun c => !isEnd c) s)

/-- The text after `export`, if it is there with a blank after it. -/
def afterExport (s : List Char) : List Char :=
  let word := "export".toList
  if word.isPrefixOf s && (s.drop word.length).head?.any isGap then
    skip isGap (s.drop word.length)
  else s

/-- The characters up to the closing quote, escapes kept, and what follows it. -/
def inQuotes (quote : Char) : List Char → Option (List Char × List Char)
  | [] => none
  | '\\' :: c :: r =>
    if c == quote then (inQuotes quote r).map fun p => ('\\' :: c :: p.1, p.2)
    else (inQuotes quote (c :: r)).map fun p => ('\\' :: p.1, p.2)
  | c :: r => if c == quote then some ([], r) else (inQuotes quote r).map fun p => (c :: p.1, p.2)

/-- The character that an escape between double quotes stands for. -/
def escaped? : Char → Option Char
  | '\\' => some '\\'
  | '\'' => some '\''
  | '"' => some '"'
  | 'a' => some '\x07'
  | 'b' => some '\x08'
  | 'f' => some '\x0c'
  | 'n' => some '\n'
  | 'r' => some '\r'
  | 't' => some '\t'
  | 'v' => some '\x0b'
  | _ => none

/-- The characters with escapes replaced by what they stand for. -/
def unescaped (known : Char → Option Char) : List Char → List Char
  | [] => []
  | '\\' :: c :: r =>
    match known c with
    | some x => x :: unescaped known r
    | none => '\\' :: unescaped known (c :: r)
  | c :: r => c :: unescaped known r

/-- The character that an escape between single quotes stands for. -/
def quoteEscaped? (c : Char) : Option Char := if c == '\\' || c == '\'' then some c else none

/-- A value without quotes, up to a comment that has a blank before it. -/
def plainValue : List Char → List Char
  | [] => []
  | c :: r =>
      if Text.isBlank c && (skip Text.isBlank r).head? == some '#' then [] else c :: plainValue r

/-- A name and what follows it. A line may have no name. -/
def name? : List Char → Option (Option (List Char) × List Char)
  | [] => none
  | '\'' :: r =>
    match r.span (· != '\'') with
    | (n, '\'' :: r) => if n.isEmpty then none else some (some n, r)
    | _ => none
  | c :: r =>
    if c == '#' then some (none, c :: r)
    else
      let (n, r) := (c :: r).span fun c => !(c == '=' || c == '#' || Text.isBlank c)
      if n.isEmpty then none else some (some n, r)

/-- A value and what follows it. -/
def value? : List Char → Option (List Char × List Char)
  | [] => some ([], [])
  | '\'' :: r => (inQuotes '\'' r).map fun p => (unescaped quoteEscaped? p.1, p.2)
  | '"' :: r => (inQuotes '"' r).map fun p => (unescaped escaped? p.1, p.2)
  | c :: r =>
    let (v, r) := (c :: r).span fun c => !isEnd c
    some ((Text.trimWhere Text.isBlank (String.ofList (plainValue v))).toList, r)

/-- The text after the end of a binding: blanks, a comment, and the end of the line. -/
def finish? (s : List Char) : Option (List Char) :=
  let s := skip isGap s
  let s := if s.head? == some '#' then skip (fun c => !isEnd c) s else s
  match s with
  | [] => some []
  | c :: r => if isEnd c then some (afterEnd (c :: r)) else none

/-- One binding and what follows it. -/
def binding? (s : List Char) : Option (Option (String × String) × List Char) := do
  let (n, r) ← name? (afterExport s)
  let r := skip isGap r
  let (v, r) ← match r with
    | '=' :: r => (value? (skip isGap r)).map fun p => (some p.1, p.2)
    | r => some (none, r)
  let r ← finish? r
  return (n.bind fun n => v.map fun v => (String.ofList n, String.ofList v), r)

/-- The bindings of a text, in at most so many lines. -/
def bindings : Nat → List Char → List (String × String)
  | 0, _ => []
  | n + 1, s =>
    match skip Text.isBlank s with
    | [] => []
    | s =>
      match binding? s with
      | some (b, r) => b.toList ++ bindings n r
      | none => bindings n (nextLine s)

/-- The name, the default and what follows of a variable in braces, after the opening one. -/
def reference? (s : List Char) : Option (String × String × List Char) :=
  let (n, r) := s.span fun c => !(c == '\x7d' || c == ':')
  match r with
  | '\x7d' :: r => some (String.ofList n, "", r)
  | ':' :: '-' :: r =>
    match r.span (· != '\x7d') with
    | (d, '\x7d' :: r) => some (String.ofList n, String.ofList d, r)
    | _ => none
  | _ => none

/-- The text with variables replaced by their values, in at most so many steps. -/
def expanded (value : String → Option String) : Nat → List Char → List Char
  | 0, s => s
  | _ + 1, [] => []
  | n + 1, '$' :: '\x7b' :: r =>
    match reference? r with
    | some (name, default, r) => ((value name).getD default).toList ++ expanded value n r
    | none => '$' :: expanded value n ('\x7b' :: r)
  | n + 1, c :: r => c :: expanded value n r

/-- The variables of a file, in order, the last value of each. -/
def read (env : Environment) (text : String) : Environment :=
  (bindings (text.length + 1) text.toList).foldl
    (fun found (name, v) =>
      let value := fun n =>
        (found.find? fun p => p.1 == n).or (env.find? fun p => p.1 == n) |>.map (·.2)
      found.filter (fun p => p.1 != name) ++
        [(name, String.ofList (expanded value (v.length + 1) v.toList))])
    []

end TieredMemory.Dotenv
