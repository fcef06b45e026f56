import TieredMemory.Text.Find

/-!
# Paths

A path is a root and the names on the way from there. Empty names and single dots are dropped, so
that a path has one spelling, a single dot if nothing is left; exactly two slashes at the beginning
are a root of their own.
-/

namespace TieredMemory

/-- A place in a tree of files. -/
structure Path where
  /-- Empty for a relative path. -/
  root : String
  names : List String
  deriving Repr, DecidableEq

namespace Path

/-- The root of a written path. -/
def rootOf (s : String) : String :=
  match s.toList.takeWhile (· == '/') with
  | [] => ""
  | [_, _] => "//"
  | _ => "/"

/-- The path that a text spells. -/
def ofText (s : String) : Path :=
  ⟨rootOf s, (Text.pieces "/" s).filter fun n => n ≠ "" ∧ n ≠ "."⟩

/-- The spelling of a path. -/
def shown (p : Path) : String :=
  if p.root.isEmpty && p.names.isEmpty then "." else p.root ++ "/".intercalate p.names

/-- The path that leads on from another one; one with a root stands for itself. -/
def join (p q : Path) : Path := if q.root.isEmpty then ⟨p.root, p.names ++ q.names⟩ else q

/-- The path stays below the place where it starts. -/
def isBelow (p : Path) : Bool := p.root.isEmpty && !p.names.contains ".."

end Path

end TieredMemory
