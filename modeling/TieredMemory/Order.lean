/-!
# Order of numbers, texts and ranked lists

Clamping and ranking. The lesser and the greater of two numbers keep the first one unless the second
is strictly beyond it, which settles what happens to a value that is not a number. Ranking puts the
greatest key first and leaves equal keys in the order in which they stood.
-/

namespace TieredMemory

/-- The first number unless the second is less. -/
def least (x y : Float) : Float := if y < x then y else x

/-- The first number unless the second is greater. -/
def greatest (x y : Float) : Float := if x < y then y else x

/-- The number moved into the unit interval. -/
def clampUnit (x : Float) : Float := least (greatest x 0) 1

/-- The number moved between minus one and one. -/
def clampSigned (x : Float) : Float := greatest (-1) (least 1 x)

/-- Lexicographic order of a number and what decides between equal numbers. A value that is not a
number is before nothing and after nothing. -/
def floatThen (x y : Float) (rest : Bool) : Bool := if x == y then rest else x < y

/-- The list in ascending order of a strict comparison, equal members in the order they had. -/
def ascending {α : Type} (before : α → α → Bool) (xs : List α) : List α :=
  xs.mergeSort fun a b => !before b a

/-- The list in descending order of a strict comparison, equal members in the order they had. -/
def descending {α : Type} (before : α → α → Bool) (xs : List α) : List α :=
  xs.mergeSort fun a b => !before a b

/-- The first of the members that come before all others, given the best one so far. -/
def leastFrom {α : Type} (before : α → α → Bool) (best : α) : List α → α
  | [] => best
  | a :: r => leastFrom before (if before a best then a else best) r

/-- The texts in code point order, each once. -/
def sortedDistinct (xs : List String) : List String :=
  (ascending (fun a b => decide (a < b)) xs).eraseDups

/-- The last `n` members. -/
def lastOf {α : Type} (n : Nat) (xs : List α) : List α := xs.drop (xs.length - n)

end TieredMemory
