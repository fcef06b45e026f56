import TieredMemory.Text.Quoted
import TieredMemory.Decimal.Shortest

/-!
# JSON values

The values that a JSON text denotes. A number without point and exponent is an integer of any size;
every other number is a floating-point number, and not-a-number and the infinities are values too.
Members of an object keep the order in which their names first occurred.

A value can be shown: texts as they are when they stand alone and quoted inside a list or an object,
with `None`, `True` and `False` for the constants.
-/

namespace TieredMemory.Json

/-- A JSON value. -/
inductive Value where
  | null
  | bool (b : Bool)
  | int (n : Int)
  | real (x : Float)
  | str (s : String)
  | arr (items : List Value)
  | obj (members : List (String × Value))
  deriving Inhabited

/-- The value of a name among the members of an object. -/
def lookup? (name : String) : List (String × Value) → Option Value
  | [] => none
  | (n, v) :: r => if n = name then some v else lookup? name r

/-- Give a name a value: in the place of its old one, or at the end. -/
def assign (name : String) (value : Value) : List (String × Value) → List (String × Value)
  | [] => [(name, value)]
  | (n, v) :: r => if n = name then (n, value) :: r else (n, v) :: assign name value r

mutual

/-- The value as it is shown inside another one. -/
def Value.quoted : Value → String
  | .null => "None"
  | .bool b => if b then "True" else "False"
  | .int n => toString n
  | .real x => Decimal.plain x
  | .str s => Text.quoted s
  | .arr items => "[" ++ ", ".intercalate (quotedItems items) ++ "]"
  | .obj members => "\x7b" ++ ", ".intercalate (quotedMembers members) ++ "\x7d"

/-- The items of a list as they are shown. -/
def quotedItems : List Value → List String
  | [] => []
  | v :: r => v.quoted :: quotedItems r

/-- The members of an object as they are shown. -/
def quotedMembers : List (String × Value) → List String
  | [] => []
  | (n, v) :: r => (Text.quoted n ++ ": " ++ v.quoted) :: quotedMembers r

end

/-- The value as it is shown on its own: a text as it is. -/
def Value.shown : Value → String
  | .str s => s
  | v => v.quoted

/-- The value counts as something: not null, false, zero or empty. -/
def Value.isTruthy : Value → Bool
  | .null => false
  | .bool b => b
  | .int n => n != 0
  | .real x => x != 0
  | .str s => !s.isEmpty
  | .arr items => !items.isEmpty
  | .obj members => !members.isEmpty

end TieredMemory.Json
