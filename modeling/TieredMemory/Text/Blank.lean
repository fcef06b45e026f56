/-!
# Blank characters

Blank is what separates words and what trimming removes: the white space of Unicode together with
the four separator controls U+001C to U+001F. The zero-width space and the byte order mark are not
blank.
-/

namespace TieredMemory.Text

/-- White space and the separator controls U+001C to U+001F. -/
def isBlank (c : Char) : Bool :=
  let n := c.toNat
  (0x09 ≤ n && n ≤ 0x0D) || (0x1C ≤ n && n ≤ 0x20) || n == 0x85 || n == 0xA0 || n == 0x1680
    || (0x2000 ≤ n && n ≤ 0x200A) || n == 0x2028 || n == 0x2029 || n == 0x202F || n == 0x205F
    || n == 0x3000

/-- Drop from both ends the characters that satisfy `p`. -/
def trimWhere (p : Char → Bool) (s : String) : String :=
  String.ofList ((s.toList.dropWhile p).reverse.dropWhile p).reverse

/-- Drop the blanks at both ends. -/
def trim (s : String) : String := trimWhere isBlank s

/-- Drop from both ends the characters that occur in `set`. -/
def trimChars (set : String) (s : String) : String :=
  trimWhere (fun c => set.toList.contains c) s

/-- A text is empty when nothing but blanks is in it. -/
def isEmptyText (s : String) : Bool := s.toList.all isBlank

/-- The maximal runs of characters that do not satisfy `p`, with the run in progress. -/
def runsWithout (p : Char → Bool) (run : List Char) : List Char → List (List Char)
  | [] => if run.isEmpty then [] else [run.reverse]
  | c :: r =>
    if p c then
      if run.isEmpty then runsWithout p [] r else run.reverse :: runsWithout p [] r
    else runsWithout p (c :: run) r

/-- The words of a text: its maximal runs of non-blank characters. -/
def words (s : String) : List String := (runsWithout isBlank [] s.toList).map String.ofList

end TieredMemory.Text
