/-
Blank characters, and cutting text at them.

The blank characters are those of the Unicode property `White_Space`; a few
formats admit only the ASCII ones and say so.  All functions work on lists of
characters, so that they can be reasoned about by induction; the `String`
versions at the end of each section only wrap them.

Trimming takes off all blanks at the ends and none in between, and words are what stands
between blanks, so that no word is empty.  Cutting at a character keeps empty pieces.
-/

namespace ScanGraph.Text

/-! ## The two classes -/

/-- The characters of the Unicode property `White_Space`. -/
def isBlank (c : Char) : Bool :=
  let n := c.toNat
  (9 ≤ n && n ≤ 13) || n == 0x20 || n == 0x85 || n == 0xA0 || n == 0x1680
    || (0x2000 ≤ n && n ≤ 0x200A) || n == 0x2028 || n == 0x2029
    || n == 0x202F || n == 0x205F || n == 0x3000

/-- The ASCII blanks: space, tab, line feed, form feed and carriage return. -/
def isAsciiBlank (n : UInt8) : Bool :=
  n == 0x20 || n == 9 || n == 10 || n == 12 || n == 13

/-! ## Trimming -/

/-- The list without the elements satisfying `p` at either end. -/
def trimWhere {α : Type} (p : α → Bool) (l : List α) : List α :=
  ((l.dropWhile p).reverse.dropWhile p).reverse

/-- The list without the elements satisfying `p` at its end. -/
def trimEndWhere {α : Type} (p : α → Bool) (l : List α) : List α :=
  (l.reverse.dropWhile p).reverse

/-- The text without blanks at either end. -/
def trim (s : String) : String :=
  String.ofList (trimWhere isBlank s.toList)

/-- The text without any run of `c` at its end. -/
def trimEnd (c : Char) (s : String) : String :=
  String.ofList (trimEndWhere (· == c) s.toList)

/-! ## Cutting -/

/-- The maximal runs of characters that are not blank. -/
def words (cs : List Char) : List (List Char) :=
  (cs.splitOnP isBlank).filter (fun w => !w.isEmpty)

/-- The pieces of a text between occurrences of `c`; a text without `c` is one piece. -/
def pieces (c : Char) (s : String) : List String :=
  (s.toList.splitOn c).map String.ofList

/-- The texts joined with `sep` between neighbours. -/
def join (sep : String) (l : List String) : String :=
  sep.intercalate l

/-! ## Letters -/

/-- The text with ASCII capitals made small and all else kept. -/
def lowerAscii (s : String) : String :=
  s.map Char.toLower

/-- The text with ASCII small letters made capital and all else kept. -/
def upperAscii (s : String) : String :=
  s.map Char.toUpper

end ScanGraph.Text
