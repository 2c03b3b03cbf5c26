/-!
# `ReviewGate.Text.Lines` — a text as lines

Three ways to see lines. A *newline split* cuts at each newline and keeps an empty last line; a
*break split* cuts at every kind of line break and gives no empty last line; *newline
normalisation* turns every return into a newline.

## Contents
- `lines`, `joinLines`: the newline split of a string and its inverse.
- `isBreak`, `breakLines`: the break split.
- `unifyNewlines`: newline normalisation.
-/

namespace ReviewGate.Text

/-- The pieces of a string between newlines; the empty string has one empty line. -/
def lines (s : String) : List String := (s.toList.splitOn '\n').map String.ofList

/-- The lines with a newline between neighbours. -/
def joinLines (ls : List String) : String :=
  String.ofList (List.intercalate ['\n'] (ls.map String.toList))

/-- Is `c` a character that ends a line, other than a return followed by a newline? -/
def isBreak (c : Char) : Bool :=
  let n := c.toNat
  (10 ≤ n && n ≤ 13) || (28 ≤ n && n ≤ 30) || n == 0x85 || n == 0x2028 || n == 0x2029

/-- The break split of the characters, with `line` (reversed) already read from the first line. -/
def breakLinesFrom (line : List Char) : List Char → List (List Char)
  | [] => if line.isEmpty then [] else [line.reverse]
  | '\r' :: '\n' :: rest => line.reverse :: breakLinesFrom [] rest
  | c :: rest =>
      if isBreak c then line.reverse :: breakLinesFrom [] rest else breakLinesFrom (c :: line) rest

/-- The pieces of a string between line breaks of any kind, with no empty piece at the end. -/
def breakLines (s : String) : List String := (breakLinesFrom [] s.toList).map String.ofList

/-- Every return, and every return followed by a newline, as one newline. -/
def unifyNewlines : List Char → List Char
  | [] => []
  | '\r' :: '\n' :: rest => '\n' :: unifyNewlines rest
  | '\r' :: rest => '\n' :: unifyNewlines rest
  | c :: rest => c :: unifyNewlines rest

end ReviewGate.Text
