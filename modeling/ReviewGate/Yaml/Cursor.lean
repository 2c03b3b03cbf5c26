import ReviewGate.Fault

/-!
# `ReviewGate.Yaml.Cursor` — a place in a YAML text

## Contents
- `isLineEnd`, `isEnd`, `endsWord`, `isNameChar`: classes of characters. The end of the text counts
  as a character, `none`.
- `isAllowed`: the characters that a text may hold.
- `Cursor`: what is still to be read, with the line and column.
- `Cursor.next`, `skip`, `skipWhile`: the cursor further on.
- `Cursor.atMarker`: does a document marker stand here?
-/

namespace ReviewGate.Yaml

/-- Is `c` a line end? -/
def isLineEnd (c : Char) : Bool :=
  c == '\n' || c == '\r' || c == Char.ofNat 0x85 || c == Char.ofNat 0x2028 || c == Char.ofNat 0x2029

/-- Is this the end of a line or of the text? -/
def isEnd : Option Char → Bool
  | none => true
  | some c => isLineEnd c

/-- Is this a space, a line end or the end of the text? -/
def endsToken (c : Option Char) : Bool := c == some ' ' || isEnd c

/-- Is this a space, a tab, a line end or the end of the text? -/
def endsWord (c : Option Char) : Bool := c == some '\t' || endsToken c

/-- May `c` occur in the name of an anchor, a directive or a tag handle? -/
def isNameChar (c : Char) : Bool := c.isAlphanum || c == '-' || c == '_'

/-- Is `c` a hexadecimal digit? -/
def isHex (c : Char) : Bool := c.isDigit || ('a' ≤ c && c ≤ 'f') || ('A' ≤ c && c ≤ 'F')

/-- The value of a hexadecimal digit. -/
def hexValue (c : Char) : Nat :=
  if c.isDigit then c.toNat - 48 else (c.toNat - 55) % 32

/-- The number with the given hexadecimal digits. -/
def ofHex (cs : List Char) : Nat := cs.foldl (fun n c => n * 16 + hexValue c) 0

/-- May `c` occur in a text? Control characters may not, apart from tabs and line ends. -/
def isAllowed (c : Char) : Bool :=
  let n := c.toNat
  n == 9 || n == 10 || n == 13 || (0x20 ≤ n && n ≤ 0x7E) || n == 0x85 ||
    (0xA0 ≤ n && n ≤ 0xFFFD) || 0x10000 ≤ n

/-- A place in a text. -/
structure Cursor where
  rest : List Char
  index : Nat
  line : Nat
  column : Nat
deriving Repr

namespace Cursor

/-- The beginning of a text. A byte order mark there is no part of the text. -/
def start : List Char → Cursor
  | '\uFEFF' :: rest => ⟨rest, 1, 0, 0⟩
  | cs => ⟨cs, 0, 0, 0⟩

/-- The character that follows. -/
def peek (c : Cursor) : Option Char := c.rest.head?

/-- The character `n` places further on. -/
def peekAt (c : Cursor) (n : Nat) : Option Char := c.rest[n]?

/-- The place behind the next character. -/
def next (c : Cursor) : Cursor :=
  match c.rest with
  | [] => c
  | ch :: rest =>
      if isLineEnd ch then ⟨rest, c.index + 1, c.line + 1, 0⟩
      else ⟨rest, c.index + 1, c.line, if ch == '\uFEFF' then c.column else c.column + 1⟩

/-- The place behind the next `n` characters. -/
def skip (n : Nat) (c : Cursor) : Cursor := Nat.repeat next n c

/-- The characters at the front that satisfy `p`. -/
def front (p : Char → Bool) (c : Cursor) : List Char := c.rest.takeWhile p

/-- The place behind the characters that satisfy `p`. -/
def skipWhile (p : Char → Bool) (c : Cursor) : Cursor := c.skip (c.front p).length

/-- The place behind spaces. -/
def skipSpaces (c : Cursor) : Cursor := c.skipWhile (· == ' ')

/-- The end of the line. -/
def skipLine (c : Cursor) : Cursor := c.skipWhile (!isLineEnd ·)

/-- The place behind a comment, if one starts here. -/
def skipComment (c : Cursor) : Cursor := if c.peek == some '#' then c.skipLine else c

/-- The text of a line end: all but the separators of lines and paragraphs are newlines. -/
def lineEndText (c : Char) : Char :=
  if c == Char.ofNat 0x2028 || c == Char.ofNat 0x2029 then c else '\n'

/-- Do three hyphens or three points stand here, and nothing else up to a blank? -/
def atMarker (c : Cursor) : Bool :=
  (['-', '-', '-'].isPrefixOf c.rest || ['.', '.', '.'].isPrefixOf c.rest) && endsWord (c.peekAt 3)

end Cursor

end ReviewGate.Yaml
