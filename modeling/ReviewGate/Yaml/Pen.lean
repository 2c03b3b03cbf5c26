import ReviewGate.Yaml.Tag

/-!
# `ReviewGate.Yaml.Pen` — YAML text as it is written

Lines are folded where they would grow beyond a width. Whether a line ends before the next sign, and
whether a space stands before it, depends on what has just been written.

## Contents
- `Pen`: what has been written, with the column.
- `Pen.put`, `sign`, `endLine`, `indentTo`: the strokes.
- `Style`, `Pen.plain`, `singleQuoted`, `doubleQuoted`, `literal`: scalars.
-/

namespace ReviewGate.Yaml

/-- What has been written. -/
structure Pen where
  /-- The text, the last piece first. -/
  pieces : List (List Char)
  column : Nat
  /-- Is the last character a blank or the beginning of a line? -/
  afterBlank : Bool
  /-- Does the line hold nothing but indentation and signs that count as such? -/
  inMargin : Bool
deriving Repr

namespace Pen

/-- Nothing has been written. -/
def start : Pen := ⟨[], 0, true, true⟩

/-- All that has been written. -/
def text (p : Pen) : String := String.ofList p.pieces.reverse.flatten

/-- The greatest width of a line that can be folded. -/
def width : Nat := 80

/-! ## Strokes -/

/-- Write characters. -/
def put (cs : List Char) (p : Pen) : Pen :=
  { p with pieces := cs :: p.pieces, column := p.column + cs.length }

/-- What has just been written is neither a blank nor margin. -/
def inText (p : Pen) : Pen := { p with afterBlank := false, inMargin := false }

/-- Write a sign that stands apart from what is before it. -/
def apart (cs : List Char) (p : Pen) : Pen := p.put (if p.afterBlank then cs else ' ' :: cs)

/-- Write a sign. A space separates it from what is before it if `separate`. -/
def sign (cs : List Char) (separate : Bool) (p : Pen) : Pen :=
  (if separate then p.apart cs else p.put cs).inText

/-- Write a sign that counts as margin if it stands in the margin. -/
def marginSign (cs : List Char) (p : Pen) : Pen :=
  { p.apart cs with afterBlank := false, inMargin := p.inMargin }

/-- End the line with the given character. -/
def endLineWith (c : Char) (p : Pen) : Pen := ⟨[c] :: p.pieces, 0, true, true⟩

/-- End the line. -/
def endLine (p : Pen) : Pen := p.endLineWith '\n'

/-- Go to a column of the margin, on a new line if need be. -/
def indentTo (indent : Nat) (p : Pen) : Pen :=
  let p :=
    if !p.inMargin || indent < p.column || (p.column == indent && !p.afterBlank) then p.endLine
    else p
  if p.column < indent then
    { p.put (List.replicate (indent - p.column) ' ') with afterBlank := true }
  else p

/-! ## Plain scalars -/

/-- The pieces of a text: its characters grouped by what `kind` says of them. -/
def runs (kind : Char → Nat) (cs : List Char) : List (List Char) :=
  cs.splitBy fun a b => kind a == kind b

/-- Write a plain scalar. Between words a single space may become the end of a line. -/
def plain (indent : Nat) (foldable : Bool) (cs : List Char) (p : Pen) : Pen :=
  if cs.isEmpty then p
  else
    let p := (if p.afterBlank then p else p.put [' ']).inText
    (runs (fun c => if c == ' ' then 1 else 0) cs).foldl
      (fun p run =>
        if run == [' '] && foldable && width < p.column then (p.indentTo indent).inText
        else p.put run)
      p

/-! ## Quoted scalars -/

/-- Is `c` a line end that is written as such between single quotation marks? -/
def isFoldedEnd (c : Char) : Bool :=
  c == '\n' || c == Char.ofNat 0x85 || c == Char.ofNat 0x2028 || c == Char.ofNat 0x2029

/-- Write line ends: one more than there are if the first is a newline. -/
def foldedEnds (indent : Nat) (run : List Char) (p : Pen) : Pen :=
  let p := if run.head? == some '\n' then p.endLine else p
  (run.foldl (fun p c => p.endLineWith c) p).indentTo indent

/-- Write a scalar between single quotation marks, which are doubled inside it. -/
def singleQuoted (indent : Nat) (foldable : Bool) (cs : List Char) (p : Pen) : Pen :=
  let parts := runs (fun c => if c == ' ' then 1 else if isFoldedEnd c then 2 else 0) cs
  let p := parts.zipIdx.foldl
    (fun p (run, i) =>
      let isInner := i != 0 && i + 1 != parts.length
      if run == [' '] && foldable && isInner && width < p.column then p.indentTo indent
      else if run.head?.any isFoldedEnd then p.foldedEnds indent run
      else p.put (run.flatMap fun c => if c == '\'' then ['\'', '\''] else [c]))
    (p.sign ['\''] true)
  p.sign ['\''] false

/-- The letters of the escapes that have one. -/
def escapeLetters : List (Nat × Char) :=
  [(0, '0'), (7, 'a'), (8, 'b'), (9, 't'), (10, 'n'), (11, 'v'), (12, 'f'), (13, 'r'), (27, 'e'),
   (34, '"'), (92, '\\'), (0x85, 'N'), (0xA0, '_'), (0x2028, 'L'), (0x2029, 'P')]

/-- `n` in exactly `digits` upper-case hexadecimal digits. -/
def upperHex (digits n : Nat) : List Char := (hexDigits digits n).map Char.toUpper

/-- An escape. -/
def escapeOf (c : Char) : List Char :=
  let n := c.toNat
  match escapeLetters.lookup n with
  | some letter => ['\\', letter]
  | none =>
      if n ≤ 0xFF then '\\' :: 'x' :: upperHex 2 n
      else if n ≤ 0xFFFF then '\\' :: 'u' :: upperHex 4 n
      else '\\' :: 'U' :: upperHex 8 n

/-- Is `c` escaped between double quotation marks? -/
def isEscaped (c : Char) : Bool := c == '"' || c == '\\' || !(' ' ≤ c && c ≤ '~')

/-- Write the inside of a scalar between double quotation marks. `waiting` (reversed) has been read
and not yet written; `first` says that nothing has been read. A line is ended by a backslash, and
another one saves a space at the beginning of the next line. -/
def doubleQuotedInside (indent : Nat) (foldable first : Bool) (waiting : List Char) (p : Pen) :
    List Char → Pen
  | [] => if waiting.isEmpty then p else p.put waiting.reverse
  | c :: rest =>
      let escaped := isEscaped c
      let p :=
        if !escaped then p
        else (if waiting.isEmpty then p else p.put waiting.reverse).put (escapeOf c)
      let waiting := if escaped then [] else waiting
      let reach := p.column + waiting.length
      let limit := if escaped then width + 1 else width
      let mayFold := foldable && !first && !rest.isEmpty && (c == ' ' || waiting.isEmpty)
      if mayFold && limit < reach then
        let p := ((p.put (waiting.reverse ++ ['\\'])).indentTo indent).inText
        let following := if escaped then rest.head? else some c
        let p := if following == some ' ' then p.put ['\\'] else p
        doubleQuotedInside indent foldable false (if escaped then [] else [c]) p rest
      else doubleQuotedInside indent foldable false (if escaped then [] else c :: waiting) p rest

/-- Write a scalar between double quotation marks. -/
def doubleQuoted (indent : Nat) (foldable : Bool) (cs : List Char) (p : Pen) : Pen :=
  (doubleQuotedInside indent foldable true [] (p.sign ['"'] true) cs).sign ['"'] false

/-! ## Block scalars -/

/-- Write lines, each of which ends with a newline, as a literal block scalar. -/
def literal (indent : Nat) (cs : List Char) (p : Pen) : Pen :=
  let lines := (cs.splitOn '\n').dropLast
  lines.foldl (fun p line => ((p.indentTo indent).put line).endLine) (p.sign ['|'] true).endLine

end Pen

end ReviewGate.Yaml
