import ReviewGate.Document.Spelling
import ReviewGate.Number.Shortest
import ReviewGate.Yaml.Pen
import ReviewGate.Yaml.Value

/-!
# `ReviewGate.Yaml.Writer` — values as YAML text

Collections are written in block style, each item and entry on lines of its own, apart from empty
ones. The items of a sequence stand in the column of the key before them. A value that is shared has
an anchor where it is met first, and an alias elsewhere.

## Contents
- `Scalar`, `Scalar.ofDocument`: the type and text of a value without parts.
- `Traits`, `traitsOf`: what a text consists of, as far as its style depends on it.
- `Scalar.style`, `Scalar.write`: a scalar in the style that its text allows.
- `sharedIds`: the values that are met more than once.
- `write`, `written`: the text of a value.
-/

namespace ReviewGate.Yaml

/-! ## Scalars -/

/-- The type and text of a value without parts. -/
structure Scalar where
  tag : Tag
  text : List Char
deriving Repr

/-- The text of a double, which always has a point. -/
def floatText : Number.Binary64 → String
  | .nan => ".nan"
  | .infinite s => if s then "-.inf" else ".inf"
  | x =>
      let s := x.render
      if s.contains '.' then s
      else String.ofList (s.toList.flatMap fun c => if c == 'e' then ['.', '0', 'e'] else [c])

/-- The scalar of a value without parts. -/
def Scalar.ofDocument : Document → Scalar
  | .bool b => ⟨.bool, (if b then "true" else "false").toList⟩
  | .int n => ⟨.int, (toString n).toList⟩
  | .float x => ⟨.float, (floatText x).toList⟩
  | .text s => ⟨.text, s.toList⟩
  | .date d => ⟨.timestamp, d.iso.toList⟩
  | .moment m => ⟨.timestamp, (m.iso " ").toList⟩
  | .bytes data => ⟨.binary, Text.Base64.encodeLines data⟩
  | _ => ⟨.null, "null".toList⟩

/-- The short name of a type. -/
def Tag.shorthand (t : Tag) : String :=
  match tagNames.find? (·.2 == t) with
  | some (name, _) => "!!" ++ name
  | none => "!"

/-! ## Styles -/

/-- What a text consists of, as far as its style depends on it. -/
structure Traits where
  /-- Does it hold a line end? -/
  multiline : Bool
  /-- May it stand without quotation marks? -/
  plain : Bool
  /-- May it stand between single quotation marks? -/
  single : Bool
deriving Repr

/-- Is `c` a blank, or the end of the text? -/
def endsWordInText (c : Option Char) : Bool := c == some '\x00' || endsWord c

/-- Does the character at the front say that a plain scalar would be read as something else? `before`
is the character before it, `none` at the beginning. -/
def isIndicator (before : Option Char) (c : Char) (after : Option Char) : Bool :=
  match before with
  | none =>
      "#,[]\x7b\x7d&*!|>'\"%@\x60".toList.contains c ||
        ((c == '?' || c == ':' || c == '-') && endsWordInText after)
  | some b => (c == ':' && endsWordInText after) || (c == '#' && endsWordInText (some b))

/-- Does an indicator stand anywhere in the text? -/
def hasIndicator (before : Option Char) : List Char → Bool
  | [] => false
  | c :: rest => isIndicator before c rest.head? || hasIndicator (some c) rest

/-- Is `c` neither a newline nor a printable character of ASCII? -/
def isSpecial (c : Char) : Bool := c != '\n' && !(' ' ≤ c && c ≤ '~')

/-- Does one of the pairs of neighbours satisfy `p`? -/
def anyPair (p : Char → Char → Bool) : List Char → Bool
  | a :: b :: rest => p a b || anyPair p (b :: rest)
  | _ => false

/-- Do blanks or line ends stand at an end of the text? -/
def hasLooseEnds (cs : List Char) : Bool :=
  let isLoose (c : Option Char) : Bool := c.any fun c => c == ' ' || Pen.isFoldedEnd c
  isLoose cs.head? || isLoose cs.getLast?

/-- What a text consists of. An empty one may stand without quotation marks as a value. -/
def traitsOf (cs : List Char) : Traits :=
  let multiline := cs.any Pen.isFoldedEnd
  let isMarker := "---".toList.isPrefixOf cs || "...".toList.isPrefixOf cs
  let spaceAfterEnd := anyPair (fun a b => Pen.isFoldedEnd a && b == ' ') cs
  let spaceBeforeEnd := anyPair (fun a b => a == ' ' && Pen.isFoldedEnd b) cs
  let single := !spaceAfterEnd && !spaceBeforeEnd && !cs.any isSpecial
  { multiline
    single
    plain := single && !multiline && !hasLooseEnds cs && !isMarker && !hasIndicator none cs }

/-- The styles of scalars. -/
inductive Style
  | plain
  | single
  | double
  | literal
deriving DecidableEq, Repr

/-- The style of a scalar. A plain one must be read as a value of its type, and a key must stand on
one line. -/
def Scalar.style (s : Scalar) (isKey : Bool) : Style :=
  let t := traitsOf s.text
  let isOfType := Tag.ofPlain (String.ofList s.text) == s.tag
  if s.tag == .binary then if s.text.isEmpty || isKey then .double else .literal
  else if isOfType && t.plain && !(isKey && (s.text.isEmpty || t.multiline)) then .plain
  else if t.single && !(isKey && t.multiline) then .single
  else .double

/-- Write a scalar, in a place where lines are indented by `indent`. -/
def Scalar.write (s : Scalar) (isKey : Bool) (indent : Nat) (p : Pen) : Pen :=
  let style := s.style isKey
  let p :=
    if s.tag == .text || style == .plain then p else p.sign s.tag.shorthand.toList true
  match style with
  | .plain => p.plain indent (!isKey) s.text
  | .single => p.singleQuoted indent (!isKey) s.text
  | .double => p.doubleQuoted indent (!isKey) s.text
  | .literal => p.literal indent s.text

/-- The number of characters up to which a key can stand before its colon. -/
def keyLimit : Nat := 128

/-- Can the scalar stand before its colon? -/
def Scalar.isSimpleKey (s : Scalar) : Bool :=
  s.tag.shorthand.length + s.text.length < keyLimit && !s.text.isEmpty &&
    !(traitsOf s.text).multiline

/-! ## Shared values -/

/-- The values met so far, and those met more than once in the order in which this was seen. -/
structure Met where
  once : List Nat
  again : List Nat

/-- One more value has been met; is it new? -/
def Met.add (m : Met) : Option Nat → Bool × Met
  | none => (true, m)
  | some id =>
      if !m.once.contains id then (true, { m with once := id :: m.once })
      else (false, if m.again.contains id then m else { m with again := m.again ++ [id] })

namespace Value

mutual

/-- The values met after a value. -/
def meet (m : Met) : Value → Met
  | .atom id _ => (m.add id).2
  | .list id items =>
      let (isNew, m) := m.add id
      if isNew then meetItems m items else m
  | .map id entries =>
      let (isNew, m) := m.add id
      if isNew then meetEntries m entries else m
  | .set id _ => (m.add id).2

/-- The values met after items. -/
def meetItems (m : Met) : List Value → Met
  | [] => m
  | v :: rest => meetItems (meet m v) rest

/-- The values met after entries. -/
def meetEntries (m : Met) : List (Document × Value) → Met
  | [] => m
  | (_, v) :: rest => meetEntries (meet m v) rest

end

/-- The values that are met more than once. -/
def sharedIds (v : Value) : List Nat := (meet ⟨[], []⟩ v).again

end Value

/-- The name of the anchor of a shared value. -/
def anchorName (shared : List Nat) (id : Nat) : List Char :=
  'i' :: 'd' :: (padded 3 (shared.idxOf id + 1)).toList

/-- The pen and the values that have been written. -/
structure Hand where
  pen : Pen
  written : List Nat

namespace Hand

/-- Use the pen. -/
def draw (h : Hand) (stroke : Pen → Pen) : Hand := { h with pen := stroke h.pen }

/-- Write the anchor or alias of a value, if it is shared; is there more of it to write? -/
def mark (h : Hand) (shared : List Nat) : Option Nat → Bool × Hand
  | none => (true, h)
  | some id =>
      if h.written.contains id then
        (false, h.draw (·.sign ('*' :: anchorName shared id) true))
      else if shared.contains id then
        (true, { h.draw (·.sign ('&' :: anchorName shared id) true) with
          written := id :: h.written })
      else (true, h)

/-- Write a key, and what separates it from its value. -/
def key (h : Hand) (indent : Nat) (k : Document) : Hand :=
  let s := Scalar.ofDocument k
  let h := h.draw (·.indentTo indent)
  if s.isSimpleKey then h.draw fun p => (s.write true (indent + 2) p).sign [':'] false
  else h.draw fun p =>
    ((s.write false (indent + 2) (p.marginSign ['?'])).indentTo indent).marginSign [':']

/-- Write the members of a set. -/
def members (h : Hand) (indent : Nat) (ms : List Document) : Hand :=
  ms.foldl
    (fun h k => (h.key indent k).draw ((Scalar.ofDocument .null).write false (indent + 2)))
    h

end Hand

/-- The column of a block collection inside one at `indent`. -/
def deeper : Option Nat → Nat
  | none => 0
  | some n => n + 2

/-! ## Values -/

mutual

/-- Write a value inside a block collection at `indent`. -/
def writeValue (shared : List Nat) (h : Hand) (indent : Option Nat) (inMapping : Bool) :
    Value → Hand
  | .atom id d =>
      let (more, h) := h.mark shared id
      if more then h.draw ((Scalar.ofDocument d).write false ((indent.getD 0) + 2)) else h
  | .list id items =>
      let (more, h) := h.mark shared id
      if !more then h
      else if items.isEmpty then h.draw fun p => (p.sign ['['] true).sign [']'] false
      else
        let column := if inMapping && !h.pen.inMargin then indent.getD 0 else deeper indent
        writeItems shared h column items
  | .map id entries =>
      let (more, h) := h.mark shared id
      if !more then h
      else if entries.isEmpty then h.draw fun p => (p.sign ['\x7b'] true).sign ['\x7d'] false
      else writeEntries shared h (deeper indent) entries
  | .set id ms =>
      let (more, h) := h.mark shared id
      if !more then h
      else
        let h := h.draw (·.sign Tag.set.shorthand.toList true)
        if ms.isEmpty then h.draw fun p => (p.sign ['\x7b'] true).sign ['\x7d'] false
        else h.members (deeper indent) ms

/-- Write items with their hyphens in a column. -/
def writeItems (shared : List Nat) (h : Hand) (column : Nat) : List Value → Hand
  | [] => h
  | v :: rest =>
      let h := h.draw fun p => (p.indentTo column).marginSign ['-']
      writeItems shared (writeValue shared h (some column) false v) column rest

/-- Write entries with their keys in a column. -/
def writeEntries (shared : List Nat) (h : Hand) (column : Nat) : List (Document × Value) → Hand
  | [] => h
  | (k, v) :: rest =>
      writeEntries shared (writeValue shared (h.key column k) (some column) true v) column rest

end

/-- The text of a value. -/
def write (v : Value) : String :=
  ((writeValue v.sharedIds ⟨.start, []⟩ none false v).pen.indentTo 0).text

/-- The text of a value, if it holds no integer that is too long. -/
def written (v : Value) : Except Fault String :=
  if v.toDocument.spellable then .ok (write v) else .error .badNumber

end ReviewGate.Yaml
