import ReviewGate.Document.Spelling

/-!
# `ReviewGate.Json.Writer` — documents as JSON text

The text is ASCII: every other character is written by its UTF-16 units. The indented form puts
each item and member on a line of its own, two columns further in than its bracket.

## Contents
- `Unwritable`: a value or key that has no JSON text.
- `quote`, `floatText`, `intText`: scalars.
- `memberName?`: the name under which a key is written.
- `indented`: the indented form.
-/

namespace ReviewGate.Json

/-- A value or key that has no JSON text: one of a kind that JSON does not have, or an integer that
is too long. -/
inductive Unwritable
  | value (kind : String)
  | key (kind : String)
  | integer
deriving DecidableEq, Repr

/-- What is said about such a value. -/
def Unwritable.message : Unwritable → String
  | .value kind => s!"Object of type {kind} is not JSON serializable"
  | .key kind => s!"keys must be str, int, float, bool or None, not {kind}"
  | .integer =>
      s!"Exceeds the limit ({Number.maxIntDigits} digits) for integer string conversion; " ++
        "use sys.set_int_max_str_digits() to increase the limit"

/-- The name of the error that such a value is. -/
def Unwritable.error : Unwritable → String
  | .value _ | .key _ => "TypeError"
  | .integer => "ValueError"

/-- The fault that such a value is. -/
def Unwritable.fault : Unwritable → ReviewGate.Fault
  | .value _ | .key _ => .wrongKind
  | .integer => .badNumber

/-- One UTF-16 unit as an escape. -/
def escapeUnit (n : Nat) : List Char := '\\' :: 'u' :: hexDigits 4 n

/-- One character inside a string. -/
def escapeChar (c : Char) : List Char :=
  if c = '"' then ['\\', '"']
  else if c = '\\' then ['\\', '\\']
  else if c = '\n' then ['\\', 'n']
  else if c = '\r' then ['\\', 'r']
  else if c = '\t' then ['\\', 't']
  else if c = Char.ofNat 8 then ['\\', 'b']
  else if c = Char.ofNat 12 then ['\\', 'f']
  else
    let n := c.toNat
    if 32 ≤ n ∧ n < 127 then [c]
    else if n < 0x10000 then escapeUnit n
    else escapeUnit (0xD800 + (n - 0x10000) / 0x400) ++ escapeUnit (0xDC00 + (n - 0x10000) % 0x400)

/-- A string between quotation marks. -/
def quoteChars (cs : List Char) : List Char := '"' :: cs.flatMap escapeChar ++ ['"']

/-- A string between quotation marks. -/
def quote (s : String) : String := String.ofList (quoteChars s.toList)

/-- The text of a double. -/
def floatText : Number.Binary64 → String
  | .nan => "NaN"
  | .infinite s => if s then "-Infinity" else "Infinity"
  | x => x.render

/-- The text of an integer. -/
def intText (n : Int) : Except Unwritable String :=
  if (Document.int n).spellable then .ok (toString n) else .error .integer

/-- The name under which a key is written. -/
def memberName? : Document → Except Unwritable String
  | .text s => .ok s
  | .null => .ok "null"
  | .bool b => .ok (if b then "true" else "false")
  | .int n => intText n
  | .float x => .ok (floatText x)
  | d => .error (.key d.kind)

/-- A new line at the given depth. -/
def newLine (depth : Nat) : String :=
  String.ofList ('\n' :: List.replicate (2 * depth) ' ')

mutual

/-- The indented form of a value that stands at the given depth. -/
def indentedAt (depth : Nat) : Document → Except Unwritable String
  | .null => .ok "null"
  | .bool b => .ok (if b then "true" else "false")
  | .int n => intText n
  | .float x => .ok (floatText x)
  | .text s => .ok (quote s)
  | .list [] => .ok "[]"
  | .list items => do
      let inner ← itemsAt (depth + 1) items
      return "[" ++ newLine (depth + 1) ++ inner ++ newLine depth ++ "]"
  | .map [] => .ok "\x7b\x7d"
  | .map entries => do
      let inner ← membersAt (depth + 1) entries
      return "\x7b" ++ newLine (depth + 1) ++ inner ++ newLine depth ++ "\x7d"
  | d => .error (.value d.kind)

/-- Items with a comma and a new line between neighbours. -/
def itemsAt (depth : Nat) : List Document → Except Unwritable String
  | [] => .ok ""
  | [d] => indentedAt depth d
  | d :: rest => do
      let first ← indentedAt depth d
      let others ← itemsAt depth rest
      return first ++ "," ++ newLine depth ++ others

/-- Members with a comma and a new line between neighbours. -/
def membersAt (depth : Nat) : List (Document × Document) → Except Unwritable String
  | [] => .ok ""
  | [(k, v)] => do
      let name ← memberName? k
      let value ← indentedAt depth v
      return quote name ++ ": " ++ value
  | (k, v) :: rest => do
      let name ← memberName? k
      let value ← indentedAt depth v
      let others ← membersAt depth rest
      return quote name ++ ": " ++ value ++ "," ++ newLine depth ++ others

end

/-- The indented form of a document. -/
def indented (d : Document) : Except Unwritable String := indentedAt 0 d

end ReviewGate.Json
