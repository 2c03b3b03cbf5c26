import ReviewGate.Document.Basic
import ReviewGate.Number.Shortest
import ReviewGate.Text.Printable

/-!
# `ReviewGate.Document.Show` — documents as text

A document has two texts: the *plain* one, in which a text stands for itself, and the *quoted*
one, in which texts have quotation marks and escapes. Inside lists and mappings values are quoted.

## Contents
- `quoteText`: a text with quotation marks. Single marks are used unless the text holds a single
  mark and no double one.
- `quoted`, `plain`: the two texts of a document.
-/

namespace ReviewGate

open Text Number

/-- `n` in exactly `width` lower-case hexadecimal digits. -/
def hexDigits : Nat → Nat → List Char
  | 0, _ => []
  | width + 1, n => hexDigits width (n / 16) ++ [(n % 16).digitChar]

namespace Document

/-- One character between the quotation marks `mark`. -/
def escapeChar (mark c : Char) : List Char :=
  let n := c.toNat
  if c = mark || c = '\\' then ['\\', c]
  else if c = '\n' then ['\\', 'n']
  else if c = '\r' then ['\\', 'r']
  else if c = '\t' then ['\\', 't']
  else if isPrintable c then [c]
  else if n < 0x100 then '\\' :: 'x' :: hexDigits 2 n
  else if n < 0x10000 then '\\' :: 'u' :: hexDigits 4 n
  else '\\' :: 'U' :: hexDigits 8 n

/-- A text between quotation marks. -/
def quoteText (s : String) : String :=
  let cs := s.toList
  let mark := if cs.contains '\'' && !cs.contains '"' then '"' else '\''
  String.ofList (mark :: cs.flatMap (escapeChar mark) ++ [mark])

/-- Bytes between quotation marks. -/
def quoteBytes (data : List UInt8) : String :=
  let cs := data.map fun b => Char.ofNat b.toNat
  let mark := if cs.contains '\'' && !cs.contains '"' then '"' else '\''
  let escape (c : Char) : List Char :=
    if 127 ≤ c.toNat then '\\' :: 'x' :: hexDigits 2 c.toNat else escapeChar mark c
  "b" ++ String.ofList (mark :: cs.flatMap escape ++ [mark])

/-- A date as the expression that makes it. -/
def quoteDate (d : Date) : String := s!"datetime.date({d.year}, {d.month}, {d.day})"

/-- An offset as the expression that makes it. -/
def quoteOffset (minutes : Int) : String :=
  if minutes == 0 then "datetime.timezone.utc"
  else if minutes < 0 then
    s!"datetime.timezone(datetime.timedelta(days=-1, seconds={86400 + minutes * 60}))"
  else s!"datetime.timezone(datetime.timedelta(seconds={minutes * 60}))"

/-- A moment as the expression that makes it. -/
def quoteMoment (m : Moment) : String :=
  let seconds :=
    if m.microsecond != 0 then s!", {m.second}, {m.microsecond}"
    else if m.second != 0 then s!", {m.second}" else ""
  let zone := match m.offset with
    | some minutes => ", tzinfo=" ++ quoteOffset minutes
    | none => ""
  s!"datetime.datetime({m.date.year}, {m.date.month}, {m.date.day}, {m.hour}, {m.minute}" ++
    seconds ++ zone ++ ")"

mutual

/-- The quoted text of a document. -/
def quoted : Document → String
  | .null => "None"
  | .bool b => if b then "True" else "False"
  | .int n => toString n
  | .float x => x.render
  | .text s => quoteText s
  | .list items => "[" ++ quotedItems items ++ "]"
  | .map entries => "\x7b" ++ quotedEntries entries ++ "\x7d"
  | .date d => quoteDate d
  | .moment m => quoteMoment m
  | .bytes data => quoteBytes data
  | .set [] => "set()"
  | .set members => "\x7b" ++ quotedItems members ++ "\x7d"

/-- Quoted texts with commas between them. -/
def quotedItems : List Document → String
  | [] => ""
  | [d] => quoted d
  | d :: rest => quoted d ++ ", " ++ quotedItems rest

/-- Quoted entries with commas between them. -/
def quotedEntries : List (Document × Document) → String
  | [] => ""
  | [(k, v)] => quoted k ++ ": " ++ quoted v
  | (k, v) :: rest => quoted k ++ ": " ++ quoted v ++ ", " ++ quotedEntries rest

end

/-- The plain text of a document. -/
def plain : Document → String
  | .text s => s
  | .date d => d.iso
  | .moment m => m.iso " "
  | d => d.quoted

end Document

end ReviewGate
