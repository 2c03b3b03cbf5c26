import ReviewGate.Fault
import ReviewGate.Number.Numeral

/-!
# `ReviewGate.Document.Number` — documents as numbers

## Contents
- `toInteger`: the integer that a document gives; doubles lose their fraction, texts are read.
- `toDouble`: the double that a document gives.
- `lineNumber?`: the integer that a document equals.
-/

namespace ReviewGate.Document

open Number

/-- The characters of bytes, one for each; a byte beyond ASCII gives one that no numeral has. -/
def byteChars (data : List UInt8) : List Char :=
  data.map fun b => if b < 128 then Char.ofNat b.toNat else '\uFFFD'

/-- The integer that a document gives. -/
def toInteger : Document → Except Fault Int
  | .int n => .ok n
  | .bool b => .ok (if b then 1 else 0)
  | .float .nan => .error .badNumber
  | .float x =>
      match x.truncate? with
      | some n => .ok n
      | none => .error .numberRange
  | .text s =>
      match readInt s.toList with
      | some n => .ok n
      | none => .error .badNumber
  | .bytes data =>
      match readInt (byteChars data) with
      | some n => .ok n
      | none => .error .badNumber
  | _ => .error .wrongKind

/-- The double that a document gives. -/
def toDouble : Document → Except Fault Binary64
  | .float x => .ok x
  | .bool b => .ok (Binary64.ofInt (if b then 1 else 0))
  | .int n =>
      match Binary64.ofInt n with
      | .infinite _ => .error .numberRange
      | x => .ok x
  | .text s =>
      match readDouble s.toList with
      | some x => .ok x
      | none => .error .badNumber
  | .bytes data =>
      match readDouble (byteChars data) with
      | some x => .ok x
      | none => .error .badNumber
  | _ => .error .wrongKind

/-- The integer that a document equals. -/
def lineNumber? (d : Document) : Option Int :=
  match d.key? with
  | some (.int n) => some n
  | _ => none

end ReviewGate.Document
