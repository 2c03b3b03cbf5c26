import ReviewGate.Fault
import ReviewGate.Number.Numeral

/-!
# `ReviewGate.Document.Spelling` — documents spelled out

An integer is written with no more digits than a numeral may have that is read. A longer one has no
text, and neither has a document that holds one.

## Contents
- `spellable`: can the document be written?
- `spell`: its plain text, if it can.
- `PolicyFault.citing`: a violated contract whose text quotes a document.
-/

namespace ReviewGate

open Number

namespace Document

mutual

/-- Can the document be written? No integer in it may have too many digits. -/
def spellable : Document → Bool
  | .int n => n.natAbs < Nat.pow 10 maxIntDigits
  | .list items => spellableItems items
  | .map entries => spellableEntries entries
  | .set members => spellableItems members
  | _ => true

/-- Can every document of the list be written? -/
def spellableItems : List Document → Bool
  | [] => true
  | d :: rest => spellable d && spellableItems rest

/-- Can every key and value be written? -/
def spellableEntries : List (Document × Document) → Bool
  | [] => true
  | (k, v) :: rest => spellable k && spellable v && spellableEntries rest

end

/-- The plain text of a document that can be written. -/
def spell : Document → Except Fault String
  | .text s => .ok s
  | d => if d.spellable then .ok d.plain else .error .badNumber

end Document

/-- The fault of a violated contract whose text quotes the document. -/
def PolicyFault.citing (d : Document) (cause : PolicyFault) : Fault :=
  if d.spellable then .policy cause else .badNumber

end ReviewGate
