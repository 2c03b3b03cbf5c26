import ReviewGate.Fault
import ReviewGate.Json.Reader
import ReviewGate.Text.Character

/-!
# `ReviewGate.Model.Answer` — the document in a model's answer

A model asked for JSON often puts a code fence around it. A fence at the very start and one at the
very end are taken off, with the whitespace next to them; fences inside stay.

## Contents
- `fence`, `dropOpening`, `dropClosing`: the fences.
- `unfence`: the text between the fences.
- `readAnswer`: the document; null if the text is not JSON.
-/

namespace ReviewGate

open Text

/-- A code fence. -/
def fence : List Char := ['\x60', '\x60', '\x60']

/-- The text without a fence at its start, the language behind it and the whitespace behind that. -/
def dropOpening (cs : List Char) : List Char :=
  if fence.isPrefixOf cs then
    let rest := cs.drop fence.length
    let language := "json".toList
    trimStart (if language.isPrefixOf rest then rest.drop language.length else rest)
  else cs

/-- The text without a fence at its end and the whitespace before it. -/
def dropClosing (cs : List Char) : List Char :=
  if fence.isSuffixOf cs then trimEnd (cs.take (cs.length - fence.length)) else cs

/-- The text between the fences. -/
def unfence (text : String) : String :=
  String.ofList (dropClosing (dropOpening (trim text.toList)))

/-- The document that an answer holds, null if it holds none. -/
def readAnswer (text : String) : Except Fault Document :=
  match Json.parse (unfence text) with
  | .ok d => .ok d
  | .error .malformed => .ok .null
  | .error .numberTooLong => .error .badNumber

end ReviewGate
