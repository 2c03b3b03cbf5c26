import ReviewGate.Fault
import ReviewGate.Number.Numeral
import ReviewGate.Text.Lines

/-!
# `ReviewGate.Diff.Hunk` — the hunks of a unified diff

A patch is a sequence of hunks, each a header line and the lines below it. Lines before the first
header belong to no hunk. In a header an omitted count means one line.

## Contents
- `Hunk`: a header with its numbers, and the text below it.
- `readHeader`: the numbers of a header line.
- `gather`, `parseHunks`: the hunks of a patch.
- `ChangedLine`, `Hunk.added`, `Hunk.removed`: changed lines with their numbers, added lines in the
  new file and removed lines in the old one.
-/

namespace ReviewGate.Diff

open Number Text

/-- A hunk. -/
structure Hunk where
  header : String
  oldStart : Nat
  oldLines : Nat
  newStart : Nat
  newLines : Nat
  content : String
deriving DecidableEq, Repr

/-- The lines below the header; a hunk without content has one empty line. -/
def Hunk.lines (h : Hunk) : List String := Text.lines h.content

/-! ## Headers -/

/-- The digits of a header's four numbers; a count may be absent. -/
structure HeaderDigits where
  oldStart : List Nat
  oldLines : Option (List Nat)
  newStart : List Nat
  newLines : Option (List Nat)
deriving DecidableEq, Repr

/-- What follows `start` in a text that begins with it. -/
def behind (start : List Char) (cs : List Char) : Option (List Char) :=
  if start.isPrefixOf cs then some (cs.drop start.length) else none

/-- A number's digits at the front, at least one, and what follows. -/
def someDigits (cs : List Char) : Option (List Nat × List Char) :=
  match cs.takeWhile isDigit with
  | [] => none
  | ds => some (ds.filterMap digitValue?, cs.drop ds.length)

/-- A start number with an optional count, and what follows. -/
def readSpan (cs : List Char) : Option ((List Nat × Option (List Nat)) × List Char) := do
  let (start, rest) ← someDigits cs
  match rest with
  | ',' :: after =>
      match someDigits after with
      | some (count, after) => return ((start, some count), after)
      | none => return ((start, none), rest)
  | _ => return ((start, none), rest)

/-- The digits of a header line; `none` if the line is no header. -/
def readHeader (line : String) : Option HeaderDigits := do
  let rest ← behind "@@ -".toList line.toList
  let ((oldStart, oldLines), rest) ← readSpan rest
  let rest ← behind " +".toList rest
  let ((newStart, newLines), rest) ← readSpan rest
  let _ ← behind " @@".toList rest
  return ⟨oldStart, oldLines, newStart, newLines⟩

/-- The number with the given digits, unless there are too many. -/
def headerNumber (ds : List Nat) : Except Fault Nat :=
  if maxIntDigits < ds.length then .error .badNumber else .ok (ofDigits ds)

/-- A count, one if it is absent. -/
def headerCount : Option (List Nat) → Except Fault Nat
  | none => .ok 1
  | some ds => headerNumber ds

/-- The hunk with the given header line, its digits and the lines below it. -/
def Hunk.ofHeader (line : String) (ds : HeaderDigits) (body : List String) : Except Fault Hunk := do
  return {
    header := line
    oldStart := ← headerNumber ds.oldStart
    oldLines := ← headerCount ds.oldLines
    newStart := ← headerNumber ds.newStart
    newLines := ← headerCount ds.newLines
    content := joinLines body }

/-! ## Patches -/

/-- The lines before the first header, and the hunks. -/
def gather : List String → Except Fault (List String × List Hunk)
  | [] => .ok ([], [])
  | line :: rest => do
      let (body, hunks) ← gather rest
      match readHeader line with
      | none => return (line :: body, hunks)
      | some ds => return ([], (← Hunk.ofHeader line ds body) :: hunks)

/-- The lines of a patch; one empty line at the end is not one of them. -/
def patchLines (patch : String) : List String :=
  let ls := Text.lines patch
  if ls.getLast? = some "" then ls.dropLast else ls

/-- The hunks of a patch. -/
def parseHunks (patch : String) : Except Fault (List Hunk) := do
  return (← gather (patchLines patch)).2

/-! ## Changed lines -/

/-- An added or removed line without its marker. -/
structure ChangedLine where
  number : Nat
  text : String
deriving DecidableEq, Repr

/-- What the first character of a patch line says about it. -/
inductive Marker
  | added
  | removed
  | note
  | context
deriving DecidableEq, Repr

/-- The marker of a patch line; a line with no other marker is context. -/
def markerOf (line : String) : Marker :=
  match line.toList with
  | '+' :: _ => .added
  | '-' :: _ => .removed
  | '\\' :: _ => .note
  | _ => .context

/-- A line without its first character. -/
def unmarked (line : String) : String := String.ofList (line.toList.drop 1)

/-- The added lines, the first line having number `n` in the new file. -/
def addedFrom (n : Nat) : List String → List ChangedLine
  | [] => []
  | line :: rest =>
      match markerOf line with
      | .added => ⟨n, unmarked line⟩ :: addedFrom (n + 1) rest
      | .removed | .note => addedFrom n rest
      | .context => addedFrom (n + 1) rest

/-- The removed lines, the first line having number `n` in the old file. -/
def removedFrom (n : Nat) : List String → List ChangedLine
  | [] => []
  | line :: rest =>
      match markerOf line with
      | .removed => ⟨n, unmarked line⟩ :: removedFrom (n + 1) rest
      | .added | .note => removedFrom n rest
      | .context => removedFrom (n + 1) rest

/-- The added lines of a hunk. -/
def Hunk.added (h : Hunk) : List ChangedLine := addedFrom h.newStart h.lines

/-- The removed lines of a hunk. -/
def Hunk.removed (h : Hunk) : List ChangedLine := removedFrom h.oldStart h.lines

end ReviewGate.Diff
