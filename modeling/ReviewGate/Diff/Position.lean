import ReviewGate.Diff.ChangedFile
import ReviewGate.Text.Search
import ReviewGate.Document.Number

/-!
# `ReviewGate.Diff.Position` — lines of the new file in the patch

A diff position counts the lines of a file's patch from one. Every hunk header takes a position,
and so does every line below it. Removed lines and notes are not lines of the new file.

## Contents
- `Spot`: a patch line that shows a line of the new file.
- `ChangedFile.spots`: all of them, in order.
- `ChangedFile.positionOf?`, `positions`: the position of a line of the new file.
- `lineToPosition`: the position of a line in a change.
- `ChangedFile.lineText`: the text of a line of the new file.
-/

namespace ReviewGate.Diff

open Text

/-- A patch line that shows a line of the new file. -/
structure Spot where
  position : Nat
  line : Nat
  text : String
deriving DecidableEq, Repr

/-- The spots among lines, the first of which has the given position and, unless it is removed or
a note, shows line `n`. -/
def spotsFrom (position n : Nat) : List String → List Spot
  | [] => []
  | line :: rest =>
      match markerOf line with
      | .removed | .note => spotsFrom (position + 1) n rest
      | .added | .context => ⟨position, n, line⟩ :: spotsFrom (position + 1) (n + 1) rest

/-- The spots of hunks, `position` being that of the first header. -/
def spotsOfHunks (position : Nat) : List Hunk → List Spot
  | [] => []
  | h :: rest =>
      spotsFrom (position + 1) h.newStart h.lines ++
        spotsOfHunks (position + 1 + h.lines.length) rest

namespace ChangedFile

/-- The patch lines that show lines of the new file. -/
def spots (f : ChangedFile) : List Spot := spotsOfHunks 1 f.hunks

/-- The first spot that shows line `n`. -/
def spotOf? (f : ChangedFile) (n : Int) : Option Spot := f.spots.find? fun s => (s.line : Int) == n

/-- The position of line `n` of the new file. -/
def positionOf? (f : ChangedFile) (n : Int) : Option Nat := (f.spotOf? n).map (·.position)

/-- Each line that the patch shows with its position, in the order of the patch. -/
def positions (f : ChangedFile) : List (Nat × Nat) :=
  f.spots.foldl
    (fun found s =>
      if found.any (·.1 == s.line) then found else found ++ [(s.line, s.position)])
    []

/-- The text of line `n` of the new file as the patch shows it, empty if it does not. -/
def lineText (f : ChangedFile) (n : Int) : String :=
  match f.spotOf? n with
  | some s => if startsWith s.text "+" || startsWith s.text " " then unmarked s.text else s.text
  | none => ""

end ChangedFile

/-- The first file with the given path. -/
def fileAt? (files : List ChangedFile) (path : Document) : Option ChangedFile :=
  files.find? fun f => path.isText f.path

/-- The position of a line in the first file with the given path. -/
def lineToPosition (files : List ChangedFile) (path line : Document) : Option Nat := do
  (← fileAt? files path).positionOf? (← line.lineNumber?)

end ReviewGate.Diff
