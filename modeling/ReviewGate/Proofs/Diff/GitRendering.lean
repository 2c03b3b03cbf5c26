import ReviewGate.Diff.ChangedFile
import ReviewGate.Diff.GitDiff
import ReviewGate.Proofs.Text.Lines

/-!
# `ReviewGate.Proofs.Diff.GitRendering` — git diffs written out

What a git diff says about each file, before it is text: what happened to the file, under which
paths, and the lines of its patch. Writing it out puts a title in front, then lines of metadata that
follow from what happened, then the patch.

Paths are those that git writes without quoting them. Nothing has a line break, and a patch starts
with a header; diffs that break this cannot be built.

## Contents
- `LineText`, `PlainPath`: what stands in lines.
- `Metadata`, `Metadata.render`, `Metadata.effect`: a line of metadata, and what it says.
- `Change`, `Change.metadata`, `Sides`: what happened to a file, and how its sides are told.
- `FileDiff`, `FileDiff.lines`, `FileDiff.text`: a file in a diff.
- `FileDiff.record`: what should be read from it.
-/

namespace ReviewGate.Diff

open Text

/-! ## Texts in lines -/

/-- A text on one line, whichever breaks are looked for. -/
structure LineText where
  text : String
  unbroken : Unbroken text

/-- The characters that git writes in a path as they are: printable ASCII but blanks, quotes and
backslashes. -/
def isPlain (c : Char) : Bool := '!' ≤ c && c ≤ '~' && c != '"' && c != '\\'

/-- A path that git writes as it is. -/
structure PlainPath where
  text : String
  plain : text.toList.all isPlain = true

/-- A side of a change: the path on that side behind its letter, or no file. -/
def sideText (letter : String) : Option PlainPath → String
  | none => "/dev/null"
  | some path => letter ++ path.text

/-! ## Metadata -/

/-- A line of metadata. -/
inductive Metadata
  | newFile (mode : LineText)
  | deletedFile (mode : LineText)
  | oldMode (mode : LineText)
  | newMode (mode : LineText)
  | similarity (percent : Nat)
  | renameFrom (path : PlainPath)
  | renameTo (path : PlainPath)
  | index (objects : LineText)
  | binary (old new : Option PlainPath)
  | oldSide (path : Option PlainPath)
  | newSide (path : Option PlainPath)

namespace Metadata

/-- What a line of the kind starts with. -/
def word : Metadata → String
  | newFile _ => "new file mode "
  | deletedFile _ => "deleted file mode "
  | oldMode _ => "old mode "
  | newMode _ => "new mode "
  | similarity _ => "similarity index "
  | renameFrom _ => "rename from "
  | renameTo _ => "rename to "
  | index _ => "index "
  | binary _ _ => "Binary files "
  | oldSide _ => "--- "
  | newSide _ => "+++ "

/-- What follows. -/
def value : Metadata → String
  | newFile mode | deletedFile mode | oldMode mode | newMode mode => mode.text
  | similarity percent => percent.repr ++ "%"
  | renameFrom path | renameTo path => path.text
  | index objects => objects.text
  | binary old new => sideText "a/" old ++ " and " ++ sideText "b/" new ++ " differ"
  | oldSide path => sideText "a/" path
  | newSide path => sideText "b/" path

/-- The line. -/
def render (m : Metadata) : String := m.word ++ m.value

/-- What the line says about the file of a section. -/
def effect (m : Metadata) (s : Section) : Section :=
  match m with
  | newFile _ => { s with status := "added" }
  | deletedFile _ => { s with status := "removed" }
  | renameFrom _ | renameTo _ => { s with status := "renamed" }
  | newSide (some path) => { s with filename := path.text }
  | _ => s

end Metadata

/-! ## Changes -/

/-- What happened to a file. Modes are those before and after, if they differ. -/
inductive Change
  | added (mode : LineText) (path : PlainPath)
  | removed (mode : LineText) (path : PlainPath)
  | modified (modes : Option (LineText × LineText)) (path : PlainPath)
  | renamed (modes : Option (LineText × LineText)) (percent : Nat) (old new : PlainPath)

namespace Change

/-- The first path of the title. -/
def oldPath : Change → PlainPath
  | added _ path | removed _ path | modified _ path => path
  | renamed _ _ old _ => old

/-- The second path of the title. -/
def newPath : Change → PlainPath
  | added _ path | removed _ path | modified _ path => path
  | renamed _ _ _ new => new

/-- The file before the change. -/
def before? : Change → Option PlainPath
  | added _ _ => none
  | c => some c.oldPath

/-- The file after the change. -/
def after? : Change → Option PlainPath
  | removed _ _ => none
  | c => some c.newPath

/-- The path by which the file is known: the new one unless there is only an old one. -/
def path (c : Change) : PlainPath := c.after?.getD c.oldPath

/-- The status of the file. -/
def status : Change → FileStatus
  | added _ _ => .added
  | removed _ _ => .removed
  | modified _ _ => .modified
  | renamed _ _ _ _ => .renamed

/-- The lines about modes. -/
def modeLines : Option (LineText × LineText) → List Metadata
  | none => []
  | some (old, new) => [.oldMode old, .newMode new]

/-- The lines about the change. -/
def metadata : Change → List Metadata
  | added mode _ => [.newFile mode]
  | removed mode _ => [.deletedFile mode]
  | modified modes _ => modeLines modes
  | renamed modes percent old new =>
      modeLines modes ++ [.similarity percent, .renameFrom old, .renameTo new]

end Change

/-! ## Files -/

/-- How the two sides of a change are told: not at all, as binary, or each on a line. -/
inductive Sides
  | untold
  | binary
  | named
deriving DecidableEq, Repr

/-- The lines about the sides. -/
def Sides.metadata (old new : Option PlainPath) : Sides → List Metadata
  | untold => []
  | binary => [.binary old new]
  | named => [.oldSide old, .newSide new]

/-- What the lines of a patch start with; the last is for headers. -/
def patchMarks : List String := [" ", "+", "-", "\\", "@@"]

-- no lines at all are a patch too
theorem unbroken_nil : ∀ l ∈ ([] : List String), Unbroken l := List.forall_mem_nil _

theorem marked_nil :
    ∀ l ∈ ([] : List String), ∃ mark ∈ patchMarks, startsWith l mark = true := List.forall_mem_nil _

theorem headed_nil : ∀ l ∈ ([] : List String).head?, startsWith l "@@" = true :=
  fun l hl => absurd hl (Option.not_mem_none l)

/-- A file in a diff. -/
structure FileDiff where
  change : Change
  objects : Option LineText
  sides : Sides
  patch : List String
  unbroken : ∀ l ∈ patch, Unbroken l
  marked : ∀ l ∈ patch, ∃ mark ∈ patchMarks, startsWith l mark = true
  headed : ∀ l ∈ patch.head?, startsWith l "@@" = true

namespace FileDiff

variable (d : FileDiff)

/-- The line that names the file. -/
def title : String := "diff --git a/" ++ d.change.oldPath.text ++ " b/" ++ d.change.newPath.text

/-- The lines of metadata. -/
def metadata : List Metadata :=
  d.change.metadata ++ (d.objects.map .index).toList ++
    d.sides.metadata d.change.before? d.change.after?

/-- All lines. -/
def lines : List String := d.title :: (d.metadata.map Metadata.render ++ d.patch)

/-- The lines as a text, each with a newline at its end. -/
def text : String := String.join (d.lines.map (· ++ "\n"))

/-- What should be read. -/
def record : Document :=
  .ofFields [("filename", .text d.change.path.text), ("status", .text d.change.status.name),
    ("patch", .text (joinLines d.patch))]

end FileDiff

end ReviewGate.Diff
