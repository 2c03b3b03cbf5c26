import ReviewGate.Diff.Position

/-!
# `ReviewGate.Proofs.Diff.Rendering` — patches written out

What a patch says, before it is text: hunks with start numbers and marked lines, and lines in front
of the first hunk. The counts of a header are not part of it, they follow from the lines. Writing a
patch out is the other direction of reading it, and what is said here about line numbers and
positions is said by counting, with no counters that run along.

Texts have no newline, a hunk has at least one line, and numbers have no more digits than are read;
patches that break this cannot be built.

## Contents
- `LineKind`, `PatchLine`: a line of a hunk; `PatchLine.render`: its lines in the patch.
- `numbered`: lines with their numbers.
- `HunkSource`, `HunkSource.render`: a hunk.
- `HunkSource.hunk`, `addedLines`, `removedLines`: what should be read from it.
- `PatchSource`, `PatchSource.text`: a patch.
- `Shows`: the position at which a patch shows a line of the new file.
-/

namespace ReviewGate.Diff

open Number Text

/-! ## Lines -/

/-- What a hunk does with a line. -/
inductive LineKind
  | context
  | added
  | removed
deriving DecidableEq, Repr

namespace LineKind

/-- The character in front of a line. -/
def mark : LineKind → Char
  | .context => ' '
  | .added => '+'
  | .removed => '-'

/-- Is the line in the old file? -/
def inOld : LineKind → Bool
  | .added => false
  | .context | .removed => true

/-- Is the line in the new file? -/
def inNew : LineKind → Bool
  | .removed => false
  | .context | .added => true

end LineKind

/-- A line of a hunk; `unended` says that its file ends with it and without a newline. -/
structure PatchLine where
  kind : LineKind
  text : String
  unended : Bool
  oneLine : '\n' ∉ text.toList

/-- The note below a line that ends its file without a newline. -/
def unendedNote : String := "\\ No newline at end of file"

/-- The line behind its mark. -/
def PatchLine.marked (l : PatchLine) : String := String.singleton l.kind.mark ++ l.text

/-- The line in the patch, with the note below it if there is one. -/
def PatchLine.render (l : PatchLine) : List String :=
  l.marked :: if l.unended then [unendedNote] else []

/-- How many of the lines are in the old file. -/
def oldCount (ls : List PatchLine) : Nat := ls.countP (·.kind.inOld)

/-- How many of the lines are in the new file. -/
def newCount (ls : List PatchLine) : Nat := ls.countP (·.kind.inNew)

/-- The chosen lines with their numbers. The number of a line is `start` and as many more as there
are counted lines in front of it. -/
def numbered (counted chosen : LineKind → Bool) (start : Nat) (ls : List PatchLine) :
    List ChangedLine :=
  ls.zipIdx.filterMap fun x =>
    if chosen x.1.kind then some ⟨start + (ls.take x.2).countP (counted ·.kind), x.1.text⟩
    else none

/-! ## Hunks -/

/-- Has the number no more digits than are read? -/
def Readable (n : Nat) : Prop := (Nat.toDigits 10 n).length ≤ maxIntDigits

instance (n : Nat) : Decidable (Readable n) :=
  inferInstanceAs (Decidable ((Nat.toDigits 10 n).length ≤ maxIntDigits))

/-- A hunk. A brief span leaves out a count of one. -/
structure HunkSource where
  oldStart : Nat
  newStart : Nat
  oldBrief : Bool
  newBrief : Bool
  heading : String
  lines : List PatchLine
  oneLine : '\n' ∉ heading.toList
  nonempty : lines ≠ []
  oldStart_readable : Readable oldStart
  oldCount_readable : Readable (oldCount lines)
  newStart_readable : Readable newStart
  newCount_readable : Readable (newCount lines)

/-- A start number with the count behind it. -/
def spanText (start count : Nat) (brief : Bool) : String :=
  if brief && count == 1 then start.repr else start.repr ++ "," ++ count.repr

namespace HunkSource

variable (h : HunkSource)

/-- The header line. -/
def header : String :=
  "@@ -" ++ spanText h.oldStart (oldCount h.lines) h.oldBrief ++ " +" ++
    spanText h.newStart (newCount h.lines) h.newBrief ++ " @@" ++ h.heading

/-- The lines of the patch below the header. -/
def body : List String := h.lines.flatMap PatchLine.render

/-- The lines of the patch. -/
def render : List String := h.header :: h.body

/-- The hunk as it should be read. -/
def hunk : Hunk where
  header := h.header
  oldStart := h.oldStart
  oldLines := oldCount h.lines
  newStart := h.newStart
  newLines := newCount h.lines
  content := joinLines h.body

/-- The added lines, numbered in the new file. -/
def addedLines : List ChangedLine := numbered LineKind.inNew (· == .added) h.newStart h.lines

/-- The removed lines, numbered in the old file. -/
def removedLines : List ChangedLine := numbered LineKind.inOld (· == .removed) h.oldStart h.lines

/-- The numbers of the lines of the new file that the hunk shows. -/
def newRange : List Nat := List.range' h.newStart (newCount h.lines)

end HunkSource

/-! ## Patches -/

/-- A patch of one file. No line of the new file is in two hunks, in whichever order they come. -/
structure PatchSource where
  preamble : List String
  hunks : List HunkSource
  finalNewline : Bool
  oneLine : ∀ l ∈ preamble, '\n' ∉ l.toList
  noHeader : ∀ l ∈ preamble, readHeader l = none
  apart : hunks.Pairwise fun h k => ∀ m ∈ h.newRange, m ∉ k.newRange

/-- All lines. -/
def PatchSource.lines (d : PatchSource) : List String :=
  d.preamble ++ d.hunks.flatMap HunkSource.render

/-- The patch as a text. -/
def PatchSource.text (d : PatchSource) : String :=
  joinLines d.lines ++ if d.finalNewline then "\n" else ""

/-- At `position`, counted from one at the first header, the hunks show line `m` of the new file. -/
def Shows (hunks : List HunkSource) (position : Nat) (m : Int) : Prop :=
  ∃ before h after, hunks = before ++ h :: after ∧
    ∃ front l back, h.lines = front ++ l :: back ∧ l.kind.inNew = true ∧
      m = (h.newStart + newCount front : Nat) ∧
      position = ((before.flatMap HunkSource.render) ++
        h.header :: front.flatMap PatchLine.render).length + 1

end ReviewGate.Diff
