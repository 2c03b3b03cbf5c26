import ReviewGate.Document.Basic
import ReviewGate.Text.Lines
import ReviewGate.Text.Search

/-!
# `ReviewGate.Diff.GitDiff` — the sections of a git diff

A git diff has one section per file. A section starts with a line that names the file; lines of
metadata follow, and from the first other line on everything up to the next section is the file's
patch.

## Contents
- `Section`: a file's name, status and patch lines.
- `readMetadata`: what a metadata line says.
- `sections`, `splitGitDiff`: the sections of a diff, and their records.
-/

namespace ReviewGate.Diff

open Text

/-- The section of one file; the patch lines are reversed. -/
structure Section where
  filename : String
  status : String
  patch : List String
deriving DecidableEq, Repr

/-- The section that a line starts, `none` if it starts none. The name is the second of the two
that the line gives. -/
def Section.ofTitle (line : String) : Option Section :=
  if startsWith line "diff --git " then
    let parts := line.toList.splitOn ' '
    let name := match parts[3]? with
      | some part => part
      | none => parts.getLastD []
    some ⟨dropStart (String.ofList name) "b/", "modified", []⟩
  else none

/-- The section after a line of metadata, `none` if the line is none. -/
def readMetadata (s : Section) (line : String) : Option Section :=
  if startsWith line "new file" then some { s with status := "added" }
  else if startsWith line "deleted file" then some { s with status := "removed" }
  else if startsWith line "rename from" || startsWith line "rename to" then
    some { s with status := "renamed" }
  else if ["index ", "similarity index", "old mode", "new mode", "Binary files", "--- "].any
      (startsWith line) then
    some s
  else if startsWith line "+++ " then
    let name := dropStart line "+++ "
    if name == "/dev/null" then some s else some { s with filename := dropStart name "b/" }
  else none

/-- The section after one more of its lines. Metadata stands only before the patch. -/
def Section.push (s : Section) (line : String) : Section :=
  match if s.patch.isEmpty then readMetadata s line else none with
  | some t => t
  | none => { s with patch := line :: s.patch }

/-- The sections of lines, `current` being the one that is open. -/
def sectionsFrom (current : Option Section) : List String → List Section
  | [] => current.toList
  | line :: rest =>
      match Section.ofTitle line with
      | some s => current.toList ++ sectionsFrom (some s) rest
      | none => sectionsFrom (current.map (·.push line)) rest

/-- The sections of a git diff. -/
def sections (diff : String) : List Section := sectionsFrom none (breakLines diff)

/-- The record of a section. -/
def Section.record (s : Section) : Document :=
  .ofFields [("filename", .text s.filename), ("status", .text s.status),
    ("patch", .text (joinLines s.patch.reverse))]

/-- The records of a git diff, one per file. -/
def splitGitDiff (diff : String) : List Document := (sections diff).map Section.record

end ReviewGate.Diff
