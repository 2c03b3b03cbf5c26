import ReviewGate.Diff.Hunk
import ReviewGate.Glob.Basic

/-!
# `ReviewGate.Diff.ChangedFile` — the files of a change

A change arrives as one record per file, with the file's name, status and patch. Files that match
an ignore glob and files without a patch are left out.

## Contents
- `FileStatus`, `FileStatus.ofDocument`.
- `ChangedFile`: a file with its hunks and changed lines.
- `defaultIgnore`, `isIgnored`: lock files, bundles and binary assets, and the caller's globs.
- `ChangedFile.ofRecord`, `parseFiles`: the files of records.
-/

namespace ReviewGate

namespace Glob

/-- Does a glob cover a path, where both are documents? Only texts are globs and paths. -/
def matchesDocument (path pattern : Document) : Except Fault Bool :=
  match pattern with
  | .text pattern =>
      match expand pattern.toList, path with
      | none, _ => .error .tooManyAlternatives
      | some _, .text path =>
          match matchesGlob path pattern with
          | .ok answer => .ok answer
          | .error _ => .error .tooManyAlternatives
      | some _, _ => .error .wrongKind
  | _ => .error .wrongKind

/-- Does a glob cover a path? -/
def matchesPath (path pattern : String) : Except Fault Bool :=
  match matchesGlob path pattern with
  | .ok answer => .ok answer
  | .error _ => .error .tooManyAlternatives

end Glob

namespace Diff

/-- What happened to a file. -/
inductive FileStatus
  | added
  | modified
  | removed
  | renamed
deriving DecidableEq, Repr

namespace FileStatus

/-- The name in records. -/
def name : FileStatus → String
  | .added => "added"
  | .modified => "modified"
  | .removed => "removed"
  | .renamed => "renamed"

/-- The status that a record gives; whatever is not known counts as modified. -/
def ofDocument (d : Document) : Except Fault FileStatus :=
  match d.key? with
  | none => .error .wrongKind
  | some (.text "added") => .ok .added
  | some (.text "removed") => .ok .removed
  | some (.text "renamed") => .ok .renamed
  | some _ => .ok .modified

end FileStatus

/-- A file of a change. -/
structure ChangedFile where
  path : String
  status : FileStatus
  hunks : List Hunk
  patch : String
deriving DecidableEq, Repr

namespace ChangedFile

/-- The added lines, numbered in the new file. -/
def addedLines (f : ChangedFile) : List ChangedLine := f.hunks.flatMap Hunk.added

/-- The removed lines, numbered in the old file. -/
def removedLines (f : ChangedFile) : List ChangedLine := f.hunks.flatMap Hunk.removed

/-- The added lines as one text. -/
def addedText (f : ChangedFile) : String := Text.joinLines (f.addedLines.map (·.text))

/-- The number of the first added line, one if there is none. -/
def firstAdded (f : ChangedFile) : Nat :=
  match f.addedLines with
  | line :: _ => line.number
  | [] => 1

end ChangedFile

/-! ## Ignored files -/

/-- Files that never carry code to review: lock files, bundler output and binary assets. -/
def defaultIgnore : List String :=
  ["package-lock.json", "yarn.lock", "pnpm-lock.yaml", "**/*.min.js", "**/*.min.css", "**/*.map",
   "**/*.png", "**/*.jpg", "**/*.gif", "**/*.ico", "**/*.woff", "**/*.woff2", "**/*.ttf",
   "**/*.eot", "**/*.svg", "**/*.pdf"]

/-- Does one of the globs cover the path? The globs are tried in order. -/
def coveredByAny (path : Document) : List Document → Except Fault Bool
  | [] => .ok false
  | pattern :: rest => do
      if ← Glob.matchesDocument path pattern then return true else coveredByAny path rest

/-- Is the file left out, by the built-in globs or the given ones? -/
def isIgnored (path : Document) (globs : List Document) : Except Fault Bool :=
  coveredByAny path (defaultIgnore.map .text ++ globs)

/-! ## Records -/

/-- The file with the given path, patch and status. -/
def ChangedFile.ofParts (path : String) (patch status : Document) :
    Except Fault ChangedFile := do
  match patch with
  | .text patch =>
      let hunks ← parseHunks patch
      return { path, status := ← FileStatus.ofDocument status, hunks, patch }
  | _ => .error .noMember

/-- The file of a record; `none` if the record has no name or no patch, or is ignored. -/
def ChangedFile.ofRecord (ignore : List Document) (record : Document) :
    Except Fault (Option ChangedFile) := do
  let path ← record.field "filename"
  let patch ← record.field "patch"
  if !path.truthy then return none
  if ← isIgnored path ignore then return none
  if !patch.truthy then return none
  match path with
  | .text path => return some (← ofParts path patch (← record.field "status"))
  | _ => .error .wrongKind

/-- The files of the records, in order. -/
def parseFiles (ignore : List Document) (records : List Document) :
    Except Fault (List ChangedFile) := do
  return (← records.mapM (ChangedFile.ofRecord ignore)).filterMap id

end Diff

end ReviewGate
