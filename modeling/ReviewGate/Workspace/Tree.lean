import ReviewGate.Fault
import ReviewGate.Path
import ReviewGate.Text.Lines

/-!
# `ReviewGate.Workspace.Tree` — a tree of files

The files below a working directory, with their bytes. A directory that holds something needs no
entry of its own.

## Contents
- `Entry`, `Tree`: files and directories by their names from the root.
- `tidy`, `parentOf`: paths as they are shown, and what they are in.
- `locate`: the names that a path leads to.
- `isDirectory`, `isFile`, `occupies`: questions about paths.
- `read`, `write`, `append`, `makeDirectories`: the operations on files.
- `readText`, `readTextLossy`: the text of a file, every kind of line end read as a newline.
-/

namespace ReviewGate

open Text

/-- What stands at a place of the tree. -/
inductive Entry
  | file (data : List UInt8)
  | directory
deriving DecidableEq, Repr

/-- The names from the root to a place. -/
abbrev Place := List (List Char)

/-- The files and directories below a working directory. -/
structure Tree where
  entries : List (Place × Entry)
deriving DecidableEq, Repr

namespace Tree

/-- Is there a directory at the place? -/
def hasDirectory (t : Tree) (place : Place) : Bool :=
  place.isEmpty ||
    t.entries.any fun (p, e) => if p = place then e == .directory else place.isPrefixOf p

/-- The file at the place. -/
def fileAt? (t : Tree) (place : Place) : Option (List UInt8) :=
  match t.entries.lookup place with
  | some (.file data) => some data
  | _ => none

/-! ## Paths -/

/-- The names of a path that say something: empty ones and `.` do not. -/
def namesOf (path : String) : Place :=
  (Path.components path.toList).filter fun name => !name.isEmpty && name != ['.']

/-- A path without names that say nothing; without any names it is `.`. -/
def tidy (path : String) : String :=
  let root := if path.toList.head? == some '/' then ['/'] else []
  match root ++ Path.ofComponents (namesOf path) with
  | [] => "."
  | cs => String.ofList cs

/-- The path of the directory that a path is in, `.` for a path of one name. -/
def parentOf (path : String) : String :=
  let root := if path.toList.head? == some '/' then ['/'] else []
  match root ++ Path.ofComponents (namesOf path).dropLast with
  | [] => "."
  | cs => String.ofList cs

/-- The place, in reverse, that one more name leads to from a directory. -/
def follow (t : Tree) (place : Place) (name : List Char) : Except Fault Place :=
  if !t.hasDirectory place.reverse then
    .error (.tree (if (t.fileAt? place.reverse).isSome then .notDirectory else .missing))
  else if name == ['.', '.'] then
    match place with
    | [] => .error (.tree .missing)
    | _ :: rest => .ok rest
  else .ok (name :: place)

/-- The place that a path leads to. Only paths below the working directory lead anywhere. -/
def locate (t : Tree) (path : String) : Except Fault Place :=
  if path.toList.head? == some '/' then .error (.tree .missing)
  else ((namesOf path).foldlM t.follow []).map List.reverse

/-- Is there a directory at the path? -/
def isDirectory (t : Tree) (path : String) : Bool :=
  match t.locate path with
  | .ok place => t.hasDirectory place
  | .error _ => false

/-- Is there a file at the path? -/
def isFile (t : Tree) (path : String) : Bool :=
  match t.locate path with
  | .ok place => (t.fileAt? place).isSome
  | .error _ => false

/-- Is there anything at the path? -/
def occupies (t : Tree) (path : String) : Bool := t.isDirectory path || t.isFile path

/-! ## Operations -/

/-- The bytes of the file at the path. -/
def read (t : Tree) (path : String) : Except Fault (List UInt8) := do
  let place ← t.locate path
  match t.fileAt? place with
  | some data => return data
  | none => throw (.tree (if t.hasDirectory place then .isDirectory else .missing))

/-- The entries with one at the place: instead of the old one, or at the end. -/
def putEntry (place : Place) (e : Entry) : List (Place × Entry) → List (Place × Entry)
  | [] => [(place, e)]
  | (p, old) :: rest => if p = place then (p, e) :: rest else (p, old) :: putEntry place e rest

/-- The tree with the bytes as the file at the place. -/
def putFile (t : Tree) (place : Place) (data : List UInt8) : Tree :=
  ⟨putEntry place (.file data) t.entries⟩

/-- The tree with the bytes as the file at the path, which is replaced if it is there. -/
def write (t : Tree) (path : String) (data : List UInt8) : Except Fault Tree := do
  let place ← t.locate path
  if t.hasDirectory place then throw (.tree .isDirectory)
  else return t.putFile place data

/-- The tree with the bytes behind the file at the path, which need not be there. -/
def append (t : Tree) (path : String) (data : List UInt8) : Except Fault Tree := do
  let place ← t.locate path
  if t.hasDirectory place then throw (.tree .isDirectory)
  else return t.putFile place ((t.fileAt? place).getD [] ++ data)

/-- The tree with a directory at each place on the way, `done` being the names already followed. -/
def makePlaces (done : Place) (t : Tree) : List (List Char) → Except Fault Tree
  | [] => .ok t
  | name :: rest =>
      let place := if name == ['.', '.'] then done.dropLast else done ++ [name]
      if name == ['.', '.'] && done.isEmpty then .error (.tree .missing)
      else if t.hasDirectory place then makePlaces place t rest
      else if (t.fileAt? place).isSome then
        .error (.tree (if rest.isEmpty then .occupied else .notDirectory))
      else makePlaces place ⟨t.entries ++ [(place, .directory)]⟩ rest

/-- The tree with a directory at the path and everywhere on the way. -/
def makeDirectories (t : Tree) (path : String) : Except Fault Tree :=
  if path.toList.head? == some '/' then .error (.tree .missing)
  else makePlaces [] t (namesOf path)

/-! ## Texts -/

/-- A defect as it is met when a file is read block by block: a part that the end of the file cuts
off is a block of its own. -/
def blockDefect (d : Utf8.Defect) : Utf8.Defect :=
  if d.reason == .endOfData then { d with position := 0 } else d

/-- The text of the bytes of a file. -/
def textOf (data : List UInt8) : Except Fault String :=
  match Utf8.decode data with
  | .ok s => .ok (String.ofList (unifyNewlines s.toList))
  | .error d => .error (.undecodable (blockDefect d))

/-- The text of the file at the path. -/
def readText (t : Tree) (path : String) : Except Fault String := do textOf (← t.read path)

/-- The text of the file at the path, with replacements for what is no text; `none` if there is no
file. -/
def readTextLossy (t : Tree) (path : String) : Option String :=
  match t.read path with
  | .ok data => some (String.ofList (unifyNewlines (Utf8.decodeLossy data).toList))
  | .error _ => none

end Tree

end ReviewGate
