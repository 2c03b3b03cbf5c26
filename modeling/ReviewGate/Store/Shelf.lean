import ReviewGate.Json.Reader
import ReviewGate.Json.Writer
import ReviewGate.Workspace.Tree

/-!
# `ReviewGate.Store.Shelf` — where documents outlive a run

Two documents outlive a run: the learned rules and the snapshot of the policy. They are kept as
files of the working directory or as files of a gist.

## Contents
- `Gist`: the files of a gist, and whether it can be reached.
- `Shelf`: the places that a store reads and writes.
- `readJson`: the document of a stored text; a text that is no JSON holds none.
- `Shelf.fileDocument`, `Shelf.putInFile`: documents in files.
- `Shelf.gistDocument`, `Shelf.putInGist`: documents in a gist.
-/

namespace ReviewGate

open Text

/-- The files of a gist. A file can be there without a text. -/
structure Gist where
  files : List (String × Option String)
  /-- Why the gist cannot be reached, if it cannot. -/
  unreachable : Option String
  /-- Why the gist cannot be changed, if it cannot. -/
  locked : Option String
deriving DecidableEq, Repr

namespace Gist

/-- A gist without files. -/
def empty : Gist := ⟨[], none, none⟩

/-- The files with a text under a name: in place of the old one, or at the end. -/
def putFile (name text : String) : List (String × Option String) → List (String × Option String)
  | [] => [(name, some text)]
  | (n, old) :: rest =>
      if n = name then (n, some text) :: rest else (n, old) :: putFile name text rest

/-- The text of a file, if the gist can be reached. -/
def text? (g : Gist) (name : String) : Option String :=
  match g.unreachable with
  | some _ => none
  | none => (g.files.lookup name).join

end Gist

/-- The places that a store reads and writes. -/
structure Shelf where
  tree : Tree
  gist : Gist
deriving DecidableEq, Repr

/-- The document of a stored text; a text that is no JSON holds none. -/
def readJson (s : String) : Except Fault (Option Document) :=
  match Json.parse s with
  | .ok d => .ok (some d)
  | .error .malformed => .ok none
  | .error .numberTooLong => .error .badNumber

namespace Shelf

/-! ## Files -/

/-- The document in the file at the path, `none` if there is no file or it cannot be read. -/
def fileDocument (s : Shelf) (path : String) : Except Fault (Option Document) :=
  match s.tree.readText path with
  | .ok text => readJson text
  | .error (.tree _) => .ok none
  | .error fault => .error fault

/-- The shelf with the document in the file at the path. A file that cannot be written stays what
it is, and that is no fault. -/
def putInFile (s : Shelf) (path : String) (d : Document) : Except Fault Unit × Shelf :=
  match s.tree.makeDirectories (Tree.parentOf path) with
  | .error _ => (.ok (), s)
  | .ok tree =>
      match Json.indented d with
      | .error cause => (.error cause.fault, { s with tree })
      | .ok text =>
          match tree.write path (Utf8.encode (text ++ "\n")) with
          | .error _ => (.ok (), { s with tree })
          | .ok tree => (.ok (), { s with tree })

/-! ## Gists -/

/-- The document in the file of the gist, `none` if there is no such file or it cannot be read. -/
def gistDocument (s : Shelf) (name : String) : Except Fault (Option Document) :=
  match s.gist.text? name with
  | some text => readJson text
  | none => .ok none

/-- Why a document is not in the gist: the gist refuses, or the document has no JSON text. -/
inductive Refusal
  | byGist (reason : String)
  | noText (cause : Json.Unwritable)
deriving DecidableEq, Repr

/-- The kind of a refusal and what is said about it. -/
def Refusal.message : Refusal → String
  | .byGist reason => s!"RuntimeError: {reason}"
  | .noText cause => s!"{cause.error}: {cause.message}"

/-- The shelf with the document in the file of the gist, or why it is not there. -/
def putInGist (s : Shelf) (name : String) (d : Document) : Except Refusal Unit × Shelf :=
  match s.gist.unreachable with
  | some reason => (.error (.byGist reason), s)
  | none =>
      match Json.indented d with
      | .error cause => (.error (.noText cause), s)
      | .ok text =>
          match s.gist.locked with
          | some reason => (.error (.byGist reason), s)
          | none =>
              (.ok (), { s with gist := { s.gist with files := Gist.putFile name text s.gist.files } })

end Shelf

end ReviewGate
