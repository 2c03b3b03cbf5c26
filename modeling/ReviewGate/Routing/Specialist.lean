import ReviewGate.Routing.Kind

/-!
# `ReviewGate.Routing.Specialist` — who looks at which files

Six specialists look at a change, each at the files of certain kinds.

## Contents
- `Specialist`, in the order in which they run.
- `FileKind.specialists`: the specialists for a kind, in the kind's own order.
- `Routed`: a file with its kind.
- `Routing`: the files of each specialist; `Routing.place`, `Routing.add`: one more file.
- `route`: the files of each specialist, collected in one pass.
-/

namespace ReviewGate

open Diff

/-- A specialist. -/
inductive Specialist
  | security
  | loggingError
  | architectureBoundary
  | apiContract
  | dataAccess
  | reliability
deriving DecidableEq, Repr

namespace Specialist

/-- All specialists, in the order in which they run. -/
def all : List Specialist :=
  [.security, .loggingError, .architectureBoundary, .apiContract, .dataAccess, .reliability]

/-- The name of a specialist. -/
def name : Specialist → String
  | .security => "security"
  | .loggingError => "logging-error"
  | .architectureBoundary => "architecture-boundary"
  | .apiContract => "api-contract"
  | .dataAccess => "data-access"
  | .reliability => "reliability"

/-- The specialist with the given name. -/
def ofName? (s : String) : Option Specialist := all.find? (·.name == s)

end Specialist

/-- The specialists that look at nearly every file. -/
def commonSpecialists : List Specialist := [.security, .loggingError, .reliability]

/-- The specialists for a kind of file. -/
def FileKind.specialists : FileKind → List Specialist
  | .test => [.security, .reliability]
  | .generated => [.security, .architectureBoundary]
  | .handler => commonSpecialists ++ [.architectureBoundary, .apiContract, .dataAccess]
  | .service => commonSpecialists ++ [.architectureBoundary, .dataAccess]
  | .dal => commonSpecialists ++ [.architectureBoundary]
  | .config => commonSpecialists
  | .model => commonSpecialists ++ [.architectureBoundary, .dataAccess, .apiContract]
  | .other => commonSpecialists ++ [.architectureBoundary, .dataAccess, .apiContract]

/-- A file with its kind. -/
structure Routed where
  file : ChangedFile
  kind : FileKind
deriving DecidableEq, Repr

/-- A file with the kind of its path. -/
def Routed.ofFile (f : ChangedFile) : Routed := ⟨f, classifyPath f.path⟩

/-- The files of each specialist, and the generated ones. -/
structure Routing where
  bucket : Specialist → List Routed
  generated : List Routed

namespace Routing

/-- No file has been routed. -/
def empty : Routing := ⟨fun _ => [], []⟩

/-- The routing with a file at the end of the bucket of a specialist. -/
def place (r : Routed) (routing : Routing) (s : Specialist) : Routing :=
  { routing with
    bucket := fun t => if t = s then routing.bucket t ++ [r] else routing.bucket t }

/-- The routing with one more file: in the buckets of the specialists for its kind, one after the
other, and among the generated ones if it is one. -/
def add (routing : Routing) (f : ChangedFile) : Routing :=
  let r := Routed.ofFile f
  let placed := r.kind.specialists.foldl (place r) routing
  if r.kind == .generated then { placed with generated := placed.generated ++ [r] } else placed

end Routing

/-- All files, routed in one pass. -/
def route (files : List ChangedFile) : Routing := files.foldl Routing.add .empty

end ReviewGate
