import ReviewGate.Diff.ChangedFile
import ReviewGate.Text.Case
import ReviewGate.Text.Search

/-!
# `ReviewGate.Routing.Kind` — which kind of file a path names

Paths are classified by the names of their directories and the end of the file name, without
regard to case. The first kind that fits wins.

## Contents
- `FileKind`, with names.
- `isTestPath`, `classifyPath`.
- `detectLanguage`: the language that a file's extension stands for.
-/

namespace ReviewGate

open Text

/-- A kind of file. -/
inductive FileKind
  | generated
  | handler
  | service
  | dal
  | model
  | config
  | test
  | other
deriving DecidableEq, Repr

namespace FileKind

/-- All kinds. -/
def all : List FileKind := [.generated, .handler, .service, .dal, .model, .config, .test, .other]

/-- The name of a kind. -/
def name : FileKind → String
  | .generated => "generated"
  | .handler => "handler"
  | .service => "service"
  | .dal => "dal"
  | .model => "model"
  | .config => "config"
  | .test => "test"
  | .other => "other"

/-- The kind that a document names; every other key counts as `other`. -/
def ofDocument (d : Document) : Except Fault FileKind :=
  match d.key? with
  | none => .error .wrongKind
  | some (.text s) => .ok ((all.find? (·.name == s)).getD .other)
  | some _ => .ok .other

end FileKind

/-- The part of a path behind its last slash. -/
def baseName (path : String) : String := String.ofList (afterLast '/' path.toList)

/-- Does the path name a test? -/
def isTestPath (path : String) : Bool :=
  let low := toLower path
  let base := baseName low
  contains low "/test/" || contains low "/tests/" || endsWith low ".test.ts" ||
    endsWith low "_test.go" || endsWith low "_test.py" ||
    (startsWith base "test_" && endsWith base ".py")

/-- The kind of file that a path names. -/
def classifyPath (path : String) : FileKind :=
  let low := toLower path
  let holds (parts : List String) : Bool := parts.any (contains low)
  let ends (parts : List String) : Bool := parts.any (endsWith low)
  if holds ["/generated/", "/gen/", "biz/model/"] || ends ["_gen.go"] then .generated
  else if holds ["/handler/", "/handlers/", "/api/"] then .handler
  else if holds ["/service/", "/services/"] then .service
  else if holds ["/dal/", "/repository/", "/repos/"] then .dal
  else if holds ["/model/", "/models/"] then .model
  else if holds ["/config/"] || ends ["config.ts", "config.go", "config.py"] then .config
  else if isTestPath path then .test
  else .other

/-- Languages by file extension. -/
def languages : List (String × String) :=
  [("ts", "typescript"), ("tsx", "typescript"), ("js", "javascript"), ("jsx", "javascript"),
   ("py", "python"), ("go", "go"), ("java", "java"), ("rs", "rust"), ("rb", "ruby"),
   ("yml", "yaml"), ("yaml", "yaml"), ("json", "json"), ("md", "markdown"), ("sh", "shell"),
   ("bash", "shell")]

/-- The language of a file: that of its extension, the extension itself if it is not known, and
`unknown` if there is none. -/
def detectLanguage (path : String) : String :=
  let cs := path.toList
  let extension :=
    if cs.contains '.' then String.ofList (lower (afterLast '.' cs)) else ""
  match languages.lookup extension with
  | some language => language
  | none => if extension == "" then "unknown" else extension

end ReviewGate
