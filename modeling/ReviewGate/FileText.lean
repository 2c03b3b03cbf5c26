/-!
# `ReviewGate.FileText` — whole texts of files

## Contents
- `FileText`: the text of a file with its language.
- `Contents`: the text of each path.
-/

namespace ReviewGate

/-- The whole text of a file with its language. -/
structure FileText where
  path : String
  text : String
  language : String
deriving DecidableEq, Repr

/-- The whole text of each path, empty if it is not known. -/
abbrev Contents := String → String

/-- The texts of the files; of several with one path the last counts. -/
def Contents.ofList (files : List FileText) : Contents := fun path =>
  match files.reverse.find? (·.path == path) with
  | some f => f.text
  | none => ""

end ReviewGate
