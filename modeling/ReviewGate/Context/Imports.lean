import ReviewGate.Regex.Match
import ReviewGate.Regex.Reader
import ReviewGate.Text.Search

/-!
# `ReviewGate.Context.Imports` — what a text imports

## Contents
- `estimateTokens`: a rough number of tokens.
- `scriptImports`, `moduleImports`, `packageImports`: the names imported by texts of three
  families of languages.
- `importsOf`: the names imported by a text of a language.
-/

namespace ReviewGate.Context

open Text

/-- About four characters make a token. -/
def estimateTokens (text : String) : Nat := (text.length + 3) / 4

/-- The matches of a pattern in a text; none if the pattern is invalid. -/
def matchesOf (multiLine : Bool) (pattern : String) (text : List Char) : List Regex.Match :=
  match Regex.compileWith { multiLine } pattern.toList with
  | .ok n => Regex.findAll n text
  | .error _ => []

/-- What the first group read, or else the second. -/
def eitherGroup (m : Regex.Match) : List Char :=
  match m.group? 1 with
  | some cs => cs
  | none => (m.group? 2).getD []

/-- The names behind `from` and `require` that are relative or absolute paths. -/
def scriptImports (text : List Char) : List (List Char) :=
  ((matchesOf false
    "(?:import\\s+.*?\\s+from\\s+['\"](.+?)['\"]|require\\s*\\(\\s*['\"](.+?)['\"]\\s*\\))"
    text).map eitherGroup).filter fun name => name.head? == some '.' || name.head? == some '/'

/-- The modules behind `from` and `import` that are relative. -/
def moduleImports (text : List Char) : List (List Char) :=
  ((matchesOf true "(?:from\\s+(\\S+)\\s+import|^import\\s+(\\S+))" text).map eitherGroup).filter
    fun name => name.head? == some '.'

/-- The names between quotation marks. -/
def quotedNames (text : List Char) : List (List Char) :=
  (matchesOf false "\"([^\"]+)\"" text).map fun m => (m.group? 1).getD []

/-- The packages behind `import`, one or a list between parentheses. -/
def packageImports (text : List Char) : List (List Char) :=
  (matchesOf false "import\\s+(?:\"([^\"]+)\"|\\(\\s*([\\s\\S]*?)\\s*\\))" text).flatMap fun m =>
    match m.group? 1 with
    | some name => [name]
    | none => quotedNames ((m.group? 2).getD [])

/-- Languages whose imports name files. -/
def scriptLanguages : List String := ["typescript", "javascript"]

/-- The names imported by a text that are worth looking up in the repository. -/
def importsOf (language text : String) : List String :=
  let names :=
    if scriptLanguages.contains language then scriptImports text.toList
    else if language == "python" then moduleImports text.toList
    else if language == "go" then packageImports text.toList
    else []
  names.map String.ofList

end ReviewGate.Context
