import ReviewGate.Context.Imports
import ReviewGate.Path

/-!
# `ReviewGate.Context.Resolve` — the files that an import may name

## Contents
- `moduleBase`: directory and path of a module name with leading dots.
- `importPath`, `importBase`: the path that an import names, without an ending.
- `endings`, `candidates`: the paths of the files it may mean.
-/

namespace ReviewGate.Context

open Text

/-- The directory `levels` above. -/
def ancestor (levels : Nat) (directory : List Char) : List Char :=
  Nat.repeat Path.parent levels directory

/-- A module name seen from a directory: one dot is the directory itself, each further dot the one
above; the other dots separate names. -/
def moduleBase (directory name : List Char) : List Char × List Char :=
  let dots := (name.takeWhile (· == '.')).length
  (ancestor (dots - 1) directory, replaceChar '.' ['/'] (name.drop dots))

/-- The path that an import in a file names, seen from where the file's own path is seen. -/
def importPath (language : String) (name fromFile : List Char) : List Char :=
  let directory := Path.parent fromFile
  let (directory, name) :=
    if language == "python" then moduleBase directory name else (directory, name)
  if name.isEmpty then if directory.isEmpty then ['.'] else directory
  else Path.join directory name

/-- The path, relative to the root, that an import in a file names. -/
def importBase (language : String) (name fromFile : List Char) : List Char :=
  (Path.normalize (importPath language name fromFile)).dropWhile (· == '/')

/-- What may follow the path of an import, the likeliest first. -/
def endings (language : String) : List String :=
  if scriptLanguages.contains language then
    [".ts", ".tsx", ".js", ".jsx", "/index.ts", "/index.js"]
  else if language == "python" then [".py", "/__init__.py"]
  else [""]

/-- Does the path lead out of the root? -/
def isOutside (path : List Char) : Bool :=
  path == ['.', '.'] || ['.', '.', '/'].isPrefixOf path

/-- The paths of the files that an import in a file may mean, the likeliest first; none if it leads
out of the repository. -/
def candidates (language name fromFile : String) : List String :=
  let base := importBase language name.toList fromFile.toList
  if isOutside base then []
  else (endings language).map fun ending => String.ofList (base ++ ending.toList)

end ReviewGate.Context
