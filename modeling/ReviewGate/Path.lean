import ReviewGate.Text.Search

/-!
# `ReviewGate.Path` — slash-separated paths

Paths are texts of names with slashes between them. The operations work on the text alone and
never look at a file system.

## Contents
- `components`: the names of a path.
- `parent`: the path of the directory that a path is in.
- `join`: a path seen from a directory.
- `normalize`: the path without empty names, `.` and, where it can be resolved, `..`.
-/

namespace ReviewGate.Path

open Text

/-- The names of a path, with an empty one at each end that is a slash. -/
def components (path : List Char) : List (List Char) := path.splitOn '/'

/-- Names with a slash between neighbours. -/
def ofComponents (names : List (List Char)) : List Char := List.intercalate ['/'] names

/-- A text without the slashes at its end. -/
def dropSlashes (path : List Char) : List Char := (path.reverse.dropWhile (· == '/')).reverse

/-- The directory that a path is in, empty if the path is one name. The slashes at its end are
dropped unless it has nothing else. -/
def parent (path : List Char) : List Char :=
  let head := (path.reverse.dropWhile (· != '/')).reverse
  if head.all (· == '/') then head else dropSlashes head

/-- The path seen from a directory; an absolute path stays what it is. -/
def join (directory path : List Char) : List Char :=
  if path.head? == some '/' then path
  else if directory.isEmpty || directory.getLast? == some '/' then directory ++ path
  else directory ++ '/' :: path

/-- The names kept, in reverse, after one more. In an absolute path there is nothing above the
root. -/
def pushName (absolute : Bool) (kept : List (List Char)) (name : List Char) : List (List Char) :=
  if name.isEmpty || name == ['.'] then kept
  else if name == ['.', '.'] then
    match kept with
    | [] => if absolute then [] else [name]
    | last :: rest => if last == ['.', '.'] then name :: kept else rest
  else name :: kept

/-- The slashes that a normalised path starts with: two stay two, any other number is one. -/
def rootOf (path : List Char) : List Char :=
  match path with
  | '/' :: '/' :: '/' :: _ => ['/']
  | '/' :: '/' :: _ => ['/', '/']
  | '/' :: _ => ['/']
  | _ => []

/-- The path without empty names, `.` and resolvable `..`; a path without names is `.`. -/
def normalize (path : List Char) : List Char :=
  let root := rootOf path
  let names := ((components path).foldl (pushName !root.isEmpty) []).reverse
  match root ++ ofComponents names with
  | [] => ['.']
  | cs => cs

end ReviewGate.Path
