import ReviewGate.Context.Resolve
import ReviewGate.Diff.ChangedFile
import ReviewGate.FileText
import ReviewGate.Routing.Kind
import ReviewGate.Workspace.Tree

/-!
# `ReviewGate.Context.Gather` — texts for a review within a budget

The changed files come first, then the files that they import, until the budget of tokens is used
up. A file that does not fit is left out, and smaller ones behind it may still fit.

## Contents
- `Gathered`: the texts so far, what is left of the budget and which paths were asked for.
- `Gathered.takeChanged`: one more changed file.
- `Gathered.takeImport`, `takeImports`: the first candidate of an import that is there.
- `gather`: the texts for changed files.
- `localFetch`, `gatherLocal`: the texts of a working directory.
-/

namespace ReviewGate.Context

open Diff

/-- The text of each path that has one. -/
abbrev Fetch := String → Option String

/-- Texts gathered so far. -/
structure Gathered where
  changed : List FileText
  imported : List FileText
  remaining : Int
  /-- The paths asked for, in order. -/
  asked : List String
deriving Repr

namespace Gathered

/-- All texts. -/
def all (g : Gathered) : List FileText := g.changed ++ g.imported

/-- Is there a text of the path? -/
def has (g : Gathered) (path : String) : Bool := g.all.any (·.path == path)

/-- The path has been asked for. -/
def ask (g : Gathered) (path : String) : Gathered := { g with asked := g.asked ++ [path] }

/-- The text of a file with the language of its path. -/
def textOf (path text : String) : FileText := ⟨path, text, detectLanguage path⟩

/-- One more changed file, unless it was removed, has no text or does not fit. -/
def takeChanged (fetch : Fetch) (g : Gathered) (f : ChangedFile) : Gathered :=
  if f.status == .removed then g
  else
    let g := g.ask f.path
    match fetch f.path with
    | none => g
    | some text =>
        let cost : Int := estimateTokens text
        if text == "" || g.remaining < cost then g
        else { g with
          changed := g.changed ++ [textOf f.path text]
          remaining := g.remaining - cost }

/-- The first candidate that has a text, unless a candidate before it is there already; the search
ends also where a text does not fit. -/
def takeImport (fetch : Fetch) (g : Gathered) : List String → Gathered
  | [] => g
  | path :: rest =>
      if g.has path then g
      else
        let g := g.ask path
        match fetch path with
        | none => takeImport fetch g rest
        | some text =>
            let cost : Int := estimateTokens text
            if text == "" then takeImport fetch g rest
            else if g.remaining < cost then g
            else { g with
              imported := g.imported ++ [textOf path text]
              remaining := g.remaining - cost }

/-- What a file imports. -/
def takeImports (fetch : Fetch) (g : Gathered) (f : FileText) : Gathered :=
  (importsOf f.language f.text).foldl
    (fun g name => takeImport fetch g (candidates f.language name f.path)) g

end Gathered

/-- The texts of changed files and of what they import. -/
def gather (fetch : Fetch) (budget : Int) (files : List ChangedFile) : Gathered :=
  let g := files.foldl (Gathered.takeChanged fetch) ⟨[], [], budget, []⟩
  g.changed.foldl (Gathered.takeImports fetch) g

/-- The number of tokens that the texts use of the budget. -/
def Gathered.spent (g : Gathered) (budget : Int) : Int := budget - g.remaining

/-! ## Working directories -/

/-- The text of a path seen from the root directory, if there is such a file. -/
def localFetch (tree : Tree) (root : String) : Fetch := fun path =>
  tree.readTextLossy (String.ofList (Path.join (Tree.tidy root).toList path.toList))

/-- The texts of changed files and of what they import, from below a root directory. -/
def gatherLocal (tree : Tree) (root : String) (budget : Int) (files : List ChangedFile) :
    Gathered :=
  gather (localFetch tree root) budget files

end ReviewGate.Context
