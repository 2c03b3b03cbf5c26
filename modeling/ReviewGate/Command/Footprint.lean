import ReviewGate.Command.Execute

/-!
# `ReviewGate.Command.Footprint` — the paths that a command line leads to

A command sees the working directory as a tree. Which files it looks at shows step by step: the
configuration names the stored documents, the diff names the changed files, and their texts name
what they import. So the footprint is taken of the tree as far as it is known, and a tree that holds
all of its own footprint is all that the command looks at.

## Contents
- `importedPaths`, `changedPaths`: the paths that a diff leads to.
- `footprint`: the paths that a command line leads to.
- `readsInput`: does it take a diff from the input?
-/

namespace ReviewGate.Command

/-- The paths that a text may import. -/
def importedPaths (path text : String) : List String :=
  let language := detectLanguage path
  (Context.importsOf language text).flatMap fun name => Context.candidates language name path

/-- The paths, below `root`, of the files that a diff changes and of what they may import. -/
def changedPaths (tree : Tree) (root diff : String) : List String :=
  match Diff.parseFiles [] (Diff.splitGitDiff diff) with
  | .error _ => []
  | .ok files =>
      let paths := files.flatMap fun f =>
        f.path :: ((Context.localFetch tree root f.path).map (importedPaths f.path)).getD []
      paths.map fun path => String.ofList (Path.join (Tree.tidy root).toList path.toList)

/-- The paths that a request leads to. -/
def Request.paths (tree : Tree) (input : String) : Request → List String
  | .check diff root _ =>
      let text := if diff == "-" then .ok input else tree.readText diff
      root :: (text.toOption.map (changedPaths tree root)).getD []
  | _ => []

/-- What is asked for, as far as the tree shows. -/
def request? (tree : Tree) (words : List String) : Option Request :=
  match Opening.ofWords? words with
  | .ok (some o) => (Request.ofWords? tree o.verb o.words).toOption.join
  | _ => none

/-- The paths that a command line leads to, as far as the tree is known. -/
def footprint (tree : Tree) (s : Surroundings) (input : String) (words : List String) :
    List String :=
  match Opening.ofWords? words with
  | .ok (some o) =>
      let path := configurationPathOf s o
      let stored := do
        let (store, _) ← chooseStore (← loadConfiguration tree s path [])
        return store.paths
      [path, workflowPath] ++ o.words ++ (s.nonempty? "GITHUB_OUTPUT").toList ++
        (stored.toOption.getD []) ++
        ((request? tree words).map (Request.paths tree input)).getD []
  | _ => []

/-- Does the command line take a diff from the input? -/
def readsInput (tree : Tree) (words : List String) : Bool :=
  match request? tree words with
  | some (.check diff _ _) => diff == "-"
  | _ => false

end ReviewGate.Command
