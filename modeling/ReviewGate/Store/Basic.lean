import ReviewGate.Store.Shelf
import ReviewGate.Workspace.Configuration

/-!
# `ReviewGate.Store` — learned rules and snapshots kept

## Contents
- `Store`: where the documents are kept, if anywhere.
- `Cell`: the two documents.
- `Store.paths`: the files of a store.
- `Store.read`, `Store.write`: a document read and replaced.
- `learnedEnvelope`, `rulesIn`: the rules as a document and back.
- `Store.learnedRules`, `Store.snapshot?`: what is stored.
- `Store.saveLearned`, `Store.saveSnapshot`: what is stored replaced.
- `chooseStore`: the store that a configuration names.
-/

namespace ReviewGate

/-- Where the documents are kept. -/
inductive Store
  | files (learned snapshot : String)
  | gist
  /-- Nothing is kept. -/
  | nowhere
deriving DecidableEq, Repr

/-- The documents that outlive a run. -/
inductive Cell
  | learned
  | snapshot
deriving DecidableEq, Repr

/-- The file of a gist that holds the document. -/
def Cell.gistFile : Cell → String
  | .learned => "patchwarden_learned.json"
  | .snapshot => "patchwarden_policy.json"

namespace Store

/-- The files of a store in the working directory. -/
def paths : Store → List String
  | .files learned snapshot => [learned, snapshot]
  | .gist | .nowhere => []

/-- The stored document, if there is one. -/
def read (store : Store) (s : Shelf) (cell : Cell) : Except Fault (Option Document) :=
  match store, cell with
  | .files learned _, .learned => s.fileDocument learned
  | .files _ snapshot, .snapshot => s.fileDocument snapshot
  | .gist, cell => s.gistDocument cell.gistFile
  | .nowhere, _ => .ok none

/-- What is said when a document could not be put into the gist. -/
def gistWarning (inWorkflow : Bool) (cell : Cell) (refusal : Shelf.Refusal) : String :=
  s!"Warning: could not persist {cell.gistFile} to Gist ({refusal.message})" ++
    if inWorkflow then
      "\nThe built-in GITHUB_TOKEN does not have Gist permissions. Use a PAT with 'gist' scope " ++
        "stored as a repository secret."
    else ""

/-- The shelf after the document has been replaced, with what is printed about it. -/
def write (store : Store) (inWorkflow : Bool) (s : Shelf) (cell : Cell) (d : Document) :
    Except Fault (Option String) × Shelf :=
  match store, cell with
  | .files learned _, .learned =>
      let (result, s) := s.putInFile learned d
      (result.map fun _ => none, s)
  | .files _ snapshot, .snapshot =>
      let (result, s) := s.putInFile snapshot d
      (result.map fun _ => none, s)
  | .gist, cell =>
      match s.putInGist cell.gistFile d with
      | (.ok (), s) => (.ok none, s)
      | (.error refusal, s) => (.ok (some (gistWarning inWorkflow cell refusal)), s)
  | .nowhere, _ => (.ok none, s)

/-! ## Documents -/

/-- The version that learned rules are written with. -/
def learnedVersion : Int := 1

/-- The document that holds learned rules. -/
def learnedEnvelope (rules : Document) (stamp : String) : Document :=
  .ofFields [("version", .int learnedVersion), ("rules", rules), ("last_updated", .text stamp)]

/-- The rules in a stored document; none if it is not of the form. -/
def rulesIn : Option Document → List Document
  | some (.map entries) =>
      match Document.lookup "rules" entries with
      | some (.list rules) => rules
      | _ => []
  | _ => []

/-- The stored learned rules. -/
def learnedRules (store : Store) (s : Shelf) : Except Fault (List Document) :=
  (store.read s .learned).map rulesIn

/-- The stored snapshot; a document that is no mapping is none. -/
def snapshot? (store : Store) (s : Shelf) : Except Fault (Option Document) :=
  (store.read s .snapshot).map fun
    | some (.map entries) => some (.map entries)
    | _ => none

/-- The shelf with the learned rules replaced. -/
def saveLearned (store : Store) (inWorkflow : Bool) (stamp : String) (s : Shelf)
    (rules : Document) : Except Fault (Option String) × Shelf :=
  store.write inWorkflow s .learned (learnedEnvelope rules stamp)

/-- The shelf with the snapshot replaced. -/
def saveSnapshot (store : Store) (inWorkflow : Bool) (s : Shelf) (d : Document) :
    Except Fault (Option String) × Shelf :=
  store.write inWorkflow s .snapshot d

end Store

/-! ## Choice -/

/-- The path that an entry gives, or the usual one. -/
def pathSetting (config : Document) (name usual : String) : Except Fault String := do
  match (← config.field name).orElse (.text usual) with
  | .text path => return path
  | _ => throw .wrongKind

/-- What is said when a gist is configured and cannot be used. -/
def noGistWarning : String :=
  "[yellow]GistStore requires gist_id and a GitHub token. Falling back to no store.[/yellow]"

/-- The store that a configuration names, with what is printed about it. -/
def chooseStore (config : Document) : Except Fault (Store × Option String) := do
  let kind := (← config.field "store").orElse (.text "file")
  if kind.isText "gist" then
    if (← config.field "gist_id").truthy && (← config.field "github_token").truthy then
      return (.gist, none)
    else return (.nowhere, some noGistWarning)
  else if kind.isText "file" then
    let learned ← pathSetting config "learned_rules_path" learnedPath
    let snapshot ← pathSetting config "policy_path" snapshotPath
    return (.files learned snapshot, none)
  else return (.nowhere, none)

end ReviewGate
