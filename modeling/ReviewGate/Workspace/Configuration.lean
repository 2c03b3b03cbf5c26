import ReviewGate.Workspace.Surroundings
import ReviewGate.Workspace.Tree
import ReviewGate.Yaml.Value

/-!
# `ReviewGate.Workspace.Configuration` — the configuration of a working directory

The configuration is a mapping: what is usual, changed by the configuration file, then by what the
caller sets, then by the credentials of the environment.

## Contents
- `usualConfiguration`: the entries without a file.
- `configurationEntries`: the entries of the configuration file.
- `loadConfiguration`: the configuration.
-/

namespace ReviewGate

/-- Entries changed by later ones, one after the other. -/
def overlay (entries later : List (Document × Document)) : List (Document × Document) :=
  later.foldl (fun entries (k, v) => Document.put k v entries) entries

/-- The path of the configuration file. -/
def configurationPath : String := ".patchwarden.yml"

/-- Where learned rules are kept. -/
def learnedPath : String := ".patchwarden-learned.json"

/-- Where the snapshot of the policy is kept. -/
def snapshotPath : String := ".patchwarden-policy.json"

/-- What is configured without a file. -/
def usualConfiguration : List (Document × Document) :=
  [(.text "provider", .null), (.text "store", .text "file"),
   (.text "learned_rules_path", .text learnedPath), (.text "policy_path", .text snapshotPath),
   (.text "gist_id", .null), (.text "review_draft_prs", .bool false),
   (.text "soft_rules", .list []), (.text "hard_rules", .list []), (.text "ignore", .list []),
   (.text "allowlist", .list [])]

/-- The entries of the configuration file at the path; none if there is no file or it says
nothing. -/
def configurationEntries (tree : Tree) (path : String) :
    Except Fault (List (Document × Document)) := do
  if !tree.occupies path then return []
  let d ← Yaml.read (← tree.readText path)
  if !d.truthy then return []
  match d with
  | .map entries => return entries
  | d => throw (.setup (.configKind path d))

/-- The credentials that the environment holds, null where it holds none. -/
def credentials (s : Surroundings) : List (Document × Document) :=
  [("github_token", "GITHUB_TOKEN"), ("anthropic_api_key", "ANTHROPIC_API_KEY"),
   ("openai_api_key", "OPENAI_API_KEY")].map fun (key, name) =>
    (.text key, .ofText? (s.setting? name))

/-- The configuration. Of what the caller sets, null sets nothing. -/
def loadConfiguration (tree : Tree) (s : Surroundings) (path : String)
    (settings : List (Document × Document)) : Except Fault Document := do
  let file ← configurationEntries tree path
  let set := settings.filter fun (_, v) => !v.isNull
  return .map (overlay (overlay (overlay usualConfiguration file) set) (credentials s))

end ReviewGate
