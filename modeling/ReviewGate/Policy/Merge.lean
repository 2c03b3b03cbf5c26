import ReviewGate.Policy.Config
import ReviewGate.Policy.Learned

/-!
# `ReviewGate.Policy.Merge` — the policy of a run

The rules of a run come in layers: a stored snapshot, then learned rules, then the configuration.
Of several rules with one id the last counts, in the place of the first.

## Contents
- `putById`, `mergeById`: the merge of rules.
- `Snapshot`, `Snapshot.ofDocument?`: a stored policy.
- `Policy`, `mergePolicy`, `loadPolicy`: the policy of a run.
- `Policy.snapshot`: the policy as a document to store.
-/

namespace ReviewGate

/-- The items with `x` in place of the first item that has its key, or at the end. -/
def putById {α : Type} (key : α → String) (x : α) : List α → List α
  | [] => [x]
  | y :: rest => if key y = key x then x :: rest else y :: putById key x rest

/-- One item per key: the last with the key, in the place of the first. -/
def mergeById {α : Type} (key : α → String) (items : List α) : List α :=
  items.foldl (fun merged x => putById key x merged) []

/-- The texts without repetitions, in order of first occurrence. -/
def unique (texts : List String) : List String :=
  texts.foldl (fun found s => if found.contains s then found else found ++ [s]) []

/-! ## Snapshots -/

/-- A stored policy. -/
structure Snapshot where
  version : Int
  generatedAt : String
  softRules : List Rule
  hardRules : List HardRule

/-- The version that snapshots are written with. -/
def snapshotVersion : Int := 1

/-- The rules of a stored policy. -/
def Snapshot.readRules (soft hard : List Document) :
    Except Fault (List Rule × List HardRule) := do
  let softRules ← soft.mapM (Rule.ofDocument .policy "snapshot")
  let hardRules ← hard.mapM (HardRule.ofDocument .policy "snapshot")
  return (softRules, hardRules)

/-- The stored policy of a document; `none` if it is not there, lacks a list of rules or holds a
rule that violates the contract. -/
def Snapshot.ofDocument? (d : Document) : Except Fault (Option Snapshot) := do
  if !d.truthy then return none
  match ← d.field "soft_rules", ← d.field "hard_rules" with
  | .list soft, .list hard => do
      let version ← (← d.fieldOr "version" (.int snapshotVersion)).toInteger
      let generatedAt := (← d.fieldOr "generated_at" (.text "")).plain
      match Snapshot.readRules soft hard with
      | .ok (softRules, hardRules) => return some ⟨version, generatedAt, softRules, hardRules⟩
      | .error (.policy _) => return none
      | .error fault => throw fault
  | _, _ => return none

/-! ## Policies -/

/-- The policy of a run. -/
structure Policy where
  softRules : List Rule
  hardRules : List HardRule
  allowlist : List AllowlistEntry
  ignore : List String
  settings : Settings
  enforcement : Enforcement
  agents : Agents

/-- The policy of a configuration with learned rules and a stored policy. A mode that is not empty
replaces the configured one. -/
def mergePolicy (config : RepoConfig) (learned : List Rule) (snapshot : Option Snapshot)
    (mode : Option String) : Policy :=
  let storedSoft := (snapshot.map (·.softRules)).getD []
  let storedHard := (snapshot.map (·.hardRules)).getD []
  let enforcement := match mode with
    | none | some "" => config.enforcement
    | some mode => { config.enforcement with mode }
  { softRules := mergeById (·.id) (storedSoft ++ learned ++ config.softRules)
    hardRules := mergeById (·.id) (storedHard ++ config.hardRules)
    allowlist := config.allowlist
    ignore := unique config.ignore
    settings := config.settings
    enforcement
    agents := config.agents }

/-- The policy of a configuration document with the documents of learned rules and of a stored
policy. -/
def loadPolicy (config : Document) (learned : List Document) (snapshot : Document)
    (mode : Option String) : Except Fault Policy := do
  let config ← RepoConfig.ofDocument config
  let learned := confidentRules (← parseLearned learned)
  let snapshot ← Snapshot.ofDocument? snapshot
  return mergePolicy config learned snapshot mode

/-- The rules of the policy as a document to store. -/
def Policy.snapshot (p : Policy) (generatedAt : String) : Document :=
  .ofFields [("version", .int snapshotVersion), ("generated_at", .text generatedAt),
    ("soft_rules", .list (p.softRules.map Rule.toDocument)),
    ("hard_rules", .list (p.hardRules.map HardRule.toDocument))]

end ReviewGate
