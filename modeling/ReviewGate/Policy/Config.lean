import ReviewGate.Policy.Rule

/-!
# `ReviewGate.Policy.Config` — a repository's configuration

## Contents
- `AllowlistEntry`, `Settings`, `Enforcement`, `SpecialistSettings`, `Agents`: the parts of a
  configuration beside its rules.
- `RepoConfig`: the whole.
- `readSection`: a section that must be of one kind if it is there.
- `readSoftRules`: the soft rules, which may stand in either of two sections.
- `RepoConfig.ofDocument`: the configuration of a document.
-/

namespace ReviewGate

/-- Paths for which rules do not count: all rules, or those with the given ids. -/
structure AllowlistEntry where
  path : String
  ruleIds : Option (List Document)
  reason : Document
deriving Repr

/-- Limits and the model of a run. -/
structure Settings where
  maxInlineComments : Int
  model : Document
  contextBudget : Int
deriving Repr

/-- What a review does about findings. -/
structure Enforcement where
  mode : String
  blockOn : List Severity
  newCodeOnly : Bool
  maxComments : Int
deriving DecidableEq, Repr

/-- The enforcement that applies when nothing is configured. -/
def Enforcement.default : Enforcement := ⟨"warn", [.critical], true, 3⟩

/-- Does the enforcement block a change? -/
def Enforcement.blocks (e : Enforcement) : Bool := e.mode == "enforce"

/-- Whether a specialist runs and how many findings it may report. -/
structure SpecialistSettings where
  enabled : Bool
  maxFindings : Int
deriving DecidableEq, Repr

/-- The settings of a specialist that is not configured. -/
def SpecialistSettings.default : SpecialistSettings := ⟨true, 50⟩

/-- The settings of every specialist. -/
abbrev Agents := Specialist → SpecialistSettings

/-- The settings of the specialist with the given name. -/
def Agents.forName (agents : Agents) (name : String) : SpecialistSettings :=
  match Specialist.ofName? name with
  | some s => agents s
  | none => .default

/-- A repository's configuration. -/
structure RepoConfig where
  softRules : List Rule
  hardRules : List HardRule
  ignore : List String
  allowlist : List AllowlistEntry
  settings : Settings
  enforcement : Enforcement
  agents : Agents

/-! ## Reading -/

/-- The kinds that a section may be required to have. -/
inductive SectionKind
  | list
  | mapping
deriving DecidableEq, Repr

/-- The name of a kind of section. -/
def SectionKind.name : SectionKind → String
  | .list => "list"
  | .mapping => "dict"

/-- Is the document of the kind? -/
def SectionKind.fits : SectionKind → Document → Bool
  | .list, .list _ => true
  | .mapping, .map _ => true
  | _, _ => false

/-- A section of the configuration, or `absent` if it is not there or null. -/
def readSection (raw : Document) (key : String) (kind : SectionKind) (absent : Document) :
    Except Fault Document := do
  let value ← raw.field key
  if value.isNull then return absent
  else if kind.fits value then return value
  else throw (.policy (.sectionKind key kind.name value))

/-- The items of a section that is a list. -/
def readList (raw : Document) (key : String) : Except Fault (List Document) := do
  (← readSection raw key .list (.list [])).items

/-- An entry of the allowlist. -/
def AllowlistEntry.ofDocument (d : Document) : Except Fault AllowlistEntry :=
  match d with
  | .map entries => do
      let get (name : String) : Document := (Document.lookup name entries).getD .null
      if !(get "path").truthy then throw (.policy .allowlistPath)
      let ids := get "rule_ids"
      return {
        path := ← (get "path").spell
        ruleIds := ← if ids.truthy then some <$> ids.items else pure none
        reason := get "reason" }
  | _ => .error (.policy .allowlistPath)

/-- The settings of a run. -/
def Settings.ofDocument (d : Document) : Except Fault Settings := do
  return {
    maxInlineComments := ← (← d.fieldOr "max_inline_comments" (.int 3)).toInteger
    model := (← d.field "model").orElse .null
    contextBudget := ← (← d.fieldOr "context_budget" (.int 50000)).toInteger }

/-- The severities on which a review blocks: a list of names, or one name alone. -/
def readBlockOn (d : Document) : Except Fault (List Severity) :=
  let names (items : List Document) : List Severity := items.filterMap fun item =>
    match item with
    | .text s => Severity.ofName? s
    | _ => none
  match d with
  | .text s => .ok (names [.text s])
  | .list items => .ok (names items)
  | d => .error (.policy (.blockOnKind d))

/-- The enforcement of a configuration, `maxComments` being the limit if it gives none. -/
def Enforcement.ofDocument (maxComments : Int) (d : Document) : Except Fault Enforcement := do
  let blockOn ← readBlockOn (← d.fieldOr "block_on" (.list [.text Severity.critical.name]))
  return {
    mode := if (← d.field "mode").isText "enforce" then "enforce" else "warn"
    blockOn
    newCodeOnly := ← readFlag true "new_code_only" (← d.field "new_code_only")
    maxComments := ← (← d.fieldOr "max_comments" (.int maxComments)).toInteger }

/-- The settings after the entries of the section on specialists. Entries that name no specialist
or have no value are passed over. -/
def Agents.update (agents : Agents) : List (Document × Document) → Except Fault Agents
  | [] => .ok agents
  | (name, values) :: rest =>
      let known := match name with
        | .text s => Specialist.ofName? s
        | _ => none
      match known with
      | some s =>
          if values.truthy then do
            let old := agents s
            let enabled ← readFlag old.enabled "enabled" (← values.field "enabled")
            let maxFindings ← (← values.fieldOr "max_findings" (.int old.maxFindings)).toInteger
            Agents.update (fun t => if t = s then ⟨enabled, maxFindings⟩ else agents t) rest
          else Agents.update agents rest
      | none => Agents.update agents rest

/-- The settings of the specialists of a configuration. -/
def Agents.ofDocument (d : Document) : Except Fault Agents := do
  let specialists := (← d.field "specialists").orElse (.map [])
  Agents.update (fun _ => .default) (← specialists.entries)

/-- The soft rules of a configuration. They may also stand under the key `rules`, which counts if
there are no others. -/
def readSoftRules (raw : Document) : Except Fault (List Rule) := do
  let soft ← (← readList raw "soft_rules").mapM (Rule.ofDocument .seed "soft_rules")
  if soft.isEmpty then (← readList raw "rules").mapM (Rule.ofDocument .seed "rules")
  else return soft

/-- The configuration of a document. -/
def RepoConfig.ofDocument (d : Document) : Except Fault RepoConfig := do
  let raw := d.orElse (.map [])
  let soft ← readSoftRules raw
  let hard ← (← readList raw "hard_rules").mapM (HardRule.ofDocument .seed "hard_rules")
  let allowlist ← (← readList raw "allowlist").mapM AllowlistEntry.ofDocument
  let settings ← Settings.ofDocument (← readSection raw "settings" .mapping (.map []))
  let enforcement ←
    Enforcement.ofDocument settings.maxInlineComments
      (← readSection raw "enforcement" .mapping (.map []))
  let ignore ← (← readList raw "ignore").mapM Document.spell
  let agents ← Agents.ofDocument (← readSection raw "agents" .mapping (.map []))
  return ⟨soft, hard, ignore, allowlist, settings, enforcement, agents⟩

end ReviewGate
