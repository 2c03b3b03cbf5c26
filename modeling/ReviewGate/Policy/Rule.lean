import ReviewGate.Document.Number
import ReviewGate.Document.Spelling
import ReviewGate.Routing.Specialist
import ReviewGate.Severity
import ReviewGate.Text.Character

/-!
# `ReviewGate.Policy.Rule` — soft and hard rules

A soft rule is guidance in natural language for the files that a glob covers. A hard rule is a
regular expression that the added lines or the whole content of such files must or must not match.

## Contents
- `RuleSource`, `Category`, `Demand`, `Target`: the closed choices in a rule.
- `Rule`, `HardRule`.
- `checkRule`: what every rule document must have.
- `readFlag`: yes or no, as a truth value or a word.
- `Rule.ofDocument`, `HardRule.ofDocument`: rules from documents; an unknown choice becomes the
  default one.
- `Rule.toDocument`, `HardRule.toDocument`: the documents of rules.
-/

namespace ReviewGate

/-- Where a rule comes from. -/
inductive RuleSource
  | seed
  | learned
  | policy
deriving DecidableEq, Repr

namespace RuleSource

/-- The name of a source. -/
def name : RuleSource → String
  | .seed => "seed"
  | .learned => "learned"
  | .policy => "policy"

/-- The source that a document names, or the given one. -/
def ofDocument (absent : RuleSource) : Document → RuleSource
  | .text s => (([.seed, .learned, .policy] : List RuleSource).find? (·.name == s)).getD absent
  | _ => absent

end RuleSource

/-- The severity that a document names, or the given one. -/
def Severity.ofDocument (absent : Severity) : Document → Severity
  | .text s => (Severity.ofName? s).getD absent
  | _ => absent

/-- Which specialist evaluates a hard rule. -/
inductive Category
  | any
  | only (s : Specialist)
deriving DecidableEq, Repr

namespace Category

/-- The name of a category. -/
def name : Category → String
  | .any => "any"
  | .only s => s.name

/-- The category that a document names; whatever is not known counts as `any`. -/
def ofDocument : Document → Category
  | .text s =>
      match Specialist.ofName? s with
      | some found => .only found
      | none => .any
  | _ => .any

/-- Does the specialist of the given name evaluate rules of the category? -/
def admits (specialist : String) : Category → Bool
  | .any => true
  | .only s => s.name == specialist

end Category

/-- What a hard rule demands of its text. -/
inductive Demand
  | forbid
  | require
deriving DecidableEq, Repr

/-- The name of a demand. -/
def Demand.name : Demand → String
  | .forbid => "forbid_regex"
  | .require => "require_regex"

/-- The text that a hard rule looks at. -/
inductive Target
  | addedLines
  | fileContent
deriving DecidableEq, Repr

/-- The name of a target. -/
def Target.name : Target → String
  | .addedLines => "added_lines"
  | .fileContent => "file_content"

/-- A soft rule. -/
structure Rule where
  id : String
  description : String
  scope : String
  pattern : String
  severity : Severity
  source : RuleSource
deriving DecidableEq, Repr

/-- A hard rule. The message is kept as the document gives it. -/
structure HardRule where
  id : String
  description : String
  scope : String
  pattern : String
  severity : Severity
  source : RuleSource
  category : Category
  demand : Demand
  target : Target
  message : Document
  newCodeOnly : Bool
deriving Repr

/-! ## Reading -/

/-- The fields without which a document is no rule. -/
def requiredFields : List String := ["id", "scope", "pattern"]

/-- A rule document is a mapping whose required fields count as present. -/
def checkRule (place : String) (d : Document) : Except Fault Unit :=
  match d with
  | .map entries =>
      let missing := requiredFields.filter fun name =>
        !((Document.lookup name entries).getD .null).truthy
      if missing.isEmpty then .ok ()
      else
        let id := (Document.lookup "id" entries).getD (.text "<no id>")
        .error ((PolicyFault.ruleFields place id missing).citing id)
  | _ => .error (.policy (.ruleShape place))

/-- Yes or no under the given key. -/
def readFlag (absent : Bool) (key : String) (d : Document) : Except Fault Bool :=
  match d with
  | .null => .ok absent
  | .bool b => .ok b
  | d => do
      let word := Text.toLower (Text.strip (← d.spell))
      if ["true", "yes", "on", "1"].contains word then return true
      else if ["false", "no", "off", "0"].contains word then return false
      else throw (.policy (.flag key d))

/-- The soft rule of a document. -/
def Rule.ofDocument (source : RuleSource) (place : String) (d : Document) :
    Except Fault Rule := do
  checkRule place d
  return {
    id := ← (← d.field "id").spell
    description := ← (← d.fieldOr "description" (.text "")).spell
    scope := ← (← d.field "scope").spell
    pattern := ← (← d.field "pattern").spell
    severity := .ofDocument .warning (← d.field "severity")
    source := .ofDocument source (← d.field "source") }

/-- The hard rule of a document. -/
def HardRule.ofDocument (source : RuleSource) (place : String) (d : Document) :
    Except Fault HardRule := do
  checkRule place d
  return {
    id := ← (← d.field "id").spell
    description := ← (← d.fieldOr "description" (.text "")).spell
    scope := ← (← d.field "scope").spell
    pattern := ← (← d.field "pattern").spell
    severity := .ofDocument .critical (← d.field "severity")
    source := .ofDocument source (← d.field "source")
    category := .ofDocument (← d.field "category")
    demand := if (← d.field "mode").isText Demand.require.name then .require else .forbid
    target := if (← d.field "target").isText Target.fileContent.name then .fileContent
      else .addedLines
    message := ← d.field "message"
    newCodeOnly := ← readFlag true "new_code_only" (← d.field "new_code_only") }

/-! ## Writing -/

/-- The document of a soft rule. -/
def Rule.toDocument (r : Rule) : Document :=
  .ofFields [("id", .text r.id), ("description", .text r.description), ("scope", .text r.scope),
    ("pattern", .text r.pattern), ("severity", .text r.severity.name),
    ("source", .text r.source.name)]

/-- The document of a hard rule; it has a message only if the rule has one. -/
def HardRule.toDocument (r : HardRule) : Document :=
  .ofFields <|
    [("id", .text r.id), ("description", .text r.description), ("scope", .text r.scope),
      ("pattern", .text r.pattern), ("severity", .text r.severity.name),
      ("source", .text r.source.name), ("category", .text r.category.name),
      ("mode", .text r.demand.name), ("target", .text r.target.name),
      ("new_code_only", .bool r.newCodeOnly)] ++
    if r.message.isNull then [] else [("message", r.message)]

end ReviewGate
