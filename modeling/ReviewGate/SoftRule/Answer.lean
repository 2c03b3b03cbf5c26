import ReviewGate.Fault
import ReviewGate.Finding.Basic

/-!
# `ReviewGate.SoftRule.Answer` — findings in a model's answer

## Contents
- `Severities`: the severity of each rule.
- `findingOf?`: the finding of an entry; an incomplete entry has none.
- `findingsOf`: the findings of an answer.
-/

namespace ReviewGate.SoftRule

/-- The severity of each rule by its id. -/
abbrev Severities := List (String × Severity)

/-- The severity under a key, `warning` if there is none; the key must be one. -/
def severityUnder (severities : Severities) (id : Document) : Except Fault Severity := do
  match ← id.keyOf with
  | .text s => return (severities.lookup s).getD .warning
  | _ => return .warning

/-- The severity that an entry gives, or else that of its rule. -/
def severityOf (severities : Severities) (id severity : Document) : Except Fault Severity :=
  match severity with
  | .text s =>
      match Severity.ofName? s with
      | some found => .ok found
      | none => severityUnder severities id
  | _ => severityUnder severities id

/-- Is the value an integer, or a truth value, that counts at least one? -/
def isLine : Document → Bool
  | .int n => 1 ≤ n
  | .bool b => b
  | _ => false

/-- Does the entry name a known file? The name must be one that can be looked up. -/
def isKnown (known : List String) (path : Document) : Except Fault Bool := do
  match ← path.keyOf with
  | .text s => return known.contains s
  | _ => return false

/-- The finding of an entry of the answer. An entry without a rule, a known file, a line or a title
has none. -/
def findingOf? (known : List String) (severities : Severities) (entry : Document) :
    Except Fault (Option Finding) :=
  match entry with
  | .map entries => do
      let get (name : String) : Document := (Document.lookup name entries).getD .null
      let id := (get "rule_id").orElse (get "ruleId")
      if !id.truthy then return none
      if !(← isKnown known (get "file")) then return none
      if !isLine (get "line") || !(get "title").truthy then return none
      return some {
        ruleId := .text id.plain
        severity := ← severityOf severities id (get "severity")
        file := get "file"
        line := get "line"
        title := .text (get "title").plain
        explanation := .text ((get "explanation").orElse (get "title")).plain
        suggestion := (get "suggestion").orElse .null
        category := .text "semantic"
        agent := .text "semantic-agent"
        evidence := .null }
  | _ => .ok none

/-- The findings of an answer; an answer that is no list has none. -/
def findingsOf (known : List String) (severities : Severities) (answer : Document) :
    Except Fault (List Finding) :=
  match answer with
  | .list entries => do return (← entries.mapM (findingOf? known severities)).filterMap id
  | _ => .ok []

end ReviewGate.SoftRule
