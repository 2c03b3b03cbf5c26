import ReviewGate.Policy.Rule

/-!
# `ReviewGate.Policy.Learned` — rules learned from merged changes

## Contents
- `LearnedRule`: a rule with the confidence in it and where it was learned.
- `parseLearned`: the learned rules of documents; a malformed document drops only itself.
- `LearnedRule.toDocument`: the document of a learned rule.
- `confidentRules`: the soft rules that come from learned rules.
-/

namespace ReviewGate

open Number

/-- A rule learned from a merged change. -/
structure LearnedRule where
  id : String
  description : String
  scope : String
  pattern : String
  severity : Severity
  confidence : Binary64
  learnedFrom : Document
  mergedAt : Document
deriving Repr

/-- The learned rule of a document. -/
def LearnedRule.ofDocument (d : Document) : Except Fault LearnedRule := do
  checkRule "learned rules" d
  let origin := (← d.field "learned_from").orElse (.map [])
  return {
    id := (← d.field "id").plain
    description := (← d.fieldOr "description" (.text "")).plain
    scope := (← d.field "scope").plain
    pattern := (← d.field "pattern").plain
    severity := .ofDocument .warning (← d.field "severity")
    confidence := ← (← d.fieldOr "confidence" (.float (Binary64.zero false))).toDouble
    learnedFrom := ← origin.field "pr_number"
    mergedAt := ← origin.field "merged_at" }

/-- Does a fault only mean that the document is malformed? A number out of range does not. -/
def Fault.isMalformed : Fault → Bool
  | .policy _ | .noMember | .wrongKind | .badNumber => true
  | _ => false

/-- The learned rule of a document, `none` if the document is malformed. -/
def LearnedRule.read? (d : Document) : Except Fault (Option LearnedRule) :=
  match LearnedRule.ofDocument d with
  | .ok r => .ok (some r)
  | .error fault => if fault.isMalformed then .ok none else .error fault

/-- The learned rules of documents, in order. -/
def parseLearned (docs : List Document) : Except Fault (List LearnedRule) := do
  return (← docs.mapM LearnedRule.read?).filterMap id

/-- The document of a learned rule. -/
def LearnedRule.toDocument (r : LearnedRule) : Document :=
  .ofFields [("id", .text r.id), ("description", .text r.description), ("scope", .text r.scope),
    ("pattern", .text r.pattern), ("severity", .text r.severity.name),
    ("source", .text RuleSource.learned.name), ("confidence", .float r.confidence),
    ("learned_from", .ofFields [("pr_number", r.learnedFrom), ("merged_at", r.mergedAt)])]

/-- The least confidence with which a learned rule counts: one half. -/
def leastConfidence : Binary64 := .finite false 1 (-1)

/-- The soft rule of a learned rule. -/
def LearnedRule.toRule (r : LearnedRule) : Rule :=
  ⟨r.id, r.description, r.scope, r.pattern, r.severity, .learned⟩

/-- The soft rules of the learned rules with enough confidence. -/
def confidentRules (learned : List LearnedRule) : List Rule :=
  (learned.filter fun r => leastConfidence.le r.confidence).map LearnedRule.toRule

end ReviewGate
