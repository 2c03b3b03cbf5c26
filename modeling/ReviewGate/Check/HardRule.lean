import ReviewGate.Check.Basic
import ReviewGate.Policy.Scope

/-!
# `ReviewGate.Check.HardRule` — hard rules in force

A hard rule is violated by a file that its scope covers if the file's text holds a forbidden
pattern or lacks a required one. It gives at most one finding per file. A rule whose pattern is
invalid is passed over.

## Contents
- `HardRule.regex?`, `HardRule.text`, `HardRule.isViolatedBy`: pattern, text and violation.
- `HardRule.lineOf`: the line that a finding points at.
- `HardRule.concerns`, `HardRule.findings`: the findings of a rule for a file.
- `hardRuleFindings`: those of all rules that a specialist evaluates.
-/

namespace ReviewGate

open Diff

namespace HardRule

/-- The pattern of a rule, none if it is invalid. -/
def regex? (r : HardRule) : Except Fault (Option Regex.Node) :=
  match Regex.compile r.pattern with
  | .ok n => .ok (some n)
  | .error .invalid => .ok none
  | .error .flagClash | .error .numberTooLong => .error .badNumber
  | .error .countTooLarge | .error .codeTooLarge => .error .numberRange

/-- The text of a file that the rule looks at. -/
def text (r : HardRule) (f : ChangedFile) (content : String) : String :=
  match r.target with
  | .fileContent => content
  | .addedLines => f.addedText

/-- Does a text violate the rule with the given pattern? -/
def isViolatedBy (r : HardRule) (n : Regex.Node) (text : String) : Bool :=
  match r.demand with
  | .forbid => Pattern.ofNode n text
  | .require => !Pattern.ofNode n text

/-- The number, counted from `number`, of the first line with the pattern. -/
def lineFrom (n : Regex.Node) (number : Nat) : List String → Option Nat
  | [] => none
  | line :: rest => if Pattern.ofNode n line then some number else lineFrom n (number + 1) rest

/-- The line that a finding points at: the first with the pattern; otherwise the first line of the
file, or the first added line. -/
def lineOf (r : HardRule) (n : Regex.Node) (f : ChangedFile) (content : String) : Nat :=
  match r.target with
  | .fileContent => (lineFrom n 1 (Text.lines content)).getD 1
  | .addedLines =>
      match f.addedLines.find? fun line => Pattern.ofNode n line.text with
      | some line => line.number
      | none => f.firstAdded

/-- What a finding says: the rule's message, or that the rule is violated. -/
def explanation (r : HardRule) : Document :=
  r.message.orElse (.text s!"Hard rule violated: {r.id}")

/-- A finding of the rule, evaluated by the named specialist. -/
def finding (r : HardRule) (specialist path : String) (line : Nat) : Finding where
  ruleId := .text r.id
  severity := r.severity
  file := .text path
  line := .int line
  title := .text r.description
  explanation := r.explanation
  suggestion := .null
  category := .text specialist
  agent := .text (specialist ++ "-agent")
  evidence := .text r.pattern

/-- Does the rule concern the path? Its scope must cover it, and no entry of the allowlist may
excuse it. -/
def concerns (r : HardRule) (p : Policy) (path : String) : Except Fault Bool := do
  if ← Glob.matchesPath path r.scope then return !(← isAllowlisted p path r.id)
  else return false

/-- The finding of the rule for a file with the given text, if there is one. -/
def findings (r : HardRule) (p : Policy) (specialist : String) (f : ChangedFile)
    (content : String) : Except Fault (List Finding) := do
  if ← r.concerns p f.path then
    match ← r.regex? with
    | none => return []
    | some n =>
        if r.isViolatedBy n (r.text f content) then
          return [r.finding specialist f.path (r.lineOf n f content)]
        else return []
  else return []

end HardRule

/-- The rules that the named specialist evaluates. -/
def Policy.rulesOf (p : Policy) (specialist : String) : List HardRule :=
  p.hardRules.filter (·.category.admits specialist)

/-- The findings of the hard rules that the named specialist evaluates, file by file. -/
def hardRuleFindings (p : Policy) (specialist : String) (routed : List Routed)
    (contents : Contents) : Except Fault (List Finding) := do
  let perFile ← routed.mapM fun r =>
    (p.rulesOf specialist).mapM fun rule =>
      rule.findings p specialist r.file (contents r.file.path)
  return (perFile.map List.flatten).flatten

end ReviewGate
