import ReviewGate.Model.Answer
import ReviewGate.Policy.Scope
import ReviewGate.SoftRule.Answer
import ReviewGate.SoftRule.Prompt

/-!
# `ReviewGate.SoftRule.Check` — the pass over soft rules

The rules that concern the changed files are put to a model together with the texts of those
files. Without such rules or texts the model is not asked.

## Contents
- `rulesById`: one rule for each id.
- `Agenda`, `agendaOf?`: the rules and files to ask about.
- `SoftResult`, `checkSoftRules`: the findings and what they cost.
-/

namespace ReviewGate.SoftRule

open Diff

/-- The rules under their ids with one more, unless there is one under its id. -/
def addRule (found : List (String × Rule)) (r : Rule) : List (String × Rule) :=
  if found.any (·.1 == r.id) then found else found ++ [(r.id, r)]

/-- The rules under their ids, the first with each. -/
def rulesById (rules : List Rule) : List (String × Rule) := rules.foldl addRule []

/-- What a model is asked about. -/
structure Agenda where
  rules : List Rule
  files : List FileText
deriving Repr

/-- The rules that concern changed files, and the texts of the files that they concern; `none` if
there is nothing to ask. -/
def agendaOf? (rules : List Rule) (files : List ChangedFile) (texts : List FileText) :
    Except Fault (Option Agenda) := do
  let byFile ← rulesByFile rules files
  let relevant := texts.filter fun f => byFile.any (·.1 == f.path)
  if relevant.isEmpty then return none
  else return some ⟨(rulesById (byFile.flatMap (·.2))).map (·.2), relevant⟩

/-- The result of the pass. -/
structure SoftResult where
  findings : List Finding
  usage : TokenUsage
deriving Repr

/-- Nothing found, nothing spent. -/
def SoftResult.empty : SoftResult := ⟨[], .none⟩

/-- The findings in a completion. -/
def resultOf (agenda : Agenda) (c : Completion) : Except Fault SoftResult := do
  let answer ← readAnswer c.text
  let findings ← findingsOf (agenda.files.map (·.path))
    (agenda.rules.map fun r => (r.id, r.severity)) answer
  return ⟨findings, c.usage⟩

/-- The pass over soft rules, with the conversation it takes. -/
def checkSoftRules (p : Provider) (rules : List Rule) (files : List ChangedFile)
    (texts context : List FileText) (t : Talk) : Except Fault SoftResult × Talk :=
  match agendaOf? rules files texts with
  | .error fault => (.error fault, t)
  | .ok none => (.ok .empty, t)
  | .ok (some agenda) =>
      match p.complete (ruleQuestion agenda.rules agenda.files context) t with
      | (none, t) => (.ok .empty, t)
      | (some c, t) => (resultOf agenda c, t)

end ReviewGate.SoftRule
