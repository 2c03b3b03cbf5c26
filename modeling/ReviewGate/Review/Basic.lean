import ReviewGate.Policy.Config
import ReviewGate.Review.Comment

/-!
# `ReviewGate.Review` — the review of a change

## Contents
- `ReviewEvent`, `decideEvent`: what the review does about the change.
- `Review`, `Review.ofAnalysis`: text, comments and event together.
- `runOutputs`: named results for the surroundings of a run.
-/

namespace ReviewGate

open Diff

/-- What a review does about a change. -/
inductive ReviewEvent
  | approve
  | comment
  | requestChanges
deriving DecidableEq, Repr

/-- The name of an event. -/
def ReviewEvent.name : ReviewEvent → String
  | .approve => "APPROVE"
  | .comment => "COMMENT"
  | .requestChanges => "REQUEST_CHANGES"

/-- A change without findings is approved. Only an enforcing policy requests changes, and only for
a finding of a severity on which it blocks. -/
def decideEvent (e : Enforcement) (findings : List Finding) : ReviewEvent :=
  if findings.isEmpty then .approve
  else if e.blocks && findings.any (fun f => e.blockOn.contains f.severity) then .requestChanges
  else .comment

/-- A review. -/
structure Review where
  body : String
  comments : List InlineComment
  event : ReviewEvent
deriving Repr

/-- The review that tells of an analysis. -/
def Review.ofAnalysis (a : Analysis) (files : List ChangedFile) (e : Enforcement) :
    Except Fault Review := do
  return {
    body := ← reviewBody a
    comments := inlineComments files e.maxComments a.findings
    event := decideEvent e a.findings }

/-- Named results of a run. -/
def runOutputs (a : Analysis) (event : ReviewEvent) : List (String × String) :=
  [("findings-count", toString a.findings.length),
   ("critical-count", toString (countSeverity a.findings .critical)),
   ("warning-count", toString (countSeverity a.findings .warning)),
   ("review-event", event.name),
   ("tokens-used", toString a.usage.total)]

end ReviewGate
