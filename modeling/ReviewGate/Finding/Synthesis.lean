import ReviewGate.Document.Order
import ReviewGate.Finding.Basic

/-!
# `ReviewGate.Finding.Synthesis` — findings merged, ranked and counted

Several reviewers may find the same thing. Of findings with one key the gravest is kept, the first
of them if several are equally grave, in the place of the first with the key.

## Contents
- `keepGraver`, `dedupe`: one finding per key.
- `Finding.precedes`, `rankFindings`: the gravest first, then by file and line.
- `countSeverity`, `summarize`: numbers of findings.
- `Analysis`, `synthesize`: the result.
-/

namespace ReviewGate

/-- The kept findings after one more: it takes the place of a less grave one with its key, or the
last place if none has its key. -/
def keepGraver (x : Finding) : List Finding → List Finding
  | [] => [x]
  | y :: rest =>
      if y.key = x.key then (if y.severity.rank < x.severity.rank then x else y) :: rest
      else y :: keepGraver x rest

/-- One finding per key. -/
def dedupe (findings : List Finding) : List Finding :=
  findings.foldl (fun kept x => keepGraver x kept) []

/-- Does `a` come before `b` or in the same place? -/
def Finding.precedes (a b : Finding) : Bool :=
  if a.severity ≠ b.severity then b.severity.rank < a.severity.rank
  else if a.file.orderKey ≠ b.file.orderKey then a.file.orderKey.le b.file.orderKey
  else a.line.orderKey.le b.line.orderKey

/-- The findings by severity, then file, then line; equals keep their order. -/
def rankFindings (findings : List Finding) : List Finding :=
  findings.mergeSort Finding.precedes

/-- The number of findings of a severity. -/
def countSeverity (findings : List Finding) (s : Severity) : Nat :=
  (findings.filter (·.severity == s)).length

/-- The summary of a review without findings. -/
def emptySummary : String := "No semantic issues found by the multi-agent review pipeline."

/-- One sentence with the numbers of findings. -/
def summarize (findings : List Finding) : String :=
  if findings.isEmpty then emptySummary
  else
    let count := countSeverity findings
    s!"Multi-agent review found {findings.length} issue(s): " ++
      s!"{count .critical} critical, " ++ s!"{count .warning} warning, " ++
      s!"{count .info} info."

/-- What the reviewers have found together. -/
structure Analysis where
  findings : List Finding
  summary : String
  passes : Int
  usage : TokenUsage
deriving Repr

/-- The findings of `passes` reviewers, merged and ranked. -/
def synthesize (findings : List Finding) (passes : Int) (usage : TokenUsage) : Analysis :=
  let ranked := rankFindings (dedupe findings)
  ⟨ranked, summarize ranked, passes, usage⟩

end ReviewGate
