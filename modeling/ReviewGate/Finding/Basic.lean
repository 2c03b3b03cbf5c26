import ReviewGate.Document.Basic
import ReviewGate.Severity

/-!
# `ReviewGate.Finding` — findings of a review

## Contents
- `Finding`: something that a reviewer has found. Apart from the severity, its fields are kept as
  its source gave them.
- `Finding.key`: what makes two findings the same one.
- `Finding.toDocument`: the document of a finding.
- `TokenUsage`: what the questions to a model have cost.
-/

namespace ReviewGate

/-- Something found in a change. -/
structure Finding where
  ruleId : Document
  severity : Severity
  file : Document
  line : Document
  title : Document
  explanation : Document
  suggestion : Document
  category : Document
  agent : Document
  evidence : Document
deriving Repr

namespace Finding

/-- Findings with one key are the same finding: one rule, file, line and title. A field that can
be no key counts as absent. -/
def key (f : Finding) : List (Option Document.Key) :=
  [f.ruleId.key?, f.file.key?, f.line.key?, f.title.key?]

/-- The document of a finding. -/
def toDocument (f : Finding) : Document :=
  .ofFields [("rule_id", f.ruleId), ("severity", .text f.severity.name), ("file", f.file),
    ("line", f.line), ("title", f.title), ("explanation", f.explanation),
    ("suggestion", f.suggestion), ("category", f.category), ("agent", f.agent),
    ("evidence", f.evidence)]

end Finding

/-- The numbers of tokens read and written by a model. -/
structure TokenUsage where
  input : Int
  output : Int
deriving DecidableEq, Repr

namespace TokenUsage

/-- No tokens. -/
def none : TokenUsage := ⟨0, 0⟩

/-- All tokens. -/
def total (u : TokenUsage) : Int := u.input + u.output

instance : Add TokenUsage := ⟨fun u v => ⟨u.input + v.input, u.output + v.output⟩⟩

/-- The document of a usage. -/
def toDocument (u : TokenUsage) : Document :=
  .ofFields [("input_tokens", .int u.input), ("output_tokens", .int u.output)]

end TokenUsage

end ReviewGate
