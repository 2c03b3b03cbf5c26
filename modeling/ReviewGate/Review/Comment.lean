import ReviewGate.Diff.Position
import ReviewGate.Document.Spelling
import ReviewGate.Finding.Synthesis

/-!
# `ReviewGate.Review.Comment` — the texts of a review

The lines of the text are put together first, and only then it turns out whether all of them are
texts: a line number that cannot be written is found before an explanation that is no text, wherever
the two stand.

## Contents
- `signature`: the mark by which reviews are recognised.
- `Finding.comment`, `InlineComment`, `inlineComments`: comments on lines of the patch.
- `Finding.details`, `countTable`, `bodyLines`: the lines of the text.
- `asText`, `reviewBody`: the text of the review.
-/

namespace ReviewGate

open Diff

/-- The mark by which a review is recognised. -/
def signature : String := "<!-- patchwarden-review -->"

/-! ## Inline comments -/

/-- The text of a comment on a finding. -/
def Finding.comment (f : Finding) : String :=
  s!"**[{f.severity.label}]** **{f.title.plain}**\n\n{f.explanation.plain}" ++
    (if f.suggestion.truthy then s!"\n\n**Suggestion:** {f.suggestion.plain}" else "") ++
    "\n\n<sub>Rule: \x60" ++ f.ruleId.plain ++ "\x60</sub>"

/-- A comment on a position of a file's patch. -/
structure InlineComment where
  path : Document
  position : Nat
  body : String
deriving Repr

/-- The comment on a finding, if its line has a position. -/
def Finding.inline? (files : List ChangedFile) (f : Finding) : Option InlineComment :=
  (lineToPosition files f.file f.line).map fun position => ⟨f.file, position, f.comment⟩

/-- The comments on the first `limit` findings whose lines have a position. -/
def inlineComments (files : List ChangedFile) (limit : Int) (findings : List Finding) :
    List InlineComment :=
  (findings.filterMap (Finding.inline? files)).take limit.toNat

/-! ## The body -/

/-- The lines that tell of a finding. The number of its line must be one that can be written. -/
def Finding.details (f : Finding) : Except Fault (List Document) := do
  let line ← f.line.spell
  return [.text s!"#### **[{f.severity.label}]** {f.title.plain}",
      .text ("\x60" ++ s!"{f.file.plain}:{line}" ++ "\x60 · Rule: \x60" ++ f.ruleId.plain ++
        "\x60\n"),
      f.explanation] ++
    (if f.suggestion.truthy then [.text s!"\n> **Suggestion:** {f.suggestion.plain}"] else []) ++
    [.text ""]

/-- The rows of the table of severities; those without findings are left out. -/
def countTable (findings : List Finding) : List String :=
  (Severity.all.filter fun s => countSeverity findings s != 0).map fun s =>
    s!"| {s.title} | {countSeverity findings s} |"

/-- The last line: how many specialists ran and what it cost. -/
def costLine (a : Analysis) : String :=
  s!"<sub>{a.passes} specialist pass(es) · " ++
    s!"tokens: {a.usage.input} in / {a.usage.output} out</sub>"

/-- The lines between the summary and the cost. -/
def bodyLines (findings : List Finding) : Except Fault (List Document) := do
  if findings.isEmpty then
    return [.text "No issues found. The changes look consistent with the repository policy.\n"]
  else
    let table := ["| Severity | Count |", "|----------|:-----:|"] ++ countTable findings
    let details ← findings.mapM Finding.details
    return (table ++ ["\n### Details\n"]).map Document.text ++ details.flatten

/-- A line as a text, which it must be. -/
def asText : Document → Except Fault String
  | .text s => .ok s
  | _ => .error .wrongKind

/-- The text of a review. -/
def reviewBody (a : Analysis) : Except Fault String := do
  let heading := [signature, "## Review summary\n", s!"> {a.summary}\n"]
  let lines ← bodyLines a.findings
  return Text.joinLines (← (heading.map Document.text ++ lines ++ [Document.text (costLine a)]).mapM asText)

end ReviewGate
