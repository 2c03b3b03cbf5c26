import ReviewGate.Review.Basic

/-!
# `ReviewGate.Review.Shadow` — a review on the terminal

## Contents
- `Printed`: something printed.
- `shadowLines`: the findings as printed lines.
-/

namespace ReviewGate

open Diff

/-- Something printed on the terminal. -/
inductive Printed
  | line (text : String)
  | table (title : String) (columns : List String) (rows : List (List Document))
  | question (text : String)
deriving Repr

/-- The code of the line that a finding is on, without the blanks around it. -/
def Finding.code (files : List ChangedFile) (f : Finding) : String :=
  match files.reverse.find? fun file => f.file.isText file.path with
  | none => ""
  | some file =>
      match f.line.lineNumber? with
      | some n => Text.strip (file.lineText n)
      | none => ""

/-- The printed lines of a finding. -/
def Finding.shadowLines (files : List ChangedFile) (f : Finding) : List String :=
  let code := f.code files
  [s!"[bold cyan]{f.file.plain}[/bold cyan]  line [bold]{f.line.plain}[/bold]  " ++
      s!"[{f.severity.color}]{f.severity.label}[/{f.severity.color}]  [dim]{f.ruleId.plain}[/dim]"] ++
    (if code == "" then [] else [s!"  [dim]{code}[/dim]"]) ++
    [s!"  {f.title.plain}", s!"  {f.explanation.plain}", ""]

/-- The printed lines of a review. -/
def shadowLines (a : Analysis) (event : ReviewEvent) (files : List ChangedFile) : List String :=
  if a.findings.isEmpty then ["[green]Shadow mode: no findings.[/green]"]
  else
    [s!"\n[bold]Shadow review: {a.findings.length} finding(s), event {event.name}[/bold]\n"] ++
      a.findings.flatMap (Finding.shadowLines files) ++ [s!"[bold]{a.summary}[/bold]"]

end ReviewGate
