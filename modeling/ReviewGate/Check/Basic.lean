import ReviewGate.Document.Basic
import ReviewGate.FileText
import ReviewGate.Finding.Basic
import ReviewGate.Regex.Match
import ReviewGate.Regex.Reader
import ReviewGate.Routing.Specialist
import ReviewGate.Text.Character

/-!
# `ReviewGate.Check` — built-in checks

A check says what it looks at, what it looks for and which files it concerns. Neighbouring checks
of added lines are evaluated together, line by line, so that their findings come in the order of
the lines.

## Contents
- `Pattern`, `Pattern.ofRegex`: properties of texts.
- `Trigger`: what a check looks at and what it looks for there.
- `Check`, `Check.finding`: a check and a finding of it.
- `importLines`: the lines of a text that import something.
- `Check.findings`: the findings of one check for one file.
- `lineFindings`, `fileFindings`, `runChecks`: those of several checks.
-/

namespace ReviewGate

open Diff

/-- A property of texts. -/
abbrev Pattern := String → Bool

namespace Pattern

/-- The texts in which the node occurs. -/
def ofNode (n : Regex.Node) : Pattern := fun s => Regex.occurs n s.toList

/-- The texts in which the regular expression occurs; none if it is invalid. -/
def ofRegex (pattern : String) (ignoreCase : Bool) : Pattern :=
  match Regex.compileWith { ignoreCase } pattern.toList with
  | .ok n => ofNode n
  | .error _ => fun _ => false

end Pattern

/-- What a check looks at and what it looks for there. -/
inductive Trigger
  /-- The file as such. -/
  | file
  /-- Every added line. -/
  | addedLine (pattern : Pattern)
  /-- The added lines as one text, unless the second pattern clears it. -/
  | addedText (pattern cleared : Pattern)
  /-- The whole text of the file, unless the second pattern clears it. -/
  | content (pattern cleared : Pattern)
  /-- Every line of the whole text that imports something. -/
  | importLine (pattern : Pattern)

/-- Does the trigger look at every added line? -/
def Trigger.isAddedLine : Trigger → Bool
  | .addedLine _ => true
  | _ => false

/-- A built-in check. -/
structure Check where
  ruleId : String
  severity : Severity
  title : String
  explanation : String
  suggestion : Option String
  trigger : Trigger
  guard : Routed → Bool

/-- A finding of a check that the named specialist runs. -/
def Check.finding (c : Check) (specialist path : String) (line : Nat) (evidence : Option String) :
    Finding where
  ruleId := .text c.ruleId
  severity := c.severity
  file := .text path
  line := .int line
  title := .text c.title
  explanation := .text c.explanation
  suggestion := .ofText? c.suggestion
  category := .text specialist
  agent := .text (specialist ++ "-agent")
  evidence := .ofText? evidence

/-! ## Import lines -/

/-- The pattern of a line that imports something. -/
def importNode : Except Regex.Fault Regex.Node :=
  Regex.compileWith { multiLine := true } "^\\s*import\\s+.*$".toList

/-- The lines of a text that import something, with blank lines in front of them. -/
def importLines (text : String) : List String :=
  match importNode with
  | .ok n => (Regex.findAll n text.toList).map fun m => String.ofList m.chars
  | .error _ => []

/-! ## Findings -/

/-- The findings of the checks of added lines, line by line. -/
def lineFindings (checks : List Check) (specialist : String) (f : ChangedFile) : List Finding :=
  f.addedLines.flatMap fun line =>
    checks.filterMap fun c =>
      match c.trigger with
      | .addedLine pattern =>
          if pattern line.text then
            some (c.finding specialist f.path line.number (some (Text.strip line.text)))
          else none
      | _ => none

/-- The findings of one check for a file with the given text. -/
def Check.findings (c : Check) (specialist : String) (f : ChangedFile) (content : String) :
    List Finding :=
  let at_ (line : Nat) : Finding := c.finding specialist f.path line none
  match c.trigger with
  | .file => [at_ 1]
  | .addedLine _ => lineFindings [c] specialist f
  | .addedText pattern cleared =>
      if pattern f.addedText && !cleared f.addedText then
        match f.addedLines.find? fun line => pattern line.text with
        | some line => [at_ line.number]
        | none => [at_ 1]
      else []
  | .content pattern cleared =>
      if pattern content && !cleared content then [at_ f.firstAdded] else []
  | .importLine pattern =>
      (importLines content).filterMap fun line =>
        if pattern line then some (c.finding specialist f.path 1 (some (Text.strip line)))
        else none

/-- The findings of neighbouring checks that all look at added lines, or all do not. -/
def groupFindings (specialist : String) (f : ChangedFile) (content : String)
    (group : List Check) : List Finding :=
  if group.all (·.trigger.isAddedLine) then lineFindings group specialist f
  else group.flatMap fun c => c.findings specialist f content

/-- The checks in groups of neighbours that all look at added lines, or all do not. -/
def groupChecks (checks : List Check) : List (List Check) :=
  checks.splitBy fun a b => a.trigger.isAddedLine == b.trigger.isAddedLine

/-- The findings of the checks that concern the file. -/
def fileFindings (specialist : String) (checks : List Check) (contents : Contents)
    (r : Routed) : List Finding :=
  (groupChecks (checks.filter (·.guard r))).flatMap
    (groupFindings specialist r.file (contents r.file.path))

/-- The findings of checks, file by file. -/
def runChecks (specialist : String) (checks : List Check) (routed : List Routed)
    (contents : Contents) : List Finding :=
  routed.flatMap (fileFindings specialist checks contents)

end ReviewGate
