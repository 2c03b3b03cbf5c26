import ReviewGate.Fault
import ReviewGate.Finding.Synthesis

/-!
# `ReviewGate.Finding.Draft` — findings handed in from outside

Findings that other tools hand in have not been checked: their severity may be unknown, their
fields may be of kinds that cannot be merged or ranked. They are adopted all together or not at
all, and the first obstacle to merging and ranking them is the fault.

## Contents
- `Draft`, `Draft.ofDocument`: a finding whose severity is not known to be one.
- `mergeFault?`, `rankFault?`: obstacles to merging and ranking.
- `adopt`: the findings of drafts.
-/

namespace ReviewGate

/-- A finding with whatever its source gave as the severity. -/
structure Draft where
  severity : Document
  /-- The other fields; the severity in it does not count. -/
  body : Finding
deriving Repr

namespace Draft

/-- The draft of a finding. -/
def ofFinding (f : Finding) : Draft := ⟨.text f.severity.name, f⟩

/-- The fields that a draft must have. -/
def requiredFields : List String :=
  ["rule_id", "severity", "file", "line", "title", "explanation"]

/-- The fields that a draft may have. -/
def optionalFields : List String := ["suggestion", "category", "agent", "evidence"]

/-- The draft of a document: a mapping with all required fields and no unknown one. -/
def ofDocument (d : Document) : Except Fault Draft :=
  match d with
  | .map entries =>
      let get (name : String) : Document := (Document.lookup name entries).getD .null
      let known := entries.all fun (k, _) => (requiredFields ++ optionalFields).any k.isText
      let complete := requiredFields.all fun name => (Document.lookup name entries).isSome
      if known && complete then
        .ok ⟨get "severity", {
          ruleId := get "rule_id"
          severity := default
          file := get "file"
          line := get "line"
          title := get "title"
          explanation := get "explanation"
          suggestion := get "suggestion"
          category := get "category"
          agent := get "agent"
          evidence := get "evidence" }⟩
      else .error .wrongKind
  | _ => .error .wrongKind

/-- The severity of a draft. -/
def severity? (d : Draft) : Except Fault Severity :=
  match d.severity.key? with
  | none => .error .wrongKind
  | some (.text s) =>
      match Severity.ofName? s with
      | some found => .ok found
      | none => .error .noEntry
  | some _ => .error .noEntry

/-- The finding of a draft. -/
def toFinding (d : Draft) : Except Fault Finding := do
  return { d.body with severity := ← d.severity? }

/-- Is some field of the key of a kind that can be no key? -/
def lacksKey (d : Draft) : Bool := d.body.key.any Option.isNone

end Draft

/-- The first obstacle to merging the drafts behind those already kept: a field that can be no
key, or two drafts with one key whose severities cannot be compared. -/
def checkMerge (kept : List Draft) : List Draft → Except Fault Unit
  | [] => .ok ()
  | d :: rest =>
      if d.lacksKey then .error .wrongKind
      else
        match kept.find? fun e => e.body.key = d.body.key with
        | none => checkMerge (kept ++ [d]) rest
        | some e => do
            let _ ← d.severity?
            let _ ← e.severity?
            checkMerge kept rest

/-- Can the findings be compared when they are ranked? -/
def Finding.comparable (a b : Finding) : Bool :=
  a.severity != b.severity ||
    (a.file.comparable b.file && (a.file.key? != b.file.key? || a.line.comparable b.line))

/-- An obstacle to ranking the findings: two that cannot be compared. -/
def checkRank : List Finding → Except Fault Unit
  | [] => .ok ()
  | f :: rest => if rest.all f.comparable then checkRank rest else .error .wrongKind

/-- The findings of the drafts, which are to be merged with findings already there. -/
def adopt (found : List Finding) (drafts : List Draft) : Except Fault (List Finding) := do
  checkMerge [] (found.map Draft.ofFinding ++ drafts)
  let extra ← drafts.mapM Draft.toFinding
  checkRank (dedupe (found ++ extra))
  return extra

end ReviewGate
