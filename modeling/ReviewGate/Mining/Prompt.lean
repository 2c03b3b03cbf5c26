import ReviewGate.Document.Show
import ReviewGate.Fault
import ReviewGate.Model.Basic

/-!
# `ReviewGate.Mining.Prompt` — merged changes put to a model

## Contents
- `showPatch?`, `showRemark`: a file's patch and a review comment in the question.
- `miningQuestion`: the question for conventions.
-/

namespace ReviewGate.Mining

/-- The instructions that hold throughout. -/
def instructions : String :=
  "You extract implicit coding conventions from merged pull requests.\n" ++
    "Focus on semantic patterns, not style: error handling, logging and tracing, validation,\n" ++
    "authentication and authorization, function signature conventions, resource cleanup and\n" ++
    "response formats. Extracting nothing is better than extracting noise."

/-- The greatest number of conventions asked for. -/
def maxConventions : Nat := 3

/-- The patch of a file's record under its name; `none` if it has no patch. A record with a patch
must have a name. -/
def showPatch? (record : Document) : Except Fault (Option String) := do
  let patch ← record.field "patch"
  if !patch.truthy then return none
  match Document.lookup "filename" (← record.entries) with
  | none => throw .noEntry
  | some name =>
      return some ("### " ++ name.plain ++ "\n\x60\x60\x60\n" ++ patch.plain ++ "\n\x60\x60\x60")

/-- A review comment with its place. -/
def showRemark (comment : Document) : Except Fault String := do
  let path ← comment.field "path"
  let line := (← comment.field "line").orElse (.text "?")
  let body ← comment.fieldOr "body" (.text "")
  return s!"- **{path.plain}:{line.plain}**: {body.plain}"

/-- The form in which conventions are to be given. -/
def answerForm : String :=
  s!"Extract 0-{maxConventions} conventions you are highly confident about.\n\n" ++
    "### Output Format:\nRespond with **only** a valid JSON list:\n\n[\n  \x7b\n" ++
    "    \"id\": \"<unique kebab-case id>\",\n" ++
    "    \"description\": \"<what the convention is>\",\n" ++
    "    \"scope\": \"<glob of the files it applies to, e.g. src/services/**>\",\n" ++
    "    \"pattern\": \"<what to check for in code>\",\n" ++
    "    \"severity\": \"<critical|warning|info>\",\n" ++
    "    \"confidence\": <0.0-1.0>\n" ++
    "  \x7d\n]\n\nIf no clear conventions are found, return: []\n" ++
    "Do not return any text outside the JSON block."

/-- The question for conventions in a change with the given files and review comments. -/
def miningQuestion (files comments : List Document) : Except Fault Question := do
  let patches := (← files.mapM showPatch?).filterMap id
  let remarks ← comments.mapM showRemark
  let remarkText := if remarks.isEmpty then "No review comments." else "\n".intercalate remarks
  return ⟨instructions,
    "## PR Diff\n" ++ "\n\n".intercalate patches ++ "\n\n## Review Comments\n" ++ remarkText ++
      "\n\n" ++ answerForm⟩

end ReviewGate.Mining
