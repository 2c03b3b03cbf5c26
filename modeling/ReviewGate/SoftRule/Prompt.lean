import ReviewGate.FileText
import ReviewGate.Model.Basic
import ReviewGate.Policy.Rule

/-!
# `ReviewGate.SoftRule.Prompt` — soft rules put to a model

## Contents
- `fenced`, `showFile`, `showFiles`, `showRule`: files and rules in the question.
- `ruleQuestion`: the question whether files break rules.
-/

namespace ReviewGate.SoftRule

/-- The instructions that hold throughout. -/
def instructions : String :=
  "You are a precise code reviewer checking pull request changes against team rules\n" ++
    "that linters cannot express. Only report violations you are confident about. Never speculate."

/-- A text in a code fence with a language. -/
def fenced (language text : String) : String :=
  "\x60\x60\x60" ++ language ++ "\n" ++ text ++ "\n\x60\x60\x60"

/-- A file with its path. -/
def showFile (f : FileText) : String := "### " ++ f.path ++ "\n" ++ fenced f.language f.text

/-- Files, one below the other. -/
def showFiles (files : List FileText) : String := "\n\n".intercalate (files.map showFile)

/-- A rule with what to check and where. -/
def showRule (r : Rule) : String :=
  s!"- **{r.id}** [{r.severity.name}]: {r.description}\n  Check: {r.pattern}\n" ++
    "  Applies to files matching: \x60" ++ r.scope ++ "\x60"

/-- The form in which findings are to be given. -/
def answerForm : String :=
  "### Output Format:\nRespond with **only** a valid JSON list:\n\n[\n  \x7b\n" ++
    "    \"rule_id\": \"<id of the violated rule>\",\n" ++
    "    \"severity\": \"<critical|warning|info>\",\n" ++
    "    \"file\": \"<path of the changed file>\",\n" ++
    "    \"line\": <line number in the new file (integer)>,\n" ++
    "    \"title\": \"<short description of the violation>\",\n" ++
    "    \"explanation\": \"<why this breaks the rule>\",\n" ++
    "    \"suggestion\": \"<how to fix it (optional)>\"\n" ++
    "  \x7d\n]\n\nOnly check a file against rules whose scope matches it.\n" ++
    "If there are no violations, return: []\nDo not return any text outside the JSON block."

/-- The text that asks whether files break rules; further files are shown for context only. -/
def askText (rules : List Rule) (files context : List FileText) : String :=
  "## Rules to Check\n" ++ "\n".intercalate (rules.map showRule) ++
    "\n\n## Changed Files\n" ++ showFiles files ++ "\n\n" ++
    (if context.isEmpty then ""
      else "## Imported Files (context only, do not review these)\n" ++ showFiles context ++ "\n\n") ++
    answerForm

/-- The question whether files break rules. -/
def ruleQuestion (rules : List Rule) (files context : List FileText) : Question :=
  ⟨instructions, askText rules files context⟩

end ReviewGate.SoftRule
