import ReviewGate.Document.Basic

/-!
# `ReviewGate.Command.Starter` — what a new working directory starts with

## Contents
- `starterPolicy`: rules to start with.
- `Installation`: what a workflow installs.
- `workflowText`: a workflow that reviews every pull request.
-/

namespace ReviewGate.Command

/-- A soft rule to start with. -/
def starterSoftRule : Document :=
  .ofFields [("id", .text "handlers-validate-input"),
    ("description", .text "HTTP handlers validate request input before calling services."),
    ("scope", .text "**/handler/**"),
    ("pattern", .text "Validate input at the handler boundary"), ("severity", .text "warning")]

/-- A hard rule to start with. -/
def starterHardRule : Document :=
  .ofFields [("id", .text "no-debug-print"),
    ("description", .text "No debug printing in committed code."), ("scope", .text "**/*.py"),
    ("pattern", .text "^\\s*print\\("), ("severity", .text "warning"),
    ("category", .text "logging-error"), ("message", .text "Use logging instead of print.")]

/-- Rules to start with, enforced in the given mode. -/
def starterPolicy (mode : String) : List (Document × Document) :=
  [(.text "soft_rules", .list [starterSoftRule]), (.text "hard_rules", .list [starterHardRule]),
   (.text "ignore", .list []), (.text "allowlist", .list []),
   (.text "enforcement", .ofFields [("mode", .text mode),
     ("block_on", .list [.text "critical"]), ("max_comments", .int 3)])]

/-! ## Workflows -/

/-- The variable of the environment that holds the key of a vendor. -/
def keyVariable? (vendor : String) : Option String :=
  if vendor == "anthropic" then some "ANTHROPIC_API_KEY"
  else if vendor == "openai" then some "OPENAI_API_KEY"
  else none

/-- What a workflow installs: the program with what a vendor needs, in the version in use. -/
def requirement (vendor : String) (version : Option String) : String :=
  let name := if (keyVariable? vendor).isSome then s!"patchwarden[{vendor}]" else "patchwarden"
  match version with
  | some v => if v == "" then name else s!"{name}=={v}"
  | none => name

/-- The value of an expression of the workflow language. -/
def expression (name : String) : String := "$\x7b\x7b " ++ name ++ " \x7d\x7d"

/-- The lines of a workflow that reviews every pull request. -/
def workflowLines (requirement mode : String) (names : List String) : List String :=
  ["name: patchwarden", "", "on:", "  pull_request:",
   "    types: [opened, synchronize, reopened, ready_for_review]", "", "jobs:", "  review:",
   "    runs-on: ubuntu-latest", "    permissions:", "      contents: read",
   "      pull-requests: write", "", "    steps:", "      - uses: actions/checkout@v4", "",
   "      - uses: actions/setup-python@v5", "        with:", "          python-version: \"3.12\"",
   "", "      - name: Install patchwarden", s!"        run: pip install \"{requirement}\"", "",
   "      - name: Review pull request", "        id: patchwarden", "        env:"] ++
  names.map (fun v => s!"          {v}: " ++ expression ("secrets." ++ v)) ++
  ["        run: |", "          patchwarden review \\",
   "            --repo " ++ expression "github.repository" ++ " \\",
   "            --pr " ++ expression "github.event.pull_request.number" ++ " \\",
   s!"            --mode {mode} \\", "            --yes"]

/-- A workflow that reviews every pull request, with the keys that a vendor needs. -/
def workflowText (vendor mode : String) (version : Option String) : String :=
  let lines := workflowLines (requirement vendor version) mode
    ("GITHUB_TOKEN" :: (keyVariable? vendor).toList)
  String.join (lines.map (· ++ "\n"))

end ReviewGate.Command
