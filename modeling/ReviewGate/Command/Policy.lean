import ReviewGate.Command.Task
import ReviewGate.Policy.Merge

/-!
# `ReviewGate.Command.Policy` — the policy of a run, shown and saved

## Contents
- `Task.policy`: the policy of the configuration and of what is stored.
- `softTable`, `hardTable`, `allowTable`, `enforcementLine`: the policy as it is shown.
- `showPolicy`, `saveSnapshot`: the commands.
-/

namespace ReviewGate.Command

/-- What it means that a policy cannot be loaded. -/
def policyFailure : Fault → Failure
  | .policy cause => .usage s!"Invalid policy configuration: {cause.message}"
  | fault => .fault fault

/-- The policy of the configuration and of what is stored. -/
def Task.policy (config : Document) (store : Store) (mode : Option String) : Task Policy := do
  let shelf := (← get).shelf
  let learned ← Task.lift (store.learnedRules shelf)
  let snapshot ← Task.lift (store.snapshot? shelf)
  Task.ofResult policyFailure (loadPolicy config learned (snapshot.getD .null) mode)

/-! ## Tables -/

/-- The table of soft rules. -/
def softTable (rules : List Rule) : Printed :=
  .table s!"Soft rules ({rules.length})" ["ID", "Source", "Severity", "Scope", "Description"]
    (rules.map fun r =>
      [.text r.id, .text r.source.name, .text r.severity.name, .text r.scope, .text r.description])

/-- The table of hard rules. -/
def hardTable (rules : List HardRule) : Printed :=
  .table s!"Hard rules ({rules.length})"
    ["ID", "Source", "Severity", "Category", "Scope", "Pattern"]
    (rules.map fun r =>
      [.text r.id, .text r.source.name, .text r.severity.name, .text r.category.name, .text r.scope,
        .text r.pattern])

/-- The text of an item of a list of texts. -/
def listedText : Document → Except Fault String
  | .text s => .ok s
  | _ => .error .wrongKind

/-- The row of an entry of the allowlist; a reason that is no text cannot be shown. -/
def allowRow (e : AllowlistEntry) : Except Fault (List Document) := do
  let rules := ", ".intercalate (← (e.ruleIds.getD []).mapM listedText)
  match e.reason.orElse (.text "") with
  | .text reason => return [.text e.path, .text (if rules == "" then "*" else rules), .text reason]
  | _ => throw .unprintable

/-- The table of the allowlist. -/
def allowTable (entries : List AllowlistEntry) : Except Fault Printed := do
  return .table "Allowlist" ["Path", "Rules", "Reason"] (← entries.mapM allowRow)

/-- How the policy is enforced. -/
def enforcementLine (e : Enforcement) : Except Fault String := do
  let severities := ", ".intercalate (e.blockOn.map (·.name))
  let limit ← (Document.int e.maxComments).spell
  return s!"Enforcement: [bold]{e.mode}[/bold], blocks on " ++
    (if severities == "" then "nothing" else severities) ++
    s!", at most {limit} inline comment(s)"

/-! ## Commands -/

/-- Show the policy. -/
def showPolicy (config : Document) (store : Store) (mode : Option String) : Task Unit := do
  let p ← Task.policy config store mode
  Task.ofRun (Run.print (softTable p.softRules))
  Task.ofRun (Run.print (hardTable p.hardRules))
  if !p.allowlist.isEmpty then
    let table ← Task.lift (allowTable p.allowlist)
    Task.ofRun (Run.print table)
  let line ← Task.lift (enforcementLine p.enforcement)
  Task.say line
  if !p.ignore.isEmpty then Task.say ("Ignored paths: " ++ ", ".intercalate p.ignore)

/-- Save the policy as the new snapshot. -/
def saveSnapshot (config : Document) (store : Store) : Task Unit := do
  let p ← Task.policy config store none
  let workflow ← Task.inWorkflow
  let d := p.snapshot (← read).stamp
  Task.save fun shelf => store.saveSnapshot workflow shelf d
  Task.say <|
    s!"[green]Saved policy snapshot: {p.softRules.length} soft rule(s), " ++
      s!"{p.hardRules.length} hard rule(s).[/green]"

end ReviewGate.Command
