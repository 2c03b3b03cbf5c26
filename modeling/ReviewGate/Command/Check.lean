import ReviewGate.Command.Policy
import ReviewGate.Context.Gather
import ReviewGate.Diff.GitDiff
import ReviewGate.Review.Pipeline
import ReviewGate.Session.Review

/-!
# `ReviewGate.Command.Check` — a diff checked without a hub

## Contents
- `diffText`: the diff of an operand.
- `check`: the command.
-/

namespace ReviewGate.Command

/-- The diff in the file, or on the input. -/
def diffText (operand : String) : Task String := do
  if operand == "-" then return (← read).input
  else
    let tree ← Task.tree
    Task.lift (tree.readText operand)

/-- Check a diff with the texts below `root`; the answer says whether changes are requested. -/
def check (config : Document) (store : Store) (diff root : String) (mode : Option String) :
    Task Bool := do
  let p ← Task.policy config store mode
  let records := Diff.splitGitDiff (← diffText diff)
  let files ← Task.lift (Diff.parseFiles (p.ignore.map .text) records)
  if files.isEmpty then
    Task.say "[yellow]No reviewable files in the diff.[/yellow]"
    return false
  let g := Context.gatherLocal (← Task.tree) root p.settings.contextBudget files
  let outcome ← Task.lift (reviewChanges p files (.ofList g.changed) [] .none)
  Task.ofRun (showReview outcome)
  Task.say s!"Review event: [bold]{outcome.review.event.name}[/bold]"
  return outcome.review.event == .requestChanges

end ReviewGate.Command
