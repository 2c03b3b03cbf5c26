import ReviewGate.Command.Review
import ReviewGate.Session.Mine

/-!
# `ReviewGate.Command.Mine` — conventions mined from the command line

## Contents
- `learnedLine`: a learned rule on the terminal.
- `requireVendorKey`: a vendor must be configured, and its key be there.
- `mine`: the command.
-/

namespace ReviewGate.Command

/-- A learned rule on the terminal, its confidence with two places. -/
def learnedLine (r : LearnedRule) : String :=
  s!"  [bold]{r.id}[/bold] ({r.severity.name}, {r.confidence.renderPlaces 2}) {r.description}"

/-- What is said when no vendor is configured. -/
def noVendor : String := "Convention mining needs an LLM provider. Pass --provider or set provider."

/-- A vendor must be configured, and its key be there. -/
def requireVendorKey (config : Document) : Task Unit := do
  let vendor ← Task.lift (config.field "provider")
  if !vendor.truthy then throw (.usage noVendor)
  let key := (← Task.lift vendor.spell) ++ "_api_key"
  if !(← Task.lift (config.field key)).truthy then
    throw (.usage (unsetVariable (Text.toUpper key)))

/-- Learn from a merged pull request. The new rules are stored behind those that are there. -/
def mine (config : Document) (store : Store) (repository : String) (number : Int)
    (vendor model : Option String) : Task Unit := do
  let config := withVendor config vendor
  requireVendorKey config
  let token ← requireToken config
  let stored ← Task.lift (store.learnedRules (← get).shelf)
  let known := (← Task.lift (parseLearned stored)).map (·.id)
  Task.ofRun (Run.request [.openRepository repository token])
  let learned ← Task.ofRunWith refusalOf
    (minePull (← read).hub repository number config known (.ofText? model))
  if learned.isEmpty then
    Task.say "[dim]No new conventions found.[/dim]"
  else
    let workflow ← Task.inWorkflow
    let stamp := (← read).stamp
    let rules := Document.list (stored ++ learned.map LearnedRule.toDocument)
    Task.save fun shelf => store.saveLearned workflow stamp shelf rules
    Task.say s!"[green]Learned {learned.length} new convention(s) from PR #{number}:[/green]"
    learned.forM fun r => Task.say (learnedLine r)

end ReviewGate.Command
