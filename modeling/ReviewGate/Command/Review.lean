import ReviewGate.Command.Policy
import ReviewGate.Session.Review

/-!
# `ReviewGate.Command.Review` — a pull request reviewed from the command line

## Contents
- `withVendor`: the configuration with the vendor of the command line.
- `requireToken`: the token for the hub.
- `refusalOf`: what it means that a run about a pull request has failed.
- `choosePull`: the number of a pull request that the user names.
- `appendOutputs`: the outputs of a run, for the steps of a workflow behind it.
- `review`: the command.
-/

namespace ReviewGate.Command

/-- The configuration with the vendor of the command line. -/
def withVendor (config : Document) (vendor : Option String) : Document :=
  match vendor, config with
  | some v, .map entries => .map (Document.put (.text "provider") (.text v) entries)
  | _, config => config

/-- What is said when there is no token for the hub. -/
def noToken : String :=
  "No GitHub token found. Set GITHUB_TOKEN or run \x60gh auth login\x60 first.\n" ++
    "Create a token at https://github.com/settings/tokens"

/-- What is said when a variable of the environment is needed. -/
def unsetVariable (name : String) : String := s!"{name} environment variable is not set."

/-- The token for the hub, which must be there. -/
def requireToken (config : Document) : Task Document := do
  let token ← Task.lift (config.field "github_token")
  if token.truthy then return token else throw (.usage noToken)

/-- What it means that a run about a pull request has failed. A request that cannot be met and a
number that cannot be read are refusals. -/
def refusalOf : Fault → Failure
  | .setup cause => .refused (some cause.message)
  | .badNumber => .refused none
  | fault => Task.failureOf fault

/-- The key of a vendor must be there if the vendor is configured. -/
def requireKey (config : Document) (vendor key variableName : String) : Task Unit := do
  let isChosen := (← Task.lift (config.field "provider")).isText vendor
  if isChosen && !(← Task.lift (config.field key)).truthy then
    throw (.usage (unsetVariable variableName))

/-- The number of a pull request that the user names; `none` if there are none. -/
def choosePull : Task (Option Int) := do
  Task.ofRun (Run.request [.listPulls])
  let pulls := (← read).hub.pulls
  if pulls.isEmpty then
    Task.say "[yellow]No open pull requests found.[/yellow]"
    return none
  Task.say "\nOpen pull requests:"
  pulls.forM fun (number, pull) => Task.say s!"  [bold]#{number}[/bold]  {pull.title}"
  return some (← promptInt "\nEnter the pull request number")

/-- Append the outputs of a run to the file that a workflow names. -/
def appendOutputs (outputs : List (String × String)) : Task Unit := do
  match (← Task.surroundings).nonempty? "GITHUB_OUTPUT" with
  | none => pure ()
  | some path => do
      let lines := outputs.map fun (key, value) => s!"{key}={value}\n"
      let tree ← Task.tree
      Task.setTree (← Task.lift (tree.append path (Text.Utf8.encode (String.join lines))))

/-- Review the pull request with the given number, or the one that the user names. -/
def review (config : Document) (store : Store) (repository : String) (number : Option Int)
    (mode vendor : Option String) (options : ReviewOptions) : Task Unit := do
  let config := withVendor config vendor
  let token ← requireToken config
  requireKey config "anthropic" "anthropic_api_key" "ANTHROPIC_API_KEY"
  requireKey config "openai" "openai_api_key" "OPENAI_API_KEY"
  let p ← Task.policy config store mode
  Task.ofRun (Run.request [.openRepository repository token])
  let number ← match number with
    | some n => pure (some n)
    | none => choosePull
  match number with
  | none => pure ()
  | some n => do
      let summary ←
        Task.ofRunWith refusalOf (reviewPull (← read).hub repository n config p options)
      match summary with
      | some s => appendOutputs s.outputs
      | none => pure ()

end ReviewGate.Command
