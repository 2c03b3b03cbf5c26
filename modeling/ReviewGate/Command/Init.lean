import ReviewGate.Command.Starter
import ReviewGate.Command.Task
import ReviewGate.Yaml.Writer

/-!
# `ReviewGate.Command.Init` — a working directory set up

## Contents
- `Answers`, `askAnswers`: what the user chooses.
- `writeConfiguration`: the configuration file. What it holds already stays.
- `workflowPath`, `writeWorkflow`: a workflow that reviews every pull request.
- `init`: the command.
-/

namespace ReviewGate.Command

/-- What the user chooses. -/
structure Answers where
  vendor : String
  store : String
  mode : String
  gist : Option String
deriving DecidableEq, Repr

/-- What is said when the gist store is chosen. -/
def gistAdvice : String :=
  "[yellow]The gist store needs a token with gist scope. Set PATCHWARDEN_GITHUB_TOKEN to a " ++
    "personal access token; the Actions GITHUB_TOKEN cannot write gists.[/yellow]"

/-- Ask what the user chooses. -/
def askAnswers : Task Answers := do
  let vendor ← promptChoice "LLM provider for soft rules (none keeps reviews fully deterministic)"
    ["none", "anthropic", "openai"] "none"
  let store ← promptChoice "Where to keep learned rules and the policy snapshot"
    ["file", "gist", "noop"] "file"
  let mode ← promptChoice "Enforcement mode" ["warn", "enforce"] "warn"
  let gist ←
    if store == "gist" then do
      let id ← promptText "Gist id (create a secret gist first, e.g. with \x60gh gist create\x60)"
      Task.say gistAdvice
      pure (some id)
    else pure none
  return ⟨vendor, store, mode, gist⟩

/-- The entries that the answers give. -/
def Answers.entries (a : Answers) : List (Document × Document) :=
  [(.text "store", .text a.store)] ++
    (if a.vendor == "none" then [] else [(.text "provider", .text a.vendor)]) ++
    (a.gist.map fun id => (Document.text "gist_id", Document.text id)).toList ++
    starterPolicy a.mode

/-- The entries of the file at the path, if it is there and holds a mapping. -/
def existingEntries (tree : Tree) (path : String) :
    Except Fault (List (Document × Yaml.Value)) := do
  if !tree.occupies path then return []
  match ← Yaml.readValue? (← tree.readText path) with
  | some (.map _ entries) => return entries
  | _ => return []

/-- Write the configuration file. Of the entries that it holds already, none is changed. -/
def writeConfiguration (path : String) (a : Answers) : Task Unit := do
  let tree ← Task.tree
  let existing ← Task.lift (existingEntries tree path)
  let entries := Yaml.Value.putAll (Yaml.Value.ofEntries a.entries) existing
  let text ← Task.lift (Yaml.written (.map none entries))
  Task.setTree (← Task.lift (tree.write path (Text.Utf8.encode text)))

/-- The directory of workflows. -/
def workflowDirectory : String := ".github/workflows"

/-- The path of the workflow. -/
def workflowPath : String := workflowDirectory ++ "/patchwarden.yml"

/-- Write a workflow that reviews every pull request. -/
def writeWorkflow (a : Answers) : Task Unit := do
  let tree ← Task.lift ((← Task.tree).makeDirectories workflowDirectory)
  Task.setTree tree
  let text := workflowText a.vendor a.mode (← read).version
  Task.setTree (← Task.lift (tree.write workflowPath (Text.Utf8.encode text)))

/-- The repository: the one given, the one that the working directory is a clone of, or the one
that the user names. -/
def askRepository (given : Option String) : Task String := do
  match given with
  | some repository => return repository
  | none =>
      match (← Task.surroundings).detectRepository? with
      | some repository => do
          Task.say s!"[dim]Detected repository: {repository}[/dim]"
          return repository
      | none => promptText "GitHub repository (owner/name)"

/-- Set up the working directory. -/
def init (path : String) (repository : Option String) : Task Unit := do
  let shown := Tree.tidy (if path == "" then configurationPath else path)
  Task.say "\n[bold cyan]patchwarden init[/bold cyan]\n"
  let repository ← askRepository repository
  let a ← askAnswers
  writeConfiguration shown a
  Task.say s!"[green]Wrote {shown}[/green]"
  if ← confirm s!"\nGenerate {workflowPath}?" then
    writeWorkflow a
    Task.say s!"[green]Wrote {workflowPath}[/green]"
    match keyVariable? a.vendor with
    | some name => Task.say s!"[yellow]Add {name} to the repository secrets.[/yellow]"
    | none => pure ()
  Task.say "\nTry it locally: [bold]git diff main...HEAD | patchwarden check[/bold]"
  Task.say <|
    s!"Or on a PR:     [bold]patchwarden review --repo {repository} --pr <number> --shadow[/bold]"

end ReviewGate.Command
