import ReviewGate.Command.Check
import ReviewGate.Command.Init
import ReviewGate.Command.Mine
import ReviewGate.Command.Request

/-!
# `ReviewGate.Command.Execute` — a command line carried out

## Contents
- `configurationFailure`: what it means that the configuration cannot be read.
- `configure`: the configuration and the store.
- `perform`: a request carried out.
- `commandTask`, `execute`: a command line carried out.
-/

namespace ReviewGate.Command

/-- A result whose only fault is a misuse of the command line. -/
def ofMisuse {α : Type} (result : Except Misuse α) : Task α :=
  match result with
  | .ok a => pure a
  | .error cause => throw (.misuse cause)

/-- What it means that the configuration cannot be read. -/
def configurationFailure : Fault → Failure
  | .setup cause => .usage cause.message
  | .undecodable defect => .usage defect.message
  | .badScalar cause => .usage cause.message
  | .badYaml => .badConfiguration
  | fault => .fault fault

/-- The configuration with the token that is found, if any. -/
def withToken (config : Document) (token : Option String) : Document :=
  match token, config with
  | some t, .map entries => .map (Document.put (.text "github_token") (.text t) entries)
  | _, config => config

/-- The configuration and the store. -/
def configure (path : String) : Task (Document × Store) := do
  let s ← Task.surroundings
  let config ← Task.ofResult configurationFailure (loadConfiguration (← Task.tree) s path [])
  let config := withToken config s.accessToken?
  let (store, warning) ← Task.lift (chooseStore config)
  match warning with
  | some text => Task.say text
  | none => pure ()
  return (config, store)

/-- Carry out a request; the answer is the exit status. -/
def perform (path : String) (config : Document) (store : Store) : Request → Task Nat
  | .check diff root mode => do
      return if ← check config store diff root mode then 1 else 0
  | .review repository number mode vendor autoConfirm shadow => do
      review config store repository number mode vendor ⟨autoConfirm, shadow⟩
      return 0
  | .mine repository number vendor model => do
      mine config store repository number vendor model
      return 0
  | .showPolicy mode => do
      showPolicy config store mode
      return 0
  | .saveSnapshot => do
      saveSnapshot config store
      return 0
  | .init repository => do
      init path repository
      return 0

/-- The path of the configuration file: the one given, that of the environment, or the usual one. -/
def configurationPathOf (s : Surroundings) (o : Opening) : String :=
  o.configuration.getD ((s.nonempty? "PATCHWARDEN_CONFIG").getD configurationPath)

/-- Carry out a command line; the answer is the exit status. -/
def commandTask (words : List String) : Task Nat := do
  match ← ofMisuse (Opening.ofWords? words) with
  | none => return 0
  | some opening => do
      let path := configurationPathOf (← Task.surroundings) opening
      let (config, store) ← configure path
      match ← ofMisuse (Request.ofWords? (← Task.tree) opening.verb opening.words) with
      | none => return 0
      | some request => perform path config store request

/-- Carry out a command line on what stands in the directory and the gist: the exit status or the
failure, and what has become of the bench. -/
def execute (site : Site) (shelf : Shelf) (replies : List Reply) (words : List String) :
    Except Failure Nat × Bench :=
  ((commandTask words).run site).run ⟨.start replies (inputLines site.input), shelf⟩

end ReviewGate.Command
