import ReviewGate.Command.Arguments
import ReviewGate.Session.Basic
import ReviewGate.Store.Basic

/-!
# `ReviewGate.Command.Task` — what commands are made of

## Contents
- `Site`: what a command finds around it and does not change.
- `Bench`: what a command changes.
- `inputLines`: the lines in which input is read.
- `Failure`: why a command ends early.
- `Task`: commands.
- `Task.ofRun`, `Task.say`: runs as parts of commands.
- `Task.save`: a change of the store.
- `prompt`, `confirm`: questions that are asked until the answer will do.
-/

namespace ReviewGate

/-- What a command finds around it and does not change. -/
structure Site where
  surroundings : Surroundings
  hub : Hub
  /-- All input, every kind of line end being a newline. -/
  input : String
  /-- The time of day, as documents hold it. -/
  stamp : String
  /-- The version of this program, if it is installed. -/
  version : Option String

/-- What a command changes. -/
structure Bench where
  desk : Desk
  shelf : Shelf

/-- The lines of an input, of which the last need not have an end. -/
def inputLines (input : String) : List String :=
  let ls := Text.lines input
  if ls.getLast? == some "" then ls.dropLast else ls

namespace Command

/-- Why a command ends early. -/
inductive Failure
  /-- The command line is not as it must be. -/
  | misuse (cause : Misuse)
  /-- The command cannot be used in this way, with what is said about it. -/
  | usage (message : String)
  /-- The configuration file is not in the configuration language. -/
  | badConfiguration
  /-- The request cannot be met, with what is said about it if it is known. -/
  | refused (message : Option String)
  /-- The input ended before a question was answered. -/
  | aborted
  | fault (cause : Fault)
deriving Repr

/-- A command that gives an `α` or ends early. -/
abbrev Task (α : Type) := ReaderT Site (ExceptT Failure (StateM Bench)) α

namespace Task

/-- A result that changes nothing, its faults being failures of the given form. -/
def ofResult {α : Type} (failure : Fault → Failure) (result : Except Fault α) : Task α :=
  match result with
  | .ok a => pure a
  | .error fault => throw (failure fault)

/-- A result whose faults are not explained any further. -/
def lift {α : Type} (result : Except Fault α) : Task α := ofResult .fault result

/-- What it means that a run has failed. -/
def failureOf : Fault → Failure
  | .inputEnded => .aborted
  | fault => .fault fault

/-- A run as a part of a command. -/
def ofRunWith {α : Type} (failure : Fault → Failure) (run : Run α) : Task α := do
  let bench ← get
  let (result, desk) := run.run bench.desk
  set { bench with desk }
  ofResult failure result

/-- A run as a part of a command. -/
def ofRun {α : Type} (run : Run α) : Task α := ofRunWith failureOf run

/-- Print a line. -/
def say (text : String) : Task Unit := ofRun (Run.say text)

/-- The tree of files. -/
def tree : Task Tree := return (← get).shelf.tree

/-- Change the tree of files. -/
def setTree (tree : Tree) : Task Unit :=
  modify fun b => { b with shelf := { b.shelf with tree } }

/-- The variables and tools around the command. -/
def surroundings : Task Surroundings := return (← read).surroundings

/-- Change what is stored. What a store prints about it is not part of the command's output. -/
def save (change : Shelf → Except Fault (Option String) × Shelf) : Task Unit := do
  let bench ← get
  let (result, shelf) := change bench.shelf
  set { bench with shelf }
  let _ ← lift result

/-- Is the command part of a workflow of the hub? -/
def inWorkflow : Task Bool := return (← surroundings).setting? "GITHUB_ACTIONS" == some "true"

end Task

/-! ## Questions -/

/-- Ask until `read` takes the answer, at most `fuel` times. The usual answer stands for an empty
one. -/
def promptFrom {α : Type} (question : String) (usual : Option String) (read : String → Option α) :
    Nat → Run α
  | 0 => throw .inputEnded
  | fuel + 1 => do
      let line ← Run.ask question
      match (if line == "" then usual else some line).bind read with
      | some a => return a
      | none => promptFrom question usual read fuel

/-- Ask until `read` takes the answer. -/
def prompt {α : Type} (question : String) (usual : Option String) (read : String → Option α) :
    Task α := do
  let fuel := (← get).desk.input.length + 1
  Task.ofRun (promptFrom question usual read fuel)

/-- Ask for one of some words. -/
def promptChoice (text : String) (words : List String) (usual : String) : Task String :=
  prompt (s!"{text} (" ++ ", ".intercalate words ++ s!") [{usual}]: ") (some usual) fun line =>
    if words.contains line then some line else none

/-- Ask for a text that is not empty. -/
def promptText (text : String) : Task String := prompt s!"{text}: " none some

/-- Ask for an integer. -/
def promptInt (text : String) : Task Int :=
  prompt s!"{text}: " none fun line => Number.readInt line.toList

/-- Yes or no; an empty answer is yes. -/
def yesOrNo (line : String) : Option Bool :=
  let word := Text.strip (Text.toLower line)
  if word == "" || word == "y" || word == "yes" then some true
  else if word == "n" || word == "no" then some false
  else none

/-- Ask whether to do something. -/
def confirm (text : String) : Task Bool := prompt s!"{text} [Y/n]: " (some "") yesOrNo

end Command

end ReviewGate
