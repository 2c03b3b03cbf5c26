import ReviewGate.Command.Arguments
import ReviewGate.Workspace.Tree

/-!
# `ReviewGate.Command.Request` — what a command line asks for

A command line is read in two parts. The options before the command say where the configuration is;
only when it has been read is the rest of the line looked at.

## Contents
- `Opening`, `Opening.ofWords?`: the options before the command, and the command.
- `Request`: what is asked for.
- `Request.ofWords?`: the rest of a command line. Where help is asked for there is no request.
-/

namespace ReviewGate.Command

/-- An option with a value. -/
def valued (name : String) : Choice := ⟨name, none, true⟩

/-- An option without a value, with its letter. -/
def flag (name : String) (letter : Option Char) : Choice := ⟨name, letter, false⟩

/-- The option that asks for help. -/
def helpChoice : Choice := flag "--help" none

/-! ## Values -/

/-- The value, if it is one of the words. -/
def oneOf (words : List String) (value : String) : Except Misuse String :=
  if words.contains value then .ok value else .error .badValue

/-- The value as an integer. -/
def integerValue (value : String) : Except Misuse Int :=
  match Number.readInt value.toList with
  | some n => .ok n
  | none => .error .badValue

/-- The value of an option, if it is given and `read` takes it. -/
def readValue {α : Type} (given : List Given) (name : String)
    (read : String → Except Misuse α) : Except Misuse (Option α) :=
  (valueOf? given name).mapM read

/-- A value that must be given. -/
def required {α : Type} : Option α → Except Misuse α
  | some a => .ok a
  | none => .error .missingOption

/-- There may be no operands. -/
def noOperands : List String → Except Misuse Unit
  | [] => .ok ()
  | operands => .error (.extraOperands operands)

/-- The ways to enforce a policy. -/
def modes : List String := ["warn", "enforce"]

/-- The vendors of models. -/
def vendors : List String := ["anthropic", "openai"]

/-! ## Options before the command -/

/-- The commands. -/
inductive Verb
  | check
  | review
  | mine
  | policy
  | init
deriving DecidableEq, Repr

/-- The commands by their names. -/
def verbs : List (String × Verb) :=
  [("review", .review), ("check", .check), ("mine", .mine), ("policy", .policy), ("init", .init)]

/-- The options before the command, and the command with the words behind it. -/
structure Opening where
  /-- The path of the configuration file, if it is given. -/
  configuration : Option String
  verb : Verb
  words : List String
deriving DecidableEq, Repr

/-- The options before the command. -/
def openingChoices : List Choice :=
  [flag "--version" none, valued "--config", flag "--verbose" (some 'v'), helpChoice]

/-- Is something asked for that is no command? -/
def asksForText (given : List Given) : Bool := isGiven given "--help" || isGiven given "--version"

/-- The words before and including the command; `none` if no command is asked for. -/
def Opening.ofWords? (words : List String) : Except Misuse (Option Opening) := do
  if words.isEmpty then throw .nothingGiven
  let (given, rest) ← scan openingChoices false words
  if asksForText given then return none
  match rest with
  | [] => throw .missingCommand
  | name :: words =>
      match verbs.lookup name with
      | some verb => return some ⟨valueOf? given "--config", verb, words⟩
      | none => do
          -- a word that is no command may still ask for help
          let (given, _) ← scan openingChoices false rest
          if asksForText given then return none else throw .unknownCommand

/-! ## Requests -/

/-- What is asked for. -/
inductive Request
  /-- Check the diff in a file, or on the input for `-`, with the texts below `root`. -/
  | check (diff root : String) (mode : Option String)
  | review (repository : String) (number : Option Int) (mode vendor : Option String)
      (autoConfirm shadow : Bool)
  | mine (repository : String) (number : Int) (vendor model : Option String)
  | showPolicy (mode : Option String)
  | saveSnapshot
  | init (repository : Option String)
deriving DecidableEq, Repr

/-- Is there a directory at the path? The directories above the working directory count. -/
def isRoot (tree : Tree) (path : String) : Bool :=
  path != "" && ((Tree.namesOf path).all (· == ['.', '.']) || tree.isDirectory path)

/-- Can a diff be read from the operand? -/
def isDiff (tree : Tree) (operand : String) : Bool := operand == "-" || tree.isFile operand

/-- A value for which the condition holds. -/
def checkedValue (condition : String → Bool) (value : String) : Except Misuse String :=
  if condition value then .ok value else .error .badValue

/-- A check. -/
def checkOfWords? (tree : Tree) (words : List String) : Except Misuse (Option Request) := do
  let (given, operands) ← scan [valued "--root", valued "--mode", helpChoice] true words
  if isGiven given "--help" then return none
  let root ← readValue given "--root" (checkedValue (isRoot tree))
  let mode ← readValue given "--mode" (oneOf modes)
  match operands with
  | [] => return some (.check "-" (root.getD ".") mode)
  | diff :: rest => do
      let diff ← checkedValue (isDiff tree) diff
      if !rest.isEmpty then throw (.extraOperands rest)
      return some (.check diff (root.getD ".") mode)

/-- A review. -/
def reviewOfWords? (words : List String) : Except Misuse (Option Request) := do
  let choices := [valued "--repo", valued "--pr", valued "--mode", valued "--provider",
    flag "--yes" (some 'y'), flag "--shadow" (some 's'), helpChoice]
  let (given, operands) ← scan choices true words
  if isGiven given "--help" then return none
  let number ← readValue given "--pr" integerValue
  let mode ← readValue given "--mode" (oneOf modes)
  let vendor ← readValue given "--provider" (oneOf vendors)
  let repository ← required (valueOf? given "--repo")
  noOperands operands
  return some
    (.review repository number mode vendor (isGiven given "--yes") (isGiven given "--shadow"))

/-- Conventions to be mined. -/
def mineOfWords? (words : List String) : Except Misuse (Option Request) := do
  let choices :=
    [valued "--repo", valued "--pr", valued "--provider", valued "--model", helpChoice]
  let (given, operands) ← scan choices true words
  if isGiven given "--help" then return none
  let number ← readValue given "--pr" integerValue
  let vendor ← readValue given "--provider" (oneOf vendors)
  let repository ← required (valueOf? given "--repo")
  let number ← required number
  noOperands operands
  return some (.mine repository number vendor (valueOf? given "--model"))

/-- A policy to be shown. -/
def showOfWords? (words : List String) : Except Misuse (Option Request) := do
  let (given, operands) ← scan [valued "--mode", helpChoice] true words
  if isGiven given "--help" then return none
  let mode ← readValue given "--mode" (oneOf modes)
  noOperands operands
  return some (.showPolicy mode)

/-- A snapshot to be saved. -/
def snapshotOfWords? (words : List String) : Except Misuse (Option Request) := do
  let (given, operands) ← scan [helpChoice] true words
  if isGiven given "--help" then return none
  noOperands operands
  return some .saveSnapshot

/-- One of the requests about the policy. -/
def policyOfWords? (words : List String) : Except Misuse (Option Request) := do
  if words.isEmpty then throw .nothingGiven
  let (given, rest) ← scan [helpChoice] false words
  if isGiven given "--help" then return none
  match rest with
  | [] => throw .missingCommand
  | "show" :: words => showOfWords? words
  | "snapshot" :: words => snapshotOfWords? words
  | _ => do
      let (given, _) ← scan [helpChoice] false rest
      if isGiven given "--help" then return none else throw .unknownCommand

/-- A working directory to be set up. -/
def initOfWords? (words : List String) : Except Misuse (Option Request) := do
  let (given, operands) ← scan [valued "--repo", helpChoice] true words
  if isGiven given "--help" then return none
  noOperands operands
  return some (.init (valueOf? given "--repo"))

/-- What the words behind a command ask for. -/
def Request.ofWords? (tree : Tree) : Verb → List String → Except Misuse (Option Request)
  | .check, words => checkOfWords? tree words
  | .review, words => reviewOfWords? words
  | .mine, words => mineOfWords? words
  | .policy, words => policyOfWords? words
  | .init, words => initOfWords? words

end ReviewGate.Command
