import ReviewGate.Command.Task

/-!
# `ReviewGate.Command.Report` — why a command ended early, as the user is told

## Contents
- `Misuse.message`, `Fault.message`: the texts of causes.
- `Failure.message`, `Failure.status`: what is said at last, and the exit status.
-/

namespace ReviewGate

/-- What is said about a path that cannot be used. -/
def TreeFault.message : TreeFault → String
  | .missing => "There is no such file or directory."
  | .isDirectory => "A directory is where a file is needed."
  | .notDirectory => "A file is where a directory is needed on the way."
  | .occupied => "A file is where the directory is needed."

/-- What is said about the cause of a failure. -/
def Fault.message : Fault → String
  | .policy cause => cause.message
  | .setup cause => cause.message
  | .wrongKind => "A value is of a kind that cannot be used here."
  | .noMember => "A value lacks a member that is used."
  | .noEntry => "A mapping lacks a required key."
  | .noItem => "A text or list lacks a required item."
  | .badNumber => "A text or number spells no number of the kind that is needed."
  | .numberRange => "A number is out of range."
  | .tooManyAlternatives => "A glob stands for too many alternatives."
  | .undecodable defect => defect.message
  | .tree cause => cause.message
  | .unprintable => "A value cannot be shown in a table."
  | .inputEnded => "The input has ended."
  | .badYaml => "The text is not valid YAML."
  | .badScalar cause => cause.message

namespace Command

/-- What is said about a command line that is not as it must be. -/
def Misuse.message : Misuse → String
  | .unknownOption => "No such option."
  | .valueMismatch => "An option lacks its value, or has one and takes none."
  | .badValue => "Invalid value."
  | .missingOption => "Missing option."
  | .unknownCommand => "No such command."
  | .missingCommand => "Missing command."
  | .nothingGiven => "Nothing is given."
  | .extraOperands operands =>
      (if operands.length == 1 then "Got unexpected extra argument ("
        else "Got unexpected extra arguments (") ++ " ".intercalate operands ++ ")"

/-- What is said at last. -/
def Failure.message : Failure → String
  | .misuse cause => cause.message
  | .usage message => message
  | .badConfiguration => Fault.badYaml.message
  | .refused message => message.getD "The request cannot be met."
  | .aborted => "Aborted!"
  | .fault cause => cause.message

/-- The exit status: a command line that cannot be used is told apart from a request that cannot be
met. -/
def Failure.status : Failure → Nat
  | .misuse _ | .usage _ | .badConfiguration => 2
  | .refused _ | .aborted | .fault _ => 1

end Command

end ReviewGate
