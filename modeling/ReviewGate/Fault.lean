import ReviewGate.Document.Show
import ReviewGate.Text.Utf8

/-!
# `ReviewGate.Fault` — why an operation gives no answer

## Contents
- `PolicyFault`: the ways in which a configuration violates its contract, with their texts.
- `SetupFault`: requests that the surroundings cannot meet, with their texts.
- `ScalarFault`: scalars that denote no value, with their texts.
- `TreeFault`: paths that cannot be used.
- `Fault`: all causes. Those without a text are told apart by kind alone.
- `Document.member`, `Document.items`, `Document.keyOf`: the uses of a document that can fail.
-/

namespace ReviewGate

/-- A configuration violates its contract. -/
inductive PolicyFault
  | ruleShape (place : String)
  | ruleFields (place : String) (id : Document) (missing : List String)
  | flag (key : String) (value : Document)
  | sectionKind (key expected : String) (value : Document)
  | blockOnKind (value : Document)
  | allowlistPath
deriving Repr

/-- What is said about a violated contract. -/
def PolicyFault.message : PolicyFault → String
  | .ruleShape place => s!"{place}: each rule must be a mapping"
  | .ruleFields place id missing =>
      s!"{place}: rule {id.quoted} is missing " ++ ", ".intercalate missing
  | .flag key value => s!"'{key}' must be true or false, got {value.quoted}"
  | .sectionKind key expected value => s!"'{key}' must be a {expected}, got {value.kind}"
  | .blockOnKind value => s!"'block_on' must be a list of severities, got {value.kind}"
  | .allowlistPath => "allowlist: each entry needs a 'path'"

/-- A request that the surroundings cannot meet. -/
inductive SetupFault
  | unknownProvider (name : Document)
  | pullMissing (number : Int) (repository : String)
  | providerMissing
  | configKind (path : String) (value : Document)
deriving Repr

/-- What is said about such a request. -/
def SetupFault.message : SetupFault → String
  | .unknownProvider name =>
      s!"Unknown provider: {name.quoted}. Choose 'anthropic' or 'openai'."
  | .pullMissing number repository => s!"PR #{number} not found in {repository}."
  | .providerMissing =>
      "Convention mining needs an LLM provider. Set provider in .patchwarden.yml."
  | .configKind path value => s!"{path} must contain a YAML mapping, got {value.kind}"

/-- A scalar of a configuration text denotes no value. -/
inductive ScalarFault
  | year (n : Nat)
  | month
  | day
  | hour
  | minute
  | second
  | offset (days seconds : Int)
  | integer (base : Nat) (text : String)
  | float (text : String)
  | tooLong (digits : Nat)
  | character
deriving DecidableEq, Repr

/-- What is said about such a scalar. -/
def ScalarFault.message : ScalarFault → String
  | .year n => s!"year {n} is out of range"
  | .month => "month must be in 1..12"
  | .day => "day is out of range for month"
  | .hour => "hour must be in 0..23"
  | .minute => "minute must be in 0..59"
  | .second => "second must be in 0..59"
  | .offset days seconds =>
      "offset must be a timedelta strictly between -timedelta(hours=24) and " ++
        "timedelta(hours=24), not datetime.timedelta(" ++ s!"days={days}" ++
        (if seconds == 0 then "" else s!", seconds={seconds}") ++ ")."
  | .integer base text =>
      s!"invalid literal for int() with base {base}: " ++ Document.quoteText text
  | .float text => "could not convert string to float: " ++ Document.quoteText text
  | .tooLong digits =>
      "Exceeds the limit (4300 digits) for integer string conversion: value has " ++
        s!"{digits} digits; use sys.set_int_max_str_digits() to increase the limit"
  | .character => "chr() arg not in range(0x110000)"

/-- A path cannot be used. -/
inductive TreeFault
  /-- Nothing is there. -/
  | missing
  /-- A directory is where a file is needed. -/
  | isDirectory
  /-- A file is where a directory is needed on the way. -/
  | notDirectory
  /-- A file is where the directory is needed. -/
  | occupied
deriving DecidableEq, Repr

/-- Why an operation gives no answer. -/
inductive Fault
  | policy (cause : PolicyFault)
  | setup (cause : SetupFault)
  /-- A value of a kind that the operation does not take. -/
  | wrongKind
  /-- A value is used as if it had members, or other members than it has. -/
  | noMember
  /-- A mapping lacks a required key. -/
  | noEntry
  /-- A text or list lacks a required item. -/
  | noItem
  /-- A text or number that spells no integer or no double. -/
  | badNumber
  /-- A number out of range. -/
  | numberRange
  /-- A glob stands for too many alternatives. -/
  | tooManyAlternatives
  /-- A file is not in the encoding it must have. -/
  | undecodable (defect : Text.Utf8.Defect)
  /-- A path of the working directory cannot be used. -/
  | tree (cause : TreeFault)
  /-- A value cannot be shown in a table. -/
  | unprintable
  /-- A question remains unanswered because the input has ended. -/
  | inputEnded
  /-- A text is not in the configuration language. -/
  | badYaml
  /-- A scalar of a configuration text denotes no value. -/
  | badScalar (cause : ScalarFault)
deriving Repr

namespace Document

/-- The value of a field, null if it is absent; the document must be a mapping. -/
def field (d : Document) (name : String) : Except Fault Document :=
  match d with
  | .map entries => .ok ((lookup name entries).getD .null)
  | _ => .error .noMember

/-- The value of a field, or the given one if it is absent; the document must be a mapping. -/
def fieldOr (d : Document) (name : String) (absent : Document) : Except Fault Document :=
  match d with
  | .map entries => .ok ((lookup name entries).getD absent)
  | _ => .error .noMember

/-- The entries of a mapping. -/
def entries : Document → Except Fault (List (Document × Document))
  | .map entries => .ok entries
  | _ => .error .noMember

/-- The items that a document gives when it is gone through: those of a list, the characters of a
text, the keys of a mapping. -/
def items : Document → Except Fault (List Document)
  | .list items => .ok items
  | .text s => .ok (s.toList.map fun c => .text (String.ofList [c]))
  | .map entries => .ok (entries.map (·.1))
  | .bytes data => .ok (data.map fun b => .int b.toNat)
  | .set members => .ok members
  | _ => .error .wrongKind

/-- The key that a document is. -/
def keyOf (d : Document) : Except Fault Key :=
  match d.key? with
  | some k => .ok k
  | none => .error .wrongKind

end Document

end ReviewGate
