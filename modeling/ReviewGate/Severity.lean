/-!
# `ReviewGate.Severity` — how grave a finding is

## Contents
- `Severity`, its names and its rank.
- `Severity.label`, `Severity.title`: the name in capitals and with a capital.
-/

namespace ReviewGate

/-- How grave a finding is. -/
inductive Severity
  | critical
  | warning
  | info
deriving DecidableEq, Repr, Inhabited

namespace Severity

/-- All severities, the gravest first. -/
def all : List Severity := [.critical, .warning, .info]

/-- The name in documents. -/
def name : Severity → String
  | .critical => "critical"
  | .warning => "warning"
  | .info => "info"

/-- The name in capitals. -/
def label : Severity → String
  | .critical => "CRITICAL"
  | .warning => "WARNING"
  | .info => "INFO"

/-- The name with a capital. -/
def title : Severity → String
  | .critical => "Critical"
  | .warning => "Warning"
  | .info => "Info"

/-- The colour in which the name is printed. -/
def color : Severity → String
  | .critical => "red"
  | .warning => "yellow"
  | .info => "blue"

/-- The rank: the graver, the greater. -/
def rank : Severity → Nat
  | .critical => 3
  | .warning => 2
  | .info => 1

/-- The severity with the given name. -/
def ofName? (s : String) : Option Severity := all.find? (·.name == s)

end Severity

end ReviewGate
