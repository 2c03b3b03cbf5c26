import ReviewGate.Check.BuiltIn
import ReviewGate.Check.HardRule
import ReviewGate.Finding.Synthesis

/-!
# `ReviewGate.Check.Run` — the specialists at work

## Contents
- `takeSigned`: a given number of items, or all but so many at the end.
- `specialistFindings`: what one specialist reports.
- `Policy.running`, `allFindings`: what the enabled specialists report.
- `analyze`: their findings and further ones, synthesized.
-/

namespace ReviewGate

/-- The first `n` items; if `n` is negative, all but the last `-n`. -/
def takeSigned {α : Type} (n : Int) (items : List α) : List α :=
  if n < 0 then items.take (items.length - n.natAbs) else items.take n.toNat

/-- The built-in checks of the named specialist; a name that is not known has none. -/
def checksOf (specialist : String) : List Check :=
  match Specialist.ofName? specialist with
  | some s => s.checks
  | none => []

/-- All findings of the named specialist for the files: those of its checks, then those of its
hard rules. -/
def uncappedFindings (p : Policy) (specialist : String) (routed : List Routed)
    (contents : Contents) : Except Fault (List Finding) := do
  let hard ← hardRuleFindings p specialist routed contents
  return runChecks specialist (checksOf specialist) routed contents ++ hard

/-- The findings that the named specialist reports: no more than its settings allow. -/
def specialistFindings (p : Policy) (specialist : String) (routed : List Routed)
    (contents : Contents) : Except Fault (List Finding) := do
  return takeSigned (p.agents.forName specialist).maxFindings
    (← uncappedFindings p specialist routed contents)

/-- The specialists that run. -/
def Policy.running (p : Policy) : List Specialist :=
  Specialist.all.filter fun s => (p.agents s).enabled

/-- The findings of all specialists that run, each for its files. -/
def allFindings (p : Policy) (routing : Routing) (contents : Contents) :
    Except Fault (List Finding) := do
  return (← p.running.mapM fun s =>
    specialistFindings p s.name (routing.bucket s) contents).flatten

/-- The findings of the specialists and further ones, synthesized. -/
def analyze (p : Policy) (routing : Routing) (contents : Contents) (extra : List Finding)
    (usage : TokenUsage) : Except Fault Analysis := do
  let found ← allFindings p routing contents
  return synthesize (found ++ extra) p.running.length usage

end ReviewGate
