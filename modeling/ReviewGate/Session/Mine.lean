import ReviewGate.Mining.Conventions
import ReviewGate.Session.Review

/-!
# `ReviewGate.Session.Mine` — conventions learned from a merged pull request

## Contents
- `minePull`: the new rules of a pull request.
-/

namespace ReviewGate

open Mining

/-- The new rules of a merged pull request; one that is not merged has none. -/
def minePull (hub : Hub) (repository : String) (number : Int) (config : Document)
    (known : List String) (model : Document) : Run (List LearnedRule) := do
  let pull ← findPull hub repository number
  if !pull.isMerged then
    Run.say s!"[yellow]PR #{number} is not merged. Nothing to learn.[/yellow]"
    return []
  match ← Run.lift (chooseProvider config model) with
  | none => throw (.setup .providerMissing)
  | some (provider, connected) =>
      Run.note connected
      Run.converse
        (mineConventions provider pull.files pull.remarks ⟨.int number, pull.mergedAt⟩ known)

end ReviewGate
