import ReviewGate.Mining.Prompt
import ReviewGate.Model.Answer
import ReviewGate.Policy.Learned

/-!
# `ReviewGate.Mining.Conventions` — conventions in a model's answer

## Contents
- `Origin`: the merged change that conventions are learned from.
- `clampUnit`, `confidenceOf`: a confidence between zero and one.
- `conventionOf?`, `conventionsFrom`, `conventionsOf`: the new rules of an answer.
- `mineConventions`: the new rules of a change.
-/

namespace ReviewGate.Mining

open Number

/-- The merged change that conventions are learned from. -/
structure Origin where
  number : Document
  mergedAt : Document
deriving Repr

/-- One. -/
def unit : Binary64 := Binary64.ofInt 1

/-- The nearest number between zero and one; what is no number stays so. -/
def clampUnit (x : Binary64) : Binary64 :=
  let raised := if x.lt (Binary64.zero false) then Binary64.zero false else x
  if unit.lt raised then unit else raised

/-- The confidence that a document gives, zero if it gives none. -/
def confidenceOf (d : Document) : Except Fault Binary64 :=
  match d.toDouble with
  | .ok x => .ok (clampUnit x)
  | .error .wrongKind | .error .badNumber => .ok (Binary64.zero false)
  | .error fault => .error fault

/-- The rule of an entry, `none` if the entry is incomplete or its id is one of those seen. -/
def conventionOf? (origin : Origin) (seen : List Document.Key) (entry : Document) :
    Except Fault (Option (Document.Key × LearnedRule)) :=
  match entry with
  | .map entries => do
      let get (name : String) : Document := (Document.lookup name entries).getD .null
      if !(get "id").truthy || !(get "scope").truthy || !(get "pattern").truthy then return none
      let key ← (get "id").keyOf
      if seen.contains key then return none
      let confidence ← confidenceOf
        ((Document.lookup "confidence" entries).getD (.float (Binary64.zero false)))
      return some (key, {
        id := (get "id").plain
        description := ((Document.lookup "description" entries).getD (.text "")).plain
        scope := (get "scope").plain
        pattern := (get "pattern").plain
        severity := .ofDocument .warning (get "severity")
        confidence
        learnedFrom := origin.number
        mergedAt := origin.mergedAt })
  | _ => .ok none

/-- The rules of entries whose ids have not been seen, in order. -/
def conventionsFrom (origin : Origin) (seen : List Document.Key) :
    List Document → Except Fault (List LearnedRule)
  | [] => .ok []
  | entry :: rest => do
      match ← conventionOf? origin seen entry with
      | none => conventionsFrom origin seen rest
      | some (key, rule) => return rule :: (← conventionsFrom origin (key :: seen) rest)

/-- The new rules of an answer; an answer that is no list has none. -/
def conventionsOf (origin : Origin) (known : List String) (answer : Document) :
    Except Fault (List LearnedRule) :=
  match answer with
  | .list entries => conventionsFrom origin (known.map .text) entries
  | _ => .ok []

/-- The new rules of a merged change, with the conversation that they take. -/
def mineConventions (p : Provider) (files comments : List Document) (origin : Origin)
    (known : List String) (t : Talk) : Except Fault (List LearnedRule) × Talk :=
  match miningQuestion files comments with
  | .error fault => (.error fault, t)
  | .ok question =>
      match p.complete question t with
      | (none, t) => (.ok [], t)
      | (some c, t) =>
          ((do conventionsOf origin known (← readAnswer c.text)), t)

end ReviewGate.Mining
