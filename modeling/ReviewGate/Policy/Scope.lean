import ReviewGate.Policy.Merge

/-!
# `ReviewGate.Policy.Scope` — which rules concern which files

## Contents
- `AllowlistEntry.excuses`, `isAllowlisted`: does a rule not count for a path?
- `rulesByFile`: the rules whose scope covers a file, for each file that has any.
- `activeRules`: each rule that concerns some file, once.
-/

namespace ReviewGate

open Diff

/-- Does the entry, for paths that it covers, excuse the rule? -/
def AllowlistEntry.excuses (e : AllowlistEntry) (ruleId : String) : Bool :=
  match e.ruleIds with
  | none => true
  | some ids => ids.isEmpty || ids.any (·.isText ruleId)

/-- Does some entry excuse the rule for the path? The entries are tried in order. -/
def excusedBy (path ruleId : String) : List AllowlistEntry → Except Fault Bool
  | [] => .ok false
  | e :: rest => do
      if (← Glob.matchesPath path e.path) && e.excuses ruleId then return true
      else excusedBy path ruleId rest

/-- Does the rule not count for the path? -/
def isAllowlisted (p : Policy) (path ruleId : String) : Except Fault Bool :=
  excusedBy path ruleId p.allowlist

/-- The rules whose scope covers the path. -/
def rulesFor (rules : List Rule) (path : String) : Except Fault (List Rule) :=
  rules.filterM fun r => Glob.matchesPath path r.scope

/-- The files that rules concern, each with those rules; a path that occurs again keeps its place
and takes its last rules. -/
def rulesByFile (rules : List Rule) (files : List ChangedFile) :
    Except Fault (List (String × List Rule)) := do
  let found ← files.mapM fun f => do return (f.path, ← rulesFor rules f.path)
  return mergeById (·.1) (found.filter fun (_, applicable) => !applicable.isEmpty)

/-- The rules, one per id, in order of first occurrence. -/
def firstById (rules : List Rule) : List Rule :=
  rules.foldl (fun found r => if found.any (·.id == r.id) then found else found ++ [r]) []

/-- Each rule that concerns some file, once. -/
def activeRules (rules : List Rule) (files : List ChangedFile) : Except Fault (List Rule) := do
  return firstById ((← rulesByFile rules files).flatMap (·.2))

end ReviewGate
