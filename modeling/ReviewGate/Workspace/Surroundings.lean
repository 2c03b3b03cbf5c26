import ReviewGate.Document.Basic
import ReviewGate.Text.Character
import ReviewGate.Text.Search

/-!
# `ReviewGate.Workspace.Surroundings` — variables and tools around a run

## Contents
- `ToolResult`: what came of calling another program.
- `Surroundings`: the variables of the environment, and what comes of calling a tool.
- `answerOf`: the answer of a tool that succeeded.
- `accessToken?`: the token for the hub.
- `detectRepository?`: the repository that the working directory is a clone of.
-/

namespace ReviewGate

open Text

/-- What came of calling another program. -/
inductive ToolResult
  /-- There is no such program. -/
  | absent
  /-- It took too long. -/
  | expired
  | finished (code : Int) (output : String)
deriving DecidableEq, Repr

/-- The variables of the environment, and what comes of calling a tool. -/
structure Surroundings where
  «variables» : List (String × String)
  tools : List (String × ToolResult)
deriving DecidableEq, Repr

namespace Surroundings

/-- The value of a variable, if it is set. -/
def setting? (s : Surroundings) (name : String) : Option String := s.«variables».lookup name

/-- The value of a variable, if it is set and not empty. -/
def nonempty? (s : Surroundings) (name : String) : Option String :=
  (s.setting? name).filter (· != "")

/-- What a tool that succeeded has printed, without the blanks around it. -/
def answerOf (s : Surroundings) (tool : String) : Option String :=
  match s.tools.lookup tool with
  | some (.finished 0 output) => some (strip output)
  | _ => none

/-- The token for the hub: one set for this program, one set for the run, or that of the hub's own
tool. -/
def accessToken? (s : Surroundings) : Option String :=
  s.nonempty? "PATCHWARDEN_GITHUB_TOKEN" <|> s.nonempty? "GITHUB_TOKEN" <|>
    (s.answerOf "gh").filter (· != "")

/-- What follows the last occurrence of `part`, `none` if there is none. -/
def behindLast? (part : List Char) : List Char → Option (List Char)
  | [] => if part.isEmpty then some [] else none
  | c :: rest =>
      match behindLast? part rest with
      | some behind => some behind
      | none => if part.isPrefixOf (c :: rest) then some ((c :: rest).drop part.length) else none

/-- The repository of an address on the hub, an owner and a name. -/
def repositoryOf? (url : String) : Option String := do
  let behind ← behindLast? "github.com".toList url.toList
  let slug := dropEnd (String.ofList (behind.dropWhile fun c => c == '/' || c == ':')) ".git"
  if slug.toList.count '/' == 1 then some slug else none

/-- The repository that the working directory is a clone of. -/
def detectRepository? (s : Surroundings) : Option String := (s.answerOf "git").bind repositoryOf?

end Surroundings

end ReviewGate
