/-!
# `ReviewGate.Text.Search` — pieces of a text

## Contents
- `startsWith`, `endsWith`, `contains`: does a string begin with, end with or hold another?
- `dropStart`, `dropEnd`: a string without a given beginning or end, if it has it.
- `replaceChar`: each occurrence of a character as a string.
- `afterLast`: the part behind the last occurrence of a character.
-/

namespace ReviewGate.Text

/-- Does `part` occur in the characters? -/
def occursIn (part : List Char) : List Char → Bool
  | [] => part.isEmpty
  | c :: rest => part.isPrefixOf (c :: rest) || occursIn part rest

/-- Does `s` begin with `start`? -/
def startsWith (s start : String) : Bool := start.toList.isPrefixOf s.toList

/-- Does `s` end with `finish`? -/
def endsWith (s finish : String) : Bool := finish.toList.isSuffixOf s.toList

/-- Does `part` occur in `s`? -/
def contains (s part : String) : Bool := occursIn part.toList s.toList

/-- `s` without `start` at its beginning, or `s` itself. -/
def dropStart (s start : String) : String :=
  if startsWith s start then String.ofList (s.toList.drop start.length) else s

/-- `s` without `finish` at its end, or `s` itself. -/
def dropEnd (s finish : String) : String :=
  if endsWith s finish then String.ofList (s.toList.take (s.length - finish.length)) else s

/-- `cs` with `replacement` for each `c`. -/
def replaceChar (c : Char) (replacement : List Char) (cs : List Char) : List Char :=
  cs.flatMap fun d => if d = c then replacement else [d]

/-- The part of `cs` behind its last `c`; all of `cs` if it has none. -/
def afterLast (c : Char) (cs : List Char) : List Char := (cs.splitOn c).getLastD []

end ReviewGate.Text
