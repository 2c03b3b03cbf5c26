import ReviewGate.Yaml.Word

/-!
# `ReviewGate.Yaml.BlockScalar` — scalars written as indented lines

A block scalar keeps its line ends (*literal*) or folds them into spaces (*folded*). What becomes of
the line ends behind its last line depends on its header.

## Contents
- `Chomping`: what becomes of the last line ends.
- `Lex.blockHeader`: chomping and the indentation, if it is given.
- `Lex.block`: a block scalar.
-/

namespace ReviewGate.Yaml

/-- What becomes of the line ends behind the last line of a block scalar. -/
inductive Chomping
  | strip
  /-- One is kept. -/
  | clip
  | keep
deriving DecidableEq, Repr

namespace Lex

/-- The sign for chomping, if one is here. -/
def chomping? : Lex (Option Chomping) := do
  match ← peek with
  | some '+' => advance 1; return some .keep
  | some '-' => advance 1; return some .strip
  | _ => return none

/-- The digit for the indentation, if one is here. It is not zero. -/
def increment? : Lex (Option Nat) := do
  match ← peek with
  | some c =>
      if c.isDigit then
        require (c != '0')
        advance 1
        return some (c.toNat - 48)
      else return none
  | none => return none

/-- The header of a block scalar, up to the end of its line. -/
def blockHeader : Lex (Chomping × Option Nat) := do
  let (c, n) ← match ← chomping? with
    | some c => pure (c, ← increment?)
    | none => do
        let n ← increment?
        let c ← if n.isSome then chomping? else pure none
        pure (c.getD .clip, n)
  require (endsToken (← peek))
  restOfLine
  return (c, n)

/-- The line ends before the first line of text, and the greatest column among the spaces there. At
most `fuel` lines are read. -/
def leadingLines : Nat → Lex (List Char × Nat)
  | 0 => return ([], 0)
  | fuel + 1 => do
      goTo (← cursor).skipSpaces
      let column := (← cursor).column
      let e ← takeLineEnd
      if e.isEmpty then return ([], column)
      else
        let (es, widest) ← leadingLines fuel
        return (e ++ es, max column widest)

/-- Skip spaces up to a column. -/
def skipToColumn (column : Nat) : Lex Unit := do
  let c ← cursor
  advance (min (c.front (· == ' ')).length (column - c.column))

/-- The line ends before the next line of text, whose indentation is skipped. -/
def emptyLines (indent : Nat) : Nat → Lex (List Char)
  | 0 => return []
  | fuel + 1 => do
      skipToColumn indent
      let e ← takeLineEnd
      if e.isEmpty then return []
      else return e ++ (← emptyLines indent fuel)

/-- Does a line of text with the given indentation start here? -/
def atLine (indent : Nat) : Lex Bool := do
  let c ← cursor
  return c.column == indent && c.peek.isSome

/-- The lines of a block scalar, at most `fuel`: their text without the last line end, this line
end, and the line ends behind it. -/
def blockLines (folded : Bool) (indent : Nat) (before : List Char) :
    Nat → Lex (List Char × List Char × List Char)
  | 0 => return ([], [], before)
  | fuel + 1 => do
      if !(← atLine indent) then return ([], [], before)
      else
        let isBlank (c : Option Char) : Bool := c == some ' ' || c == some '\t'
        let startsBlank := isBlank (← peek)
        let line ← takeWhile (!isLineEnd ·)
        let e ← takeLineEnd
        let after ← emptyLines indent ((← cursor).rest.length + 1)
        if ← atLine indent then
          let joint :=
            if folded && e == ['\n'] && !startsBlank && !isBlank (← peek) then
              if after.isEmpty then [' '] else []
            else e
          let (text, last, behind) ← blockLines folded indent after fuel
          return (before ++ line ++ joint ++ text, last, behind)
        else return (before ++ line, e, after)

/-- A block scalar. -/
def block (folded : Bool) : Lex Token := do
  advance 1
  let (chomping, increment) ← blockHeader
  let least := max 1 ((← get).indent + 1).toNat
  let fuel := (← cursor).rest.length + 1
  let (indent, before) ← match increment with
    | some n => do
        let indent := least + n - 1
        pure (indent, ← emptyLines indent fuel)
    | none => do
        let (es, widest) ← leadingLines fuel
        pure (max least widest, es)
  let (text, last, behind) ← blockLines folded indent before fuel
  let finish := match chomping with
    | .strip => []
    | .clip => last
    | .keep => last ++ behind
  return .scalar (String.ofList (text ++ finish)) false

end Lex

end ReviewGate.Yaml
