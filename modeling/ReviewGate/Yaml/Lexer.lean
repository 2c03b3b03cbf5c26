import ReviewGate.Yaml.Token

/-!
# `ReviewGate.Yaml.Lexer` — what the lexer keeps in mind

A key is only known to be one when the colon behind it is met. Until then its place in the list of
tokens is remembered, and the token that announces it is put there afterwards.

## Contents
- `PossibleKey`: a token that may turn out to be a key.
- `Lexer`: the state.
- `Lex`: steps that may find the text to be in error.
- `Lex.advance`, `Lex.emit`: reading and giving tokens.
- `Lex.saveKey`, `Lex.dropKey`, `Lex.dropStaleKeys`: the possible keys.
- `Lex.indentTo`, `Lex.unwind`: block collections begun and ended.
-/

namespace ReviewGate.Yaml

/-- A token that may turn out to be a key. -/
structure PossibleKey where
  /-- The number of tokens before it. -/
  position : Nat
  /-- Is it an error if no colon follows? -/
  required : Bool
  index : Nat
  line : Nat
  column : Nat
deriving Repr

/-- What the lexer keeps in mind. -/
structure Lexer where
  cursor : Cursor
  tokens : Array Token
  /-- The number of flow collections around. -/
  depth : Nat
  /-- The column of the innermost block collection, -1 if there is none. -/
  indent : Int
  /-- The columns of the collections around it. -/
  outer : List Int
  /-- May a key start here? -/
  allowKey : Bool
  /-- The possible key of each flow depth. -/
  keys : List (Nat × PossibleKey)
deriving Repr

/-- A step of the lexer. -/
abbrev Lex := StateT Lexer (Except Fault)

namespace Lex

/-- The text is in error. -/
def refuse {α : Type} : Lex α := throw .badYaml

/-- Refuse the text unless the condition holds. -/
def require (condition : Bool) : Lex Unit := if condition then pure () else refuse

/-- The cursor. -/
def cursor : Lex Cursor := return (← get).cursor

/-- The next character. -/
def peek : Lex (Option Char) := return (← cursor).peek

/-- Go to another place. -/
def goTo (c : Cursor) : Lex Unit := modify fun l => { l with cursor := c }

/-- Go on by `n` characters. -/
def advance (n : Nat) : Lex Unit := do goTo ((← cursor).skip n)

/-- Read the characters that satisfy `p`. -/
def takeWhile (p : Char → Bool) : Lex (List Char) := do
  let c ← cursor
  goTo (c.skipWhile p)
  return c.front p

/-- Read a line end, if one is here. -/
def takeLineEnd : Lex (List Char) := do
  match ← peek with
  | some c =>
      if isLineEnd c then
        advance 1
        return [Cursor.lineEndText c]
      else return []
  | none => return []

/-- Is the place inside a flow collection? -/
def inFlow : Lex Bool := return (← get).depth != 0

/-- Say whether a key may start here. -/
def allowKey (allowed : Bool) : Lex Unit := modify fun l => { l with allowKey := allowed }

/-- Give a token. -/
def emit (t : Token) : Lex Unit := modify fun l => { l with tokens := l.tokens.push t }

/-! ## Possible keys -/

/-- The possible key of the present flow depth. -/
def key? : Lex (Option PossibleKey) := do
  let l ← get
  return l.keys.lookup l.depth

/-- Forget the possible key of the present flow depth. -/
def forgetKey : Lex Unit := modify fun l => { l with keys := l.keys.filter (·.1 != l.depth) }

/-- Give up the possible key of the present flow depth. -/
def dropKey : Lex Unit := do
  match ← key? with
  | some k =>
      require !k.required
      forgetKey
  | none => pure ()

/-- Remember that the next token may be a key. -/
def saveKey : Lex Unit := do
  let l ← get
  if l.allowKey then
    dropKey
    let c := l.cursor
    let k : PossibleKey :=
      ⟨l.tokens.size, l.depth == 0 && l.indent == c.column, c.index, c.line, c.column⟩
    modify fun l => { l with keys := (l.depth, k) :: l.keys }

/-- A key and its colon are on one line, and not too far from each other. -/
def isStale (c : Cursor) (k : PossibleKey) : Bool := k.line != c.line || 1024 < c.index - k.index

/-- Give up the possible keys for which it is too late. -/
def dropStaleKeys : Lex Unit := do
  let l ← get
  require (l.keys.all fun (_, k) => !(isStale l.cursor k && k.required))
  set { l with keys := l.keys.filter fun (_, k) => !isStale l.cursor k }

/-! ## Indentation -/

/-- Begin a block collection at a column, unless one is there; has one begun? -/
def indentTo (column : Nat) : Lex Bool := do
  let l ← get
  if l.indent < column then
    set { l with indent := column, outer := l.indent :: l.outer }
    return true
  else return false

/-- The tokens, the innermost column and the columns around it after the block collections beyond a
column have ended. -/
def closeBlocks (column : Int) (tokens : Array Token) (indent : Int) :
    List Int → Array Token × Int × List Int
  | [] => (tokens, indent, [])
  | parent :: rest =>
      if column < indent then closeBlocks column (tokens.push .blockEnd) parent rest
      else (tokens, indent, parent :: rest)

/-- End the block collections beyond a column. -/
def unwind (column : Int) : Lex Unit := do
  let l ← get
  if l.depth == 0 then
    let (tokens, indent, outer) := closeBlocks column l.tokens l.indent l.outer
    set { l with tokens, indent, outer }

end Lex

end ReviewGate.Yaml
