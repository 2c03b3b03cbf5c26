import ReviewGate.Yaml.BlockScalar
import ReviewGate.Yaml.QuotedScalar

/-!
# `ReviewGate.Yaml.Tokens` — a text as tokens

## Contents
- `Lex.toNextToken`: blanks, comments and line ends skipped.
- `Lex.structure?`, `Lex.content?`: the two kinds of tokens that a character can start.
- `Lex.step`: one token, with those that stand for indentation.
- `tokens`: all tokens of a text.
-/

namespace ReviewGate.Yaml

namespace Lex

/-- Skip spaces, comments and line ends, at most `fuel` lines. -/
def toNextToken : Nat → Lex Unit
  | 0 => pure ()
  | fuel + 1 => do
      goTo (← cursor).skipSpaces.skipComment
      let e ← takeLineEnd
      if !e.isEmpty then
        if !(← inFlow) then allowKey true
        toNextToken fuel

/-! ## Structure -/

/-- A document marker or directive ends all block collections. -/
def breakDocument : Lex Unit := do
  unwind (-1)
  dropKey
  allowKey false

/-- Give a token of `n` characters. -/
def emitSign (n : Nat) (t : Token) : Lex Unit := do
  advance n
  emit t

/-- The beginning of a flow collection. -/
def openFlow (t : Token) : Lex Unit := do
  saveKey
  modify fun l => { l with depth := l.depth + 1 }
  allowKey true
  emitSign 1 t

/-- The end of a flow collection. -/
def closeFlow (t : Token) : Lex Unit := do
  dropKey
  require (← inFlow)
  modify fun l => { l with depth := l.depth - 1 }
  allowKey false
  emitSign 1 t

/-- A comma. -/
def comma : Lex Unit := do
  allowKey true
  dropKey
  emitSign 1 .comma

/-- Begin a block collection here, if none is at this column. A collection can only begin where a
key can. -/
def beginBlock (t : Token) : Lex Unit := do
  if !(← inFlow) then
    require (← get).allowKey
    if ← indentTo (← cursor).column then emit t

/-- The hyphen of an item. -/
def hyphen : Lex Unit := do
  beginBlock .blockSequence
  allowKey true
  dropKey
  emitSign 1 .hyphen

/-- The question mark of a key. -/
def explicitKey : Lex Unit := do
  beginBlock .blockMapping
  allowKey !(← inFlow)
  dropKey
  emitSign 1 .key

/-- Put a token at a place among those given. -/
def insertToken (position : Nat) (t : Token) : Lex Unit :=
  modify fun l => { l with tokens := l.tokens.insertIdxIfInBounds position t }

/-- The colon of a value. The possible key before it is one, and begins a block mapping if there is
none at its column. -/
def colon : Lex Unit := do
  match ← key? with
  | some k =>
      forgetKey
      insertToken k.position .key
      if !(← inFlow) then
        if ← indentTo k.column then insertToken k.position .blockMapping
      allowKey false
  | none =>
      beginBlock .blockMapping
      allowKey !(← inFlow)
      dropKey
  emitSign 1 .value

/-- The step for a token that gives the text its structure, if one starts with `c` here. -/
def structure? (c : Char) : Lex (Option (Lex Unit)) := do
  let l ← get
  let flow := l.depth != 0
  let atStart := l.cursor.column == 0
  let beforeBlank := endsWord (l.cursor.peekAt 1)
  return if atStart && c == '%' then some (do breakDocument; emit (← directive))
    else if atStart && c == '-' && l.cursor.atMarker then
      some (do breakDocument; emitSign 3 .documentStart)
    else if atStart && c == '.' && l.cursor.atMarker then
      some (do breakDocument; emitSign 3 .documentEnd)
    else if c == '[' then some (openFlow .flowSequence)
    else if c == '\x7b' then some (openFlow .flowMapping)
    else if c == ']' then some (closeFlow .flowSequenceEnd)
    else if c == '\x7d' then some (closeFlow .flowMappingEnd)
    else if c == ',' then some comma
    else if c == '-' && beforeBlank then some hyphen
    else if c == '?' && (flow || beforeBlank) then some explicitKey
    else if c == ':' && (flow || beforeBlank) then some colon
    else none

/-! ## Content -/

/-- A token that can be a key. -/
def emitContent (t : Lex Token) : Lex Unit := do
  saveKey
  allowKey false
  emit (← t)

/-- A block scalar cannot be a key. -/
def emitBlock (folded : Bool) : Lex Unit := do
  allowKey true
  dropKey
  emit (← block folded)

/-- Can a plain scalar start with `c`, which `next` follows? -/
def startsPlain (flow : Bool) (c : Char) (next : Option Char) : Bool :=
  !(endsWord (some c) || "-?:,[]\x7b\x7d#&*!|>'\"%@\x60".toList.contains c) ||
    (!endsWord next && (c == '-' || (!flow && (c == '?' || c == ':'))))

/-- The step for a token of content that starts with `c` here. -/
def content (c : Char) : Lex Unit := do
  let l ← get
  let flow := l.depth != 0
  if c == '*' then emitContent (do return .alias (← anchorName))
  else if c == '&' then emitContent (do return .anchor (← anchorName))
  else if c == '!' then emitContent tag
  else if c == '|' && !flow then emitBlock false
  else if c == '>' && !flow then emitBlock true
  else if c == '\'' then emitContent (quoted false)
  else if c == '"' then emitContent (quoted true)
  else if startsPlain flow c (l.cursor.peekAt 1) then emitContent plain
  else refuse

/-! ## All tokens -/

/-- Read one token, with those for indentation; is there more? -/
def step : Lex Bool := do
  toNextToken ((← cursor).rest.length + 1)
  dropStaleKeys
  unwind (← cursor).column
  match ← peek with
  | none =>
      unwind (-1)
      dropKey
      return false
  | some c =>
      match ← structure? c with
      | some action => action
      | none => content c
      return true

/-- Read at most `fuel` tokens. -/
def steps : Nat → Lex Unit
  | 0 => pure ()
  | fuel + 1 => do
      if ← step then steps fuel

end Lex

/-- The tokens of a text. -/
def tokens (cs : List Char) : Except Fault (List Token) := do
  if !cs.all isAllowed then throw .badYaml
  let start : Lexer := ⟨.start cs, #[], 0, -1, [], true, []⟩
  let (_, l) ← (Lex.steps (cs.length + 1)).run start
  return l.tokens.toList

end ReviewGate.Yaml
