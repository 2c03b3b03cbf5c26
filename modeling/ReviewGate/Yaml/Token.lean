import ReviewGate.Yaml.Cursor

/-!
# `ReviewGate.Yaml.Token` — the tokens of a YAML text

Indentation is a matter of tokens: a block collection starts and ends with tokens of its own, which
stand for no character.

## Contents
- `Directive`: what a line that starts with a percent sign says.
- `Token`: the tokens.
-/

namespace ReviewGate.Yaml

/-- A directive. -/
inductive Directive
  /-- The version of the language; the minor number says nothing. -/
  | version (major : Nat)
  /-- What a tag handle stands for. -/
  | handle (name meaning : String)
  /-- A directive that says nothing. -/
  | unknown
deriving DecidableEq, Repr

/-- A token. -/
inductive Token
  | directive (d : Directive)
  | documentStart
  | documentEnd
  | blockSequence
  | blockMapping
  | blockEnd
  | flowSequence
  | flowSequenceEnd
  | flowMapping
  | flowMappingEnd
  /-- The hyphen before an item of a block sequence. -/
  | hyphen
  /-- The comma between items of a flow collection. -/
  | comma
  /-- What follows is a key. -/
  | key
  /-- What follows is a value. -/
  | value
  | alias (name : String)
  | anchor (name : String)
  /-- A tag; without a handle the text is the whole tag. -/
  | tag (handle : Option String) (text : String)
  /-- The text of a scalar; is it written without quotation marks? -/
  | scalar (text : String) (isPlain : Bool)
deriving DecidableEq, Repr

end ReviewGate.Yaml
