import ReviewGate.Yaml.PlainScalar

/-!
# `ReviewGate.Yaml.QuotedScalar` — scalars between quotation marks

Between single marks only the mark itself is escaped, by doubling. Between double marks a backslash
starts an escape, and one before a line end joins the lines.

## Contents
- `escapedChar?`: what a letter behind a backslash stands for.
- `Lex.quoted`: a scalar between quotation marks.
-/

namespace ReviewGate.Yaml

/-- The characters with an escape of one letter. -/
def letterEscapes : List (Char × Nat) :=
  [('0', 0), ('a', 7), ('b', 8), ('t', 9), ('\t', 9), ('n', 10), ('v', 11), ('f', 12), ('r', 13),
   ('e', 27), (' ', 32), ('"', 34), ('\\', 92), ('/', 47), ('N', 0x85), ('_', 0xA0), ('L', 0x2028),
   ('P', 0x2029)]

/-- The character that a letter behind a backslash stands for. -/
def escapedChar? (c : Char) : Option Char := (letterEscapes.lookup c).map Char.ofNat

/-- The number of hexadecimal digits that a letter behind a backslash announces. -/
def escapeDigits? (c : Char) : Option Nat :=
  if c == 'x' then some 2 else if c == 'u' then some 4 else if c == 'U' then some 8 else none

/-- The character with a code; half of a surrogate pair is no character and is replaced. -/
def charOfCode (n : Nat) : Char :=
  if 0xD800 ≤ n ∧ n ≤ 0xDFFF then Char.ofNat 0xFFFD else Char.ofNat n

namespace Lex

/-- The line ends among blanks, at most `fuel`. A document marker may not stand there. -/
def quotedLineEnds : Nat → Lex (List Char)
  | 0 => return []
  | fuel + 1 => do
      require !(← cursor).atMarker
      let _ ← takeWhile fun c => c == ' ' || c == '\t'
      let e ← takeLineEnd
      if e.isEmpty then return []
      else return e ++ (← quotedLineEnds fuel)

/-- An escape, behind its backslash. -/
def escape : Lex (List Char) := do
  match ← peek with
  | none => refuse
  | some c =>
      match escapedChar? c, escapeDigits? c with
      | some e, _ => do
          advance 1
          return [e]
      | none, some n => do
          advance 1
          let digits := (← cursor).rest.take n
          require (digits.length == n && digits.all isHex)
          let code := ofHex digits
          if 0x80000000 ≤ code then throw .numberRange
          if 0x110000 ≤ code then throw (.badScalar .character)
          advance n
          return [charOfCode code]
      | none, none =>
          if isLineEnd c then do
            advance 1
            quotedLineEnds ((← cursor).rest.length + 1)
          else refuse

/-- What the blanks here stand for. -/
def quotedBlanks : Lex (List Char) := do
  let blanks ← takeWhile fun c => c == ' ' || c == '\t'
  require (← peek).isSome
  let e ← takeLineEnd
  if e.isEmpty then return blanks
  else return foldedEnd e (← quotedLineEnds ((← cursor).rest.length + 1))

/-- The characters up to the closing quotation mark, behind which the scalar ends. At most `fuel`
parts are read. -/
def quotedParts (isDouble : Bool) : Nat → Lex (List Char)
  | 0 => return []
  | fuel + 1 => do
      let part ← takeWhile fun c =>
        !(c == '\'' || c == '"' || c == '\\' || endsWord (some c))
      let c ← cursor
      let further ←
        if !isDouble && c.peek == some '\'' && c.peekAt 1 == some '\'' then do
          advance 2
          pure (some ['\''])
        else if c.peek == some (if isDouble then '"' else '\'') then do
          advance 1
          pure none
        else if isDouble && c.peek == some '\\' then do
          advance 1
          pure (some (← escape))
        else match c.peek with
          | some ch =>
              if endsWord (some ch) then pure (some (← quotedBlanks))
              else do
                advance 1
                pure (some [ch])
          | none => refuse
      match further with
      | none => return part
      | some cs => return part ++ cs ++ (← quotedParts isDouble fuel)

/-- A scalar between quotation marks. -/
def quoted (isDouble : Bool) : Lex Token := do
  advance 1
  let cs ← quotedParts isDouble ((← cursor).rest.length + 1)
  return .scalar (String.ofList cs) false

end Lex

end ReviewGate.Yaml
