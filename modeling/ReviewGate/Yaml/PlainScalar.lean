import ReviewGate.Yaml.Lexer

/-!
# `ReviewGate.Yaml.PlainScalar` — scalars without quotation marks

A plain scalar goes on over lines that are indented further than the collection around it. One line
end between two lines is a space, several are one less.

## Contents
- `plainLength`: the characters up to the next blank or indicator.
- `foldedEnd`: what line ends stand for.
- `Lex.plain`: a plain scalar.
-/

namespace ReviewGate.Yaml

/-- Does a plain scalar end at `c`, which `rest` follows? -/
def endsPlain (flow : Bool) (c : Char) (rest : List Char) : Bool :=
  endsWord (some c) ||
    (c == ':' && (endsWord rest.head? || (flow && ",[]\x7b\x7d".toList.any (some · == rest.head?)))) ||
    (flow && ",?[]\x7b\x7d".toList.contains c)

/-- The number of characters of a plain scalar up to its next blank or its end. -/
def plainLength (flow : Bool) : List Char → Nat
  | [] => 0
  | c :: rest => if endsPlain flow c rest then 0 else plainLength flow rest + 1

/-- What a line end with further ones behind it stands for. -/
def foldedEnd (first : List Char) (further : List Char) : List Char :=
  if first != ['\n'] then first ++ further
  else if further.isEmpty then [' ']
  else further

namespace Lex

/-- The line ends among spaces and line ends; `none` if a document marker stands among them. At
most `fuel` of them are read. -/
def plainLineEnds : Nat → Lex (Option (List Char))
  | 0 => return some []
  | fuel + 1 => do
      let c := (← cursor).skipSpaces
      goTo c
      let e ← takeLineEnd
      if e.isEmpty then return some []
      else if (← cursor).atMarker then return none
      else return (← plainLineEnds fuel).map (e ++ ·)

/-- What the blanks between two parts of a plain scalar stand for; nothing if it ends there. -/
def plainBlanks : Lex (List Char) := do
  let spaces ← takeWhile (· == ' ')
  let e ← takeLineEnd
  if e.isEmpty then return spaces
  else
    allowKey true
    if (← cursor).atMarker then return []
    else match ← plainLineEnds ((← cursor).rest.length + 1) with
      | none => return []
      | some further => return foldedEnd e further

/-- The parts of a plain scalar, at most `fuel`, with what stands between them; `blanks` stands
before the next part. -/
def plainParts (blanks : List Char) : Nat → Lex (List Char)
  | 0 => return []
  | fuel + 1 => do
      let c ← cursor
      let flow ← inFlow
      let n := plainLength flow c.rest
      if c.peek == some '#' || n == 0 then return []
      else
        allowKey false
        advance n
        let part := blanks ++ c.rest.take n
        let between ← plainBlanks
        let c ← cursor
        let indent := (← get).indent
        if between.isEmpty || c.peek == some '#' || (!flow && (c.column : Int) < indent + 1) then
          return part
        else return part ++ (← plainParts between fuel)

/-- A plain scalar. -/
def plain : Lex Token := do
  let cs ← plainParts [] ((← cursor).rest.length + 1)
  return .scalar (String.ofList cs) true

end Lex

end ReviewGate.Yaml
