import ReviewGate.Yaml.Lexer
import ReviewGate.Text.Utf8

/-!
# `ReviewGate.Yaml.Word` — directives, anchors and tags

## Contents
- `Lex.directive`: a directive, up to the end of its line.
- `Lex.anchorName`: the name of an anchor or alias.
- `Lex.tag`: a tag.
-/

namespace ReviewGate.Yaml.Lex

/-! ## Tags -/

/-- The bytes that stand as percent signs with two hexadecimal digits each at the front. -/
def percentBytes : List Char → List UInt8
  | '%' :: a :: b :: rest => UInt8.ofNat (ofHex [a, b]) :: percentBytes rest
  | _ => []

/-- Is every percent sign at the front followed by two hexadecimal digits? -/
def percentsAreBytes : List Char → Bool
  | '%' :: a :: b :: rest => isHex a && isHex b && percentsAreBytes rest
  | '%' :: _ => false
  | _ => true

/-- Is `c` a character of a tag? -/
def isTagChar (c : Char) : Bool := isNameChar c || ";/?:@&=+$,.!~*'()[]%".toList.contains c

/-- The characters of a tag, at most `fuel` runs of them. -/
def tagChars : Nat → Lex (List Char)
  | 0 => return []
  | fuel + 1 => do
      let run ← takeWhile fun c => isTagChar c && c != '%'
      if (← peek) == some '%' then
        let c ← cursor
        require (percentsAreBytes c.rest)
        let bytes := percentBytes c.rest
        match Text.Utf8.decode bytes with
        | .error _ => refuse
        | .ok s =>
            advance (3 * bytes.length)
            return run ++ s.toList ++ (← tagChars fuel)
      else return run

/-- The characters of a tag, of which there is at least one. -/
def tagText : Lex String := do
  let cs ← tagChars ((← cursor).rest.length + 1)
  require !cs.isEmpty
  return String.ofList cs

/-- A tag handle: an exclamation mark, or a name between two. -/
def tagHandle : Lex String := do
  let c ← cursor
  require (c.peek == some '!')
  let name := c.next.front isNameChar
  let behind := c.next.skipWhile isNameChar
  if c.next.peek == some ' ' then
    goTo c.next
    return "!"
  else
    require (behind.peek == some '!')
    goTo behind.next
    return String.ofList ('!' :: name ++ ['!'])

/-- A tag. -/
def tag : Lex Token := do
  let c ← cursor
  let t ←
    if c.peekAt 1 == some '<' then do
      advance 2
      let text ← tagText
      require ((← peek) == some '>')
      advance 1
      pure (Token.tag none text)
    else if endsWord (c.peekAt 1) then do
      advance 1
      pure (Token.tag none "!")
    else do
      let hasHandle := (c.next.front fun ch => ch != ' ' && !isLineEnd ch).contains '!'
      let handle ← if hasHandle then tagHandle else do
        advance 1
        pure "!"
      pure (Token.tag (some handle) (← tagText))
  require (endsToken (← peek))
  return t

/-! ## Anchors -/

/-- The name of an anchor or alias, behind its sign. -/
def anchorName : Lex String := do
  advance 1
  let name ← takeWhile isNameChar
  require !name.isEmpty
  let behind ← peek
  require (endsWord behind || "?:,]\x7d%@\x60".toList.any (some · == behind))
  return String.ofList name

/-! ## Directives -/

/-- The rest of a line that may hold a comment only. -/
def restOfLine : Lex Unit := do
  goTo (← cursor).skipSpaces.skipComment
  require (isEnd (← peek))
  let _ ← takeLineEnd

/-- The number in a version. -/
def versionNumber : Lex Nat := do
  let digits ← takeWhile Char.isDigit
  require !digits.isEmpty
  return digits.foldl (fun n c => n * 10 + (c.toNat - 48)) 0

/-- What a directive of the given name says. -/
def directiveBody (name : List Char) : Lex Directive := do
  if name == "YAML".toList then
    goTo (← cursor).skipSpaces
    let major ← versionNumber
    require ((← peek) == some '.')
    advance 1
    let _ ← versionNumber
    require (endsToken (← peek))
    return .version major
  else if name == "TAG".toList then
    goTo (← cursor).skipSpaces
    let handle ← tagHandle
    require ((← peek) == some ' ')
    goTo (← cursor).skipSpaces
    let meaning ← tagText
    require (endsToken (← peek))
    return .handle handle meaning
  else
    goTo (← cursor).skipLine
    return .unknown

/-- A directive. -/
def directive : Lex Token := do
  advance 1
  let name ← takeWhile isNameChar
  require !name.isEmpty
  require (endsToken (← peek))
  let d ← directiveBody name
  restOfLine
  return .directive d

end ReviewGate.Yaml.Lex
