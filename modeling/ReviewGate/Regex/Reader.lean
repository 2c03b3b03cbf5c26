import ReviewGate.Number.Numeral
import ReviewGate.Regex.CharName
import ReviewGate.Regex.Syntax

/-!
# `ReviewGate.Regex.Reader` — patterns from text

The reader resolves flags while it reads: the flags of the whole pattern can be set only at its
very start, those of a group at the start of the group. The first fault ends the reading, and which
one that is matters, since most of them only say that the text is no pattern and a few say more: a
look-behind without a fixed width, for one, is found out only when everything has been read.

Reading a group takes up a part of the stack while its contents are read. How deep the stack is
depends on what is running, so no group is refused here for being nested too deep; `nesting` tells
how deep a text goes.

## Contents
- `Fault`: why a text is no pattern. Four causes are not plain syntax errors: contradictory flags for
  the whole pattern, a number with more digits than are read, a repetition number beyond all bounds,
  and a code point that is no integer of the machine.
- `Flags`, `ReadState`: what is known while reading.
- `readEscape`, `readClass`, `readCounts`, `readFlags`: the pieces.
- `readAlternation`, `readSequence`, `readGroup`: the recursive part, bounded by the text's length.
- `compile`: the pattern of a text, in which line anchors hold at every line by default.
- `nesting`: how many groups are open at once while a text is read.
-/

namespace ReviewGate.Regex

open Number

/-- Why a text is no pattern. -/
inductive Fault
  | invalid
  | flagClash
  | numberTooLong
  | countTooLarge
  | codeTooLarge
deriving DecidableEq, Repr

/-- The flags in force. -/
structure Flags where
  ignoreCase : Bool := false
  multiLine : Bool := false
  dotAll : Bool := false
  verbose : Bool := false
  ascii : Bool := false
deriving DecidableEq, Repr

/-- How characters are compared under the flags. -/
def Flags.fold (f : Flags) : Fold :=
  if f.ignoreCase then if f.ascii then .ascii else .full else .exact

/-- What is known while reading: the text to come, the flags of the whole pattern, the groups
opened, named and closed, the first group opened inside the outermost look-behind, whether a
look-behind has no fixed width, and how many parentheses are open, now and at most. -/
structure ReadState where
  rest : List Char
  flags : Flags
  wantsFull : Bool
  groups : Nat
  names : List (String × Nat)
  widths : List (Nat × Width)
  behindFrom : Option Nat
  greatestWanted : Nat
  looseBehind : Bool
  depth : Nat
  deepest : Nat

/-- Reading steps. A fault leaves the state as it found it. -/
abbrev Reading := ExceptT Fault (StateM ReadState)

/-- The text is no pattern. -/
def refuse {α : Type} : Reading α := throw .invalid

/-- The next character, which stays. -/
def peek : Reading (Option Char) := do return (← get).rest.head?

/-- Goes past the next character. -/
def skip : Reading Unit := modify fun s => { s with rest := s.rest.drop 1 }

/-- The next character, if any. -/
def next : Reading (Option Char) := do
  let c ← peek
  skip
  return c

/-- The next character; the text must not end here. -/
def need : Reading Char := do
  match ← next with
  | some c => return c
  | none => refuse

/-- Goes past the next character if it is `c`, and says whether it was. -/
def accept (c : Char) : Reading Bool := do
  if (← peek) == some c then
    skip
    return true
  else return false

/-- The next character must be `c`. -/
def expect (c : Char) : Reading Unit := do
  if ← accept c then return () else refuse

/-- At most `limit` characters that satisfy `p`. -/
def takeUpTo (p : Char → Bool) (limit : Nat) : Reading (List Char) := do
  let s ← get
  let found := (s.rest.take limit).takeWhile p
  set { s with rest := s.rest.drop found.length }
  return found

/-- The characters up to `finish`, which is gone past; there must be at least one. -/
def takeUntil (finish : Char) : Reading (List Char) := do
  let s ← get
  let found := s.rest.takeWhile (· != finish)
  if found.isEmpty || found.length == s.rest.length then refuse
  else
    set { s with rest := s.rest.drop (found.length + 1) }
    return found

/-- The next character is looked at together with the one that it escapes: a backslash must not be
the last character of the text. -/
def checkEscape : Reading Unit := do
  if (← get).rest == ['\\'] then refuse else return ()

/-- Reads inside one more pair of parentheses. -/
def nested {α : Type} (inside : Reading α) : Reading α := do
  modify fun s => { s with depth := s.depth + 1, deepest := max s.deepest (s.depth + 1) }
  let a ← inside
  modify fun s => { s with depth := s.depth - 1 }
  return a

/-! ## Characters, escapes and sets -/

/-- The value of a hexadecimal digit. -/
def hexValue (c : Char) : Nat :=
  if c.isDigit then c.toNat - 48 else if 'a' ≤ c then c.toNat - 87 else c.toNat - 55

/-- Is `c` a hexadecimal digit? -/
def isHex (c : Char) : Bool := c.isDigit || ('a' ≤ c && c ≤ 'f') || ('A' ≤ c && c ≤ 'F')

/-- Is `c` an octal digit? -/
def isOctal (c : Char) : Bool := '0' ≤ c && c ≤ '7'

/-- The number with the given digits in a base. -/
def inBase (base : Nat) (ds : List Char) : Nat := ds.foldl (fun n c => n * base + hexValue c) 0

/-- The code point given by exactly `count` hexadecimal digits. One from 2³¹ on is not even an
integer of the machine. -/
def readHex (count : Nat) : Reading Nat := do
  let ds ← takeUpTo isHex count
  checkEscape
  let n := inBase 16 ds
  if ds.length != count then refuse
  else if n < 0x110000 then return n
  else if n < 0x80000000 then refuse
  else throw .codeTooLarge

/-- Is the code point a surrogate, which no text holds as a character? -/
def isSurrogate (n : Nat) : Bool := 0xD800 ≤ n && n ≤ 0xDFFF

/-- The characters between two code points. -/
def span (first last : Nat) : ClassItem :=
  .range (Char.ofNat (if isSurrogate first then 0xE000 else first))
    (Char.ofNat (if isSurrogate last then 0xD7FF else last))

/-- The character of a code point, if it has one. -/
def single (n : Nat) : ClassItem := if isSurrogate n then span n n else .char (Char.ofNat n)

/-- The escapes for control characters. -/
def controlEscapes : List (Char × Nat) :=
  [('a', 7), ('b', 8), ('f', 12), ('n', 10), ('r', 13), ('t', 9), ('v', 11)]

/-- The category that an escape letter stands for. -/
def categoryEscape? (ascii : Bool) : Char → Option ClassItem
  | 'd' => some (.category .digit false ascii)
  | 'D' => some (.category .digit true ascii)
  | 's' => some (.category .blank false ascii)
  | 'S' => some (.category .blank true ascii)
  | 'w' => some (.category .word false ascii)
  | 'W' => some (.category .word true ascii)
  | _ => none

/-- The anchor that an escape letter stands for. -/
def anchorEscape? (ascii : Bool) : Char → Option Anchor
  | 'A' => some .textStart
  | 'Z' => some .textEnd
  | 'b' => some (.wordEdge ascii)
  | 'B' => some (.notWordEdge ascii)
  | _ => none

/-- The code point of an escape that gives it by number or name, `c` being its letter. -/
def readCode (c : Char) : Reading (Option Nat) := do
  match c with
  | 'x' => some <$> readHex 2
  | 'u' => some <$> readHex 4
  | 'U' => some <$> readHex 8
  | 'N' => do
      expect '\x7b'
      match charNamed? (String.ofList (← takeUntil '\x7d')) with
      | some found => return some found.toNat
      | none => refuse
  | _ => return none

/-- The character that an escape of an ordinary character stands for. -/
def plainEscape (c : Char) : Reading Char := if c.isAlphanum then refuse else return c

/-- A member of a set as it is read: only a code point may begin or end a range. -/
inductive Member
  | code (n : Nat)
  | category (item : ClassItem)

/-- The item that a member is on its own. -/
def Member.item : Member → ClassItem
  | .code n => single n
  | .category item => item

/-- An escape inside a set, behind its backslash. -/
def readClassEscape (flags : Flags) : Reading Member := do
  let c ← need
  match controlEscapes.lookup c, categoryEscape? flags.ascii c with
  | some n, _ => return .code n
  | none, some item => return .category item
  | none, none =>
      match ← readCode c with
      | some n => return .code n
      | none =>
          if isOctal c then
            let n := inBase 8 (c :: (← takeUpTo isOctal 2))
            if n ≤ 255 then return .code n else refuse
          else return .code (← plainEscape c).toNat

/-- The node that compares with the character of a code point. -/
def literal (flags : Flags) (n : Nat) : Node := .one ⟨false, [single n], flags.fold⟩

/-- Is group `index` opened and closed? -/
def isClosed (s : ReadState) (index : Nat) : Bool := (s.widths.lookup index).isSome

/-- Inside a look-behind only groups may be named that were closed before it began. -/
def checkBehind (index : Nat) : Reading Unit := do
  let s ← get
  match s.behindFrom with
  | none => return ()
  | some first => if isClosed s index && index < first then return () else refuse

/-- The node that reads again what group `index` has read. -/
def backReference (flags : Flags) (index : Nat) : Reading Node := do
  let s ← get
  if isClosed s index then
    checkBehind index
    return .again index flags.fold
  else refuse

/-- A number behind a backslash, `c` being its first digit: a character by three octal digits or
a group. -/
def readNumbered (flags : Flags) (c : Char) : Reading Node := do
  let second ← takeUpTo Char.isDigit 1
  match second with
  | [d] =>
      let third ← if isOctal c && isOctal d then takeUpTo isOctal 1 else pure []
      match third with
      | [e] =>
          let n := inBase 8 [c, d, e]
          if n ≤ 255 then return literal flags n else refuse
      | _ => backReference flags (inBase 10 [c, d])
  | _ => backReference flags (inBase 10 [c])

/-- An escape outside sets, behind its backslash; says whether it is an anchor. -/
def readEscape (flags : Flags) : Reading (Node × Bool) := do
  let c ← need
  match anchorEscape? flags.ascii c, categoryEscape? flags.ascii c, controlEscapes.lookup c with
  | some a, _, _ => return (.anchor a, true)
  | none, some item, _ => return (.one ⟨false, [item], flags.fold⟩, false)
  | none, none, some n => return (literal flags n, false)
  | none, none, none =>
      match ← readCode c with
      | some n => return (literal flags n, false)
      | none =>
          if c == '0' then return (literal flags (inBase 8 (← takeUpTo isOctal 2)), false)
          else if c.isDigit then return (← readNumbered flags c, false)
          else return (literal flags (← plainEscape c).toNat, false)

/-- One member of a set, `c` being its first character. -/
def readMember (flags : Flags) (c : Char) : Reading Member :=
  if c == '\\' then readClassEscape flags else return .code c.toNat

/-- The members of a set up to its closing bracket; a bracket that comes first is a member. -/
def readMembers (flags : Flags) : Nat → List ClassItem → Reading (List ClassItem)
  | 0, _ => refuse
  | fuel + 1, found => do
      let c ← need
      if c == ']' && !found.isEmpty then return found.reverse
      let member ← readMember flags c
      if ← accept '-' then
        let d ← need
        if d == ']' then return (.char '-' :: member.item :: found).reverse
        match member, ← readMember flags d with
        | .code first, .code last =>
            if first ≤ last then readMembers flags fuel (span first last :: found) else refuse
        | _, _ => refuse
      else readMembers flags fuel (member.item :: found)

/-- A set, behind its opening bracket. -/
def readClass (flags : Flags) : Reading Node := do
  let complement ← accept '^'
  let items ← readMembers flags ((← get).rest.length + 1) []
  return .one ⟨complement, items, flags.fold⟩

/-! ## Repetition -/

/-- The number from which on a repetition number is refused. -/
def countLimit : Nat := 4294967295

/-- A repetition number. -/
def readCount (ds : List Char) : Reading Nat := do
  if maxIntDigits < ds.length then throw .numberTooLong
  let n := inBase 10 ds
  if n < countLimit then return n else throw .countTooLarge

/-- The numbers of a repetition in braces, behind the opening one; `none` if the brace is an
ordinary character. -/
def readCounts : Reading (Option (Nat × Option Nat)) := do
  let before := (← get).rest
  if before.head? == some '\x7d' then return none
  let low ← takeUpTo Char.isDigit before.length
  let comma ← accept ','
  let high ← if comma then takeUpTo Char.isDigit before.length else pure low
  if ← accept '\x7d' then
    checkEscape
    let least ← if low.isEmpty then pure 0 else readCount low
    if high.isEmpty then return some (least, none)
    let most ← readCount high
    if most < least then refuse else return some (least, some most)
  else
    modify fun s => { s with rest := before }
    return none

/-- The way of repeating that follows a repetition's numbers. -/
def readGreed : Reading Greed := do
  if ← accept '?' then return .lazy
  else if ← accept '+' then return .possessive
  else return .greedy

/-- What the last item of a sequence is, as far as repeating it is concerned. -/
inductive Role
  | anchor
  | repeated
  | item
deriving DecidableEq, Repr

/-- The items with the last one repeated; an anchor or a repetition cannot be. -/
def repeatLast (least : Nat) (most : Option Nat) :
    List (Node × Role) → Reading (List (Node × Role))
  | (n, .item) :: rest => do return (.loop least most (← readGreed) n, .repeated) :: rest
  | _ => refuse

/-! ## Flags -/

/-- Which flags a group turns on and off. -/
structure FlagChange where
  on : List Char
  off : List Char

/-- Is `c` the letter of a flag? -/
def isFlag (c : Char) : Bool := ['i', 'm', 's', 'x', 'a', 'u'].contains c

/-- The flags after a change. -/
def Flags.apply (f : Flags) (change : FlagChange) : Flags :=
  let now (c : Char) (old : Bool) : Bool := (old || change.on.contains c) && !change.off.contains c
  { ignoreCase := now 'i' f.ignoreCase
    multiLine := now 'm' f.multiLine
    dotAll := now 's' f.dotAll
    verbose := now 'x' f.verbose
    ascii := change.on.contains 'a' || (f.ascii && !change.on.contains 'u') }

/-- The flag letters from `c` on, up to a character that ends them. -/
def readFlagLetters (finish : List Char) : Nat → List Char → Char → Reading (List Char × Char)
  | 0, _, _ => refuse
  | fuel + 1, found, c =>
      if isFlag c then do
        let d ← need
        if finish.contains d then return (c :: found, d)
        else readFlagLetters finish fuel (c :: found) d
      else refuse

/-- The flags of a group, `c` being the character behind the question mark: `none` if they are
for the whole pattern, which the letters then change. -/
def readFlags (c : Char) : Reading (Option FlagChange) := do
  let bound := (← get).rest.length + 1
  let (on, finish) ←
    if c == '-' then pure ([], '-') else readFlagLetters [')', '-', ':'] bound [] c
  if on.contains 'a' && on.contains 'u' then refuse
  if finish == ')' then
    modify fun s =>
      { s with
        flags :=
          { s.flags.apply ⟨on, []⟩ with ascii := s.flags.ascii || on.contains 'a' }
        wantsFull := s.wantsFull || on.contains 'u' }
    return none
  if finish == ':' then return some ⟨on, []⟩
  let (off, _) ← readFlagLetters [':'] bound [] (← need)
  if off.any (fun d => d == 'a' || d == 'u' || on.contains d) then refuse
  return some ⟨on, off⟩

/-! ## Groups, sequences, alternatives -/

/-- Is `cs` a name for a group? -/
def isName : List Char → Bool
  | [] => false
  | c :: rest => Text.isWord c && !Text.isDigit c && rest.all Text.isWord

/-- Goes past a comment in a pattern with free layout. -/
def skipRemark : Nat → Reading Unit
  | 0 => return ()
  | fuel + 1 => do
      match ← next with
      | none => return ()
      | some '\n' => return ()
      | some '\\' => do
          let _ ← need
          skipRemark fuel
      | some _ => skipRemark fuel

/-- Goes past a comment in parentheses. -/
def skipComment : Nat → Reading Unit
  | 0 => refuse
  | fuel + 1 => do
      match ← need with
      | ')' => return ()
      | '\\' => do
          let _ ← need
          skipComment fuel
      | _ => skipComment fuel

/-- The number of the group that a name stands for. -/
def groupNamed (name : List Char) : Reading Nat := do
  if !isName name then refuse
  match (← get).names.lookup (String.ofList name) with
  | some index => return index
  | none => refuse

/-- Opens a group. -/
def openGroup (name : Option (List Char)) : Reading Nat := do
  let s ← get
  let index := s.groups + 1
  match name with
  | none => set { s with groups := index }
  | some cs =>
      let name := String.ofList cs
      if (s.names.lookup name).isSome then refuse
      else set { s with groups := index, names := (name, index) :: s.names }
  return index

/-- Closes a group with the given body. -/
def closeGroup (index : Nat) (body : Node) : Reading Unit :=
  modify fun s => { s with widths := (index, body.width s.widths) :: s.widths }

/-- The number of groups that a pattern may have. -/
def maxGroups : Nat := 1073741823

/-- The group that a condition names or numbers. -/
def readCondition : Reading Nat := do
  let cs ← takeUntil ')'
  if isName cs then groupNamed cs
  else match readInt cs with
    | some (.ofNat index) =>
        if index == 0 || maxGroups ≤ index then refuse
        modify fun s => { s with greatestWanted := max s.greatestWanted index }
        return index
    | _ => refuse

/-- Is `c` layout in a pattern with free layout? -/
def isLayout (c : Char) : Bool := c == ' ' || (9 ≤ c.toNat && c.toNat ≤ 13)

mutual

/-- Alternatives up to a closing parenthesis or the end. -/
def readAlternation : Nat → Flags → Bool → Bool → Reading Node
  | 0, _, _, _ => refuse
  | fuel + 1, flags, top, first => do
      let n ← readSequence fuel flags top first []
      if ← accept '|' then
        let whole := (← get).flags
        return .alt n (← readAlternation fuel (if top then whole else flags) top false)
      else return n

/-- A sequence of items, `found` (reversed) having been read. `top` says that it is not inside a
group, `first` that flags for the whole pattern may still come. -/
def readSequence : Nat → Flags → Bool → Bool → List (Node × Role) → Reading Node
  | 0, _, _, _, _ => refuse
  | fuel + 1, flags, top, first, found => do
      let push (n : Node) (role : Role) : Reading Node :=
        readSequence fuel flags top first ((n, role) :: found)
      let done := Node.ofList (found.map (·.1)).reverse
      match ← peek with
      | none => return done
      | some '|' => return done
      | some ')' => return done
      | some c => do
          skip
          if flags.verbose && isLayout c then readSequence fuel flags top first found
          else if flags.verbose && c == '#' then
            skipRemark ((← get).rest.length + 1)
            readSequence fuel flags top first found
          else match c with
            | '\\' => do
                let (n, isAnchor) ← readEscape flags
                push n (if isAnchor then .anchor else .item)
            | '[' => do push (← readClass flags) .item
            | '.' => push (.one (if flags.dotAll then .all else .notNewline)) .item
            | '^' => push (.anchor (if flags.multiLine then .lineStart else .textStart)) .anchor
            | '$' => push (.anchor (if flags.multiLine then .lineEnd else .lastLineEnd)) .anchor
            | '*' => do readSequence fuel flags top first (← repeatLast 0 none found)
            | '+' => do readSequence fuel flags top first (← repeatLast 1 none found)
            | '?' => do readSequence fuel flags top first (← repeatLast 0 (some 1) found)
            | '\x7b' => do
                match ← readCounts with
                | none => push (literal flags c.toNat) .item
                | some (least, most) =>
                    readSequence fuel flags top first (← repeatLast least most found)
            | '(' => do
                match ← readGroup fuel flags (top && first && found.isEmpty) with
                | some n => push n .item
                | none => do
                    let whole := (← get).flags
                    readSequence fuel (if top then whole else flags) top first found
            | c => push (literal flags c.toNat) .item

/-- A group behind its opening parenthesis; `none` for a comment and for flags of the whole
pattern, which are refused unless `mayFlag`. -/
def readGroup : Nat → Flags → Bool → Reading (Option Node)
  | 0, _, _ => refuse
  | fuel + 1, flags, mayFlag => do
      let inside (flags : Flags) : Reading Node := do
        let n ← nested (readAlternation fuel flags false false)
        expect ')'
        return n
      let capturing (name : Option (List Char)) : Reading (Option Node) := do
        let index ← openGroup name
        let body ← inside flags
        closeGroup index body
        return some (.group index body)
      if !(← accept '?') then capturing none
      else match ← need with
        | 'P' => do
            match ← need with
            | '<' => do
                let name ← takeUntil '>'
                if isName name then capturing (some name) else refuse
            | '=' => do return some (← backReference flags (← groupNamed (← takeUntil ')')))
            | _ => refuse
        | ':' => do return some (← inside flags)
        | '#' => do
            skipComment ((← get).rest.length + 1)
            return none
        | '=' => do return some (.ahead false (← inside flags))
        | '!' => do return some (.ahead true (← inside flags))
        | '>' => do return some (.atomic (← inside flags))
        | '<' => do
            let kind ← need
            if kind != '=' && kind != '!' then refuse
            let outer := (← get).behindFrom
            modify fun s => { s with behindFrom := some (outer.getD (s.groups + 1)) }
            let body ← inside flags
            modify fun s => { s with behindFrom := outer }
            let width := body.width (← get).widths
            if width.most != some width.least || countLimit < width.least then
              modify fun s => { s with looseBehind := true }
            return some (.behind (kind == '!') width.least body)
        | '(' => do
            let index ← readCondition
            match (← get).behindFrom with
            | some _ => checkBehind index
            | none => pure ()
            let (present, absent) ← nested do
              let present ← readSequence fuel flags false false []
              if ← accept '|' then return (present, ← readSequence fuel flags false false [])
              else return (present, .empty)
            expect ')'
            return some (.ifGroup index present absent)
        | c => do
            match ← readFlags c with
            | none => if mayFlag then return none else refuse
            | some change => return some (← inside (flags.apply change))

end

/-- The whole pattern. -/
def readPattern (bound : Nat) (flags : Flags) : Reading Node := do
  let n ← readAlternation bound flags true true
  let s ← get
  if s.flags.ascii && s.wantsFull then throw .flagClash
  if !s.rest.isEmpty || s.groups < s.greatestWanted || s.looseBehind then refuse
  return n

/-- Reads a text under the given flags: its pattern, and what is known in the end. -/
def read (flags : Flags) (cs : List Char) : Except Fault Node × ReadState :=
  (readPattern (2 * cs.length + 3) flags).run.run
    { rest := cs, flags, wantsFull := false, groups := 0, names := [], widths := [],
      behindFrom := none, greatestWanted := 0, looseBehind := false, depth := 0, deepest := 0 }

/-- The pattern of a text under the given flags. -/
def compileWith (flags : Flags) (cs : List Char) : Except Fault Node := (read flags cs).1

/-- The pattern of a text, with line anchors that hold at every line. -/
def compile (pattern : String) : Except Fault Node :=
  compileWith { multiLine := true } pattern.toList

/-- How many pairs of parentheses are open at once, at most, while a pattern is read. -/
def nesting (pattern : String) : Nat := (read { multiLine := true } pattern.toList).2.deepest

end ReviewGate.Regex
