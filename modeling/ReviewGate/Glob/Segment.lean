/-!
# `ReviewGate.Glob.Segment` — one name of a path

A segment of a glob covers one name of a path. `*` stands for any run of characters, `?` for one
character, `[…]` for one character of a set. None of the three covers a dot at the start of a
name.

## Contents
- `SetItem`, `Piece`: the parts of a segment.
- `readSet`: a set behind its opening bracket; a set that holds a slash or is not closed is none.
- `Segment`: a run of pieces, or `**`.
- `matchPieces`, `coversName`: does a segment cover a name?
-/

namespace ReviewGate.Glob

/-- A member of a set of characters. -/
inductive SetItem
  | char (c : Char)
  | range (first last : Char)
  | named (holds : Char → Bool)

/-- A part of a segment. -/
inductive Piece
  | char (c : Char)
  | any
  | star
  | set (complement : Bool) (items : List SetItem)

/-- The sets that have a name, over ASCII. -/
def namedSets : List (String × (Char → Bool)) :=
  let within (first last : Nat) (c : Char) : Bool := first ≤ c.toNat && c.toNat ≤ last
  [("alnum", Char.isAlphanum), ("alpha", Char.isAlpha), ("ascii", within 0 127),
   ("blank", fun c => c == ' ' || c == '\t'), ("cntrl", fun c => within 0 31 c || c.toNat == 127),
   ("digit", Char.isDigit), ("graph", within 33 126), ("lower", Char.isLower),
   ("print", within 32 126),
   ("punct", fun c => within 33 47 c || within 58 64 c || within 91 96 c || within 123 126 c),
   ("space", fun c => c == ' ' || within 9 13 c), ("upper", Char.isUpper),
   ("word", fun c => c.isAlphanum || c == '_'),
   ("xdigit", fun c => c.isDigit || within 65 70 c || within 97 102 c)]

/-- A named set behind the bracket that opens it. -/
def readNamed (cs : List Char) : Option (SetItem × List Char) :=
  namedSets.findSome? fun (name, holds) =>
    let form := (':' :: name.toList) ++ [':', ']']
    if form.isPrefixOf cs then some (.named holds, cs.drop form.length) else none

/-- Where the reader of a set stands: whether a hyphen may form a range with the last item, and
whether it has just read a hyphen that does. -/
inductive SetState
  | plain
  | afterItem (c : Char)
  | afterHyphen (first : Char)
  | afterRange

/-- The items with the character `c` added in the given state: alone, or as the end of a range.
A range that runs backwards is left out, both ends included. -/
def addChar (items : List SetItem) (state : SetState) (c : Char) : List SetItem × SetState :=
  match state with
  | .afterHyphen first =>
      if first ≤ c then (.range first c :: items, .afterRange) else (items, .afterRange)
  | _ => (items, .afterItem c)

/-- The items with the one that the state holds back. -/
def settle (items : List SetItem) : SetState → List SetItem
  | .afterItem c => .char c :: items
  | .afterHyphen first => .char '-' :: .char first :: items
  | _ => items

/-- The items of a set up to its closing bracket, `first` saying that none has been read. -/
def readItems : Nat → (first : Bool) → List SetItem → SetState → List Char →
    Option (List SetItem × List Char)
  | 0, _, _, _, _ => none
  | _ + 1, _, _, _, [] => none
  | fuel + 1, first, items, state, c :: rest =>
      let add (c : Char) (rest : List Char) :=
        let (items, state) := match state with
          | .afterItem d => addChar (.char d :: items) .plain c
          | _ => addChar items state c
        readItems fuel false items state rest
      if c = ']' && !first then some (settle items state, rest)
      else if c = '-' && !first then
        match state with
        | .afterItem d => readItems fuel false items (.afterHyphen d) rest
        | .afterRange => readItems fuel false items (.afterItem '-') rest
        | _ => add '-' rest
      else if c = '[' then
        match readNamed rest with
        | some (item, after) => readItems fuel false (item :: settle items state) .plain after
        | none => add '[' rest
      else if c = '/' then none
      else if c = '\\' then
        match rest with
        | [] => none
        | '/' :: _ => none
        | d :: rest => add d rest
      else add c rest

/-- A set behind its opening bracket. -/
def readSet (cs : List Char) : Option (Piece × List Char) :=
  let (complement, body) := match cs with
    | '!' :: rest => (true, rest)
    | '^' :: rest => (true, rest)
    | _ => (false, cs)
  (readItems (body.length + 1) true [] .plain body).map fun (items, rest) =>
    (.set complement items, rest)

/-- Is `c` in the item? -/
def SetItem.contains : SetItem → Char → Bool
  | .char d, c => c == d
  | .range first last, c => first ≤ c && c ≤ last
  | .named holds, c => holds c

/-- Is `c` in the set? -/
def inSet (complement : Bool) (items : List SetItem) (c : Char) : Bool :=
  items.any (·.contains c) != complement

/-- A segment of a glob. -/
inductive Segment
  | name (pieces : List Piece)
  | anyNames

/-- Does some end of the characters, all of them and none included, satisfy `rest`? -/
def anySuffix (rest : List Char → Bool) : List Char → Bool
  | [] => rest []
  | c :: cs => rest (c :: cs) || anySuffix rest cs

/-- Do the pieces cover exactly the characters? -/
def matchPieces : List Piece → List Char → Bool
  | [], cs => cs.isEmpty
  | .star :: pieces, cs => anySuffix (matchPieces pieces) cs
  | .any :: pieces, _ :: cs => matchPieces pieces cs
  | .char d :: pieces, c :: cs => c == d && matchPieces pieces cs
  | .set complement items :: pieces, c :: cs =>
      inSet complement items c && matchPieces pieces cs
  | _ :: _, [] => false

/-- Does a name start with a dot? -/
def isHidden : List Char → Bool
  | '.' :: _ => true
  | _ => false

/-- Must the first piece not cover a dot? -/
def guardsDot : List Piece → Bool
  | [] => false
  | .char _ :: _ => false
  | _ :: _ => true

/-- Do the pieces cover the name? -/
def coversName (pieces : List Piece) (name : List Char) : Bool :=
  !(guardsDot pieces && isHidden name) && matchPieces pieces name

end ReviewGate.Glob
