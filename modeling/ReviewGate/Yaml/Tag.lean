import ReviewGate.Yaml.Cursor
import ReviewGate.Yaml.Timestamp

/-!
# `ReviewGate.Yaml.Tag` — the types of YAML values

A plain scalar without a tag has the first type whose spellings include its text.

## Contents
- `Tag`, `Tag.ofText`: the types and their names.
- `isInt`, `isFloat`: the spellings of numbers.
- `Tag.ofPlain`: the type of a plain scalar.
-/

namespace ReviewGate.Yaml

/-- The type of a value. -/
inductive Tag
  | null
  | bool
  | int
  | float
  | timestamp
  | text
  | binary
  | sequence
  | mapping
  | set
  /-- Entries in order. -/
  | orderedMap
  | pairs
  /-- The key whose value's entries belong to the mapping itself. -/
  | merge
  /-- The key whose value stands for the mapping where a scalar is needed. -/
  | standIn
  | unknown
deriving DecidableEq, Repr

/-- The names of the types. -/
def tagNames : List (String × Tag) :=
  [("null", .null), ("bool", .bool), ("int", .int), ("float", .float), ("timestamp", .timestamp),
   ("str", .text), ("binary", .binary), ("seq", .sequence), ("map", .mapping), ("set", .set),
   ("omap", .orderedMap), ("pairs", .pairs), ("merge", .merge), ("value", .standIn)]

/-- What the names of the types start with. -/
def tagSpace : String := "tag:yaml.org,2002:"

/-- The type of a name. -/
def Tag.ofText (s : String) : Tag :=
  if tagSpace.toList.isPrefixOf s.toList then
    (tagNames.lookup (String.ofList (s.toList.drop tagSpace.length))).getD .unknown
  else .unknown

/-! ## Numbers -/

/-- What follows the sign at the front, if any. -/
def afterSign : List Char → List Char
  | '+' :: rest => rest
  | '-' :: rest => rest
  | cs => cs

/-- Is `c` a digit or an underscore? -/
def isDigitOrBar (c : Char) : Bool := c.isDigit || c == '_'

/-- What follows the groups of a number to base sixty, of which there is at least one: a colon and
at most 59, in one or two digits. -/
def afterSixties : Nat → List Char → Option (List Char)
  | 0, _ => none
  | fuel + 1, cs =>
      match cs with
      | ':' :: a :: rest =>
          if !a.isDigit then none
          else
            let rest := match rest with
              | b :: rest' => if a ≤ '5' && b.isDigit then rest' else rest
              | [] => []
            if rest.head? == some ':' then afterSixties fuel rest else some rest
      | _ => none

/-- Does the text spell an integer? -/
def isInt (cs : List Char) : Bool :=
  match afterSign cs with
  | '0' :: 'b' :: rest => !rest.isEmpty && rest.all fun c => c == '0' || c == '1' || c == '_'
  | '0' :: 'x' :: rest => !rest.isEmpty && rest.all fun c => isHex c || c == '_'
  | '0' :: rest => rest.all fun c => ('0' ≤ c && c ≤ '7') || c == '_'
  | c :: rest =>
      '1' ≤ c && c ≤ '9' &&
        (match rest.dropWhile isDigitOrBar with
          | [] => true
          | behind => afterSixties behind.length behind == some [])
  | [] => false

/-- Is this nothing, or an exponent with its sign? -/
def isExponentOrNothing : List Char → Bool
  | [] => true
  | e :: s :: c :: rest =>
      (e == 'e' || e == 'E') && (s == '+' || s == '-') && (c :: rest).all Char.isDigit
  | _ => false

/-- The parts of a number with a point, behind its sign: `[0-9][0-9_]*\.[0-9_]*` and perhaps an
exponent, or groups to base sixty before the point and no exponent. -/
def isPointed (cs : List Char) : Bool :=
  match cs with
  | c :: rest =>
      c.isDigit &&
        (match rest.dropWhile isDigitOrBar with
          | '.' :: places => isExponentOrNothing (places.dropWhile isDigitOrBar)
          | behind =>
              match afterSixties behind.length behind with
              | some ('.' :: places) => places.all isDigitOrBar
              | _ => false)
  | [] => false

/-- Does the text spell a double? -/
def isFloat (cs : List Char) : Bool :=
  let body := afterSign cs
  let pointFirst := match cs with
    | '.' :: c :: rest => c.isDigit && isExponentOrNothing (rest.dropWhile isDigitOrBar)
    | _ => false
  pointFirst || isPointed body || [".inf", ".Inf", ".INF"].contains (String.ofList body) ||
    [".nan", ".NaN", ".NAN"].contains (String.ofList cs)

/-! ## Plain scalars -/

/-- The spellings of the truth values. -/
def truthWords : List String :=
  ["yes", "Yes", "YES", "no", "No", "NO", "true", "True", "TRUE", "false", "False", "FALSE", "on",
   "On", "ON", "off", "Off", "OFF"]

/-- The spellings of null. -/
def nullWords : List String := ["", "~", "null", "Null", "NULL"]

/-- The type of a plain scalar. -/
def Tag.ofPlain (s : String) : Tag :=
  let cs := s.toList
  if truthWords.contains s then .bool
  else if isFloat cs then .float
  else if isInt cs then .int
  else if s == "<<" then .merge
  else if nullWords.contains s then .null
  else if Timestamp.isTimestamp cs then .timestamp
  else if s == "=" then .standIn
  else if s == "!" || s == "&" || s == "*" then .unknown
  else .text

end ReviewGate.Yaml
