import ReviewGate.Document.Basic
import ReviewGate.Number.Numeral

/-!
# `ReviewGate.Json.Reader` — documents from JSON text

The grammar of RFC 8259 with three more numbers, `NaN`, `Infinity` and `-Infinity`. A number
without point and exponent is an integer of any size up to the greatest length of an integer
numeral; of several members with one name the last counts, in the place of the first.

## Contents
- `Json.Fault`: why a text is refused.
- `readUnits`, `joinUnits`, `readString`: the rest of a string behind its opening mark.
- `readNumber`: a number.
- `readValue`, `readItems`, `readMembers`: values and the insides of arrays and objects.
- `Json.parse`: a whole text.
-/

namespace ReviewGate.Json

open Number

/-- Why a text is no JSON document. -/
inductive Fault
  | malformed
  | numberTooLong
deriving DecidableEq, Repr

/-- Is `c` whitespace between tokens? -/
def isGap (c : Char) : Bool := c == ' ' || c == '\n' || c == '\r' || c == '\t'

/-- The text behind leading whitespace. -/
def skipGap (cs : List Char) : List Char := cs.dropWhile isGap

/-- The value of a hexadecimal digit. -/
def hexValue? (c : Char) : Option Nat :=
  if '0' ≤ c ∧ c ≤ '9' then some (c.toNat - 48)
  else if 'a' ≤ c ∧ c ≤ 'f' then some (c.toNat - 87)
  else if 'A' ≤ c ∧ c ≤ 'F' then some (c.toNat - 55)
  else none

/-- The number with four hexadecimal digits. -/
def hexUnit? (a b c d : Char) : Option Nat := do
  let a ← hexValue? a
  let b ← hexValue? b
  let c ← hexValue? c
  let d ← hexValue? d
  return ((a * 16 + b) * 16 + c) * 16 + d

/-- Is `n` the first unit of a pair? -/
def isHighUnit (n : Nat) : Bool := 0xD800 ≤ n && n < 0xDC00

/-- Is `n` the second unit of a pair? -/
def isLowUnit (n : Nat) : Bool := 0xDC00 ≤ n && n < 0xE000

/-- The character of a unit that stands alone; half a pair is no character. -/
def unitChar (n : Nat) : Char :=
  if isHighUnit n || isLowUnit n then Char.ofNat 0xFFFD else Char.ofNat n

/-- The character that a one-letter escape stands for. -/
def escapeTarget? : Char → Option Char
  | '"' => some '"'
  | '\\' => some '\\'
  | '/' => some '/'
  | 'b' => some (Char.ofNat 8)
  | 'f' => some (Char.ofNat 12)
  | 'n' => some '\n'
  | 'r' => some '\r'
  | 't' => some '\t'
  | _ => none

/-- The code units up to the closing quotation mark, `read` (reversed) having been read, and what
follows the mark. A character that is not escaped counts as one unit. -/
def readUnits (read : List Nat) : List Char → Option (List Nat × List Char)
  | [] => none
  | '"' :: rest => some (read.reverse, rest)
  | '\\' :: 'u' :: a :: b :: c :: d :: rest =>
      match hexUnit? a b c d with
      | some n => readUnits (n :: read) rest
      | none => none
  | '\\' :: c :: rest =>
      match escapeTarget? c with
      | some target => readUnits (target.toNat :: read) rest
      | none => none
  | c :: rest => if c.toNat < 32 then none else readUnits (c.toNat :: read) rest

/-- The characters of code units: a pair of halves is one character. -/
def joinUnits : List Nat → List Char
  | [] => []
  | [n] => [unitChar n]
  | n :: m :: rest =>
      if isHighUnit n && isLowUnit m then
        Char.ofNat (0x10000 + (n - 0xD800) * 0x400 + (m - 0xDC00)) :: joinUnits rest
      else unitChar n :: joinUnits (m :: rest)

/-- The characters up to the closing quotation mark and what follows it. -/
def readString (cs : List Char) : Option (List Char × List Char) :=
  (readUnits [] cs).map fun (units, rest) => (joinUnits units, rest)

/-- The ASCII digits at the front and what follows. -/
def spanDigits (cs : List Char) : List Char × List Char := cs.span Char.isDigit

/-- The natural number that ASCII digits spell. -/
def digitsValue (ds : List Char) : Nat := ofDigits (ds.map fun c => c.toNat - 48)

/-- The digits behind a point; nothing is read unless a digit follows the point. -/
def readPlaces : List Char → List Char × List Char
  | '.' :: rest =>
      match spanDigits rest with
      | ([], _) => ([], '.' :: rest)
      | (ds, after) => (ds, after)
  | cs => ([], cs)

/-- The exponent behind its letter; nothing is read unless a digit follows. -/
def readPower : List Char → Option Int × List Char
  | c :: rest =>
      if c == 'e' || c == 'E' then
        let (negative, body) := readSign rest
        match spanDigits body with
        | ([], _) => (none, c :: rest)
        | (ds, after) =>
            (some (if negative then -(digitsValue ds : Int) else digitsValue ds), after)
      else (none, c :: rest)
  | [] => (none, [])

/-- The digits of a number before its point: a lone zero or digits that do not start with zero. -/
def readWhole : List Char → Option (List Char × List Char)
  | '0' :: rest => some (['0'], rest)
  | cs =>
      match spanDigits cs with
      | ([], _) => none
      | (ds, after) => some (ds, after)

/-- The number at the front, behind its sign. -/
def readMagnitude (negative : Bool) (cs : List Char) : Except Fault (Document × List Char) :=
  match readWhole cs with
  | none => .error .malformed
  | some (whole, rest) =>
      let (places, rest) := readPlaces rest
      let (power, rest) := readPower rest
      if places.isEmpty && power.isNone then
        if maxIntDigits < whole.length then .error .numberTooLong
        else
          let n : Int := digitsValue whole
          .ok (.int (if negative then -n else n), rest)
      else
        let x := Binary64.ofDecimal negative (digitsValue (whole ++ places))
          (power.getD 0 - places.length)
        .ok (.float x, rest)

/-- The characters behind a word that stands at the front. -/
def readWord (word cs : List Char) : Option (List Char) :=
  if word.isPrefixOf cs then some (cs.drop word.length) else none

/-- The number, with its sign, at the front. -/
def readNumber : List Char → Except Fault (Document × List Char)
  | '-' :: rest =>
      match readWord "Infinity".toList rest with
      | some after => .ok (.float (.infinite true), after)
      | none => readMagnitude true rest
  | cs => readMagnitude false cs

/-- The words that are values. -/
def words : List (String × Document) :=
  [("null", .null), ("true", .bool true), ("false", .bool false), ("NaN", .float .nan),
   ("Infinity", .float (.infinite false))]

/-- The word or number at the front. -/
def readScalar (cs : List Char) : Except Fault (Document × List Char) :=
  match words.findSome? fun (word, d) => (readWord word.toList cs).map (d, ·) with
  | some found => .ok found
  | none => readNumber cs

mutual

/-- The value at the front and what follows, nested at most `fuel` deep. -/
def readValue : Nat → List Char → Except Fault (Document × List Char)
  | 0, _ => .error .malformed
  | _ + 1, [] => .error .malformed
  | _ + 1, '"' :: rest =>
      match readString rest with
      | some (s, after) => .ok (.text (String.ofList s), after)
      | none => .error .malformed
  | fuel + 1, '[' :: rest =>
      match skipGap rest with
      | ']' :: after => .ok (.list [], after)
      | cs => do
          let (items, after) ← readItems fuel cs
          return (.list items, after)
  | fuel + 1, '\x7b' :: rest =>
      match skipGap rest with
      | '\x7d' :: after => .ok (.map [], after)
      | cs => do
          let (entries, after) ← readMembers fuel cs
          return (.map (Document.collect entries), after)
  | _ + 1, cs => readScalar cs

/-- The values up to the closing bracket and what follows it. -/
def readItems : Nat → List Char → Except Fault (List Document × List Char)
  | 0, _ => .error .malformed
  | fuel + 1, cs => do
      let (item, rest) ← readValue fuel cs
      match skipGap rest with
      | ']' :: after => return ([item], after)
      | ',' :: after =>
          let (items, after) ← readItems fuel (skipGap after)
          return (item :: items, after)
      | _ => .error .malformed

/-- The members up to the closing brace and what follows it. -/
def readMembers : Nat → List Char → Except Fault (List (Document × Document) × List Char)
  | 0, _ => .error .malformed
  | fuel + 1, cs =>
      match cs with
      | '"' :: rest =>
          match readString rest with
          | none => .error .malformed
          | some (name, rest) =>
              match skipGap rest with
              | ':' :: rest => do
                  let (value, rest) ← readValue fuel (skipGap rest)
                  let entry := (Document.text (String.ofList name), value)
                  match skipGap rest with
                  | '\x7d' :: after => return ([entry], after)
                  | ',' :: after =>
                      let (entries, after) ← readMembers fuel (skipGap after)
                      return (entry :: entries, after)
                  | _ => .error .malformed
              | _ => .error .malformed
      | _ => .error .malformed

end

/-- The document that a text denotes. -/
def parseChars (cs : List Char) : Except Fault Document := do
  let (d, rest) ← readValue (cs.length + 1) (skipGap cs)
  if (skipGap rest).isEmpty then return d else .error .malformed

/-- The document that a string denotes. -/
def parse (s : String) : Except Fault Document := parseChars s.toList

end ReviewGate.Json
