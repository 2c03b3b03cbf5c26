import ReviewGate.Number.Binary64
import ReviewGate.Text.Character

/-!
# `ReviewGate.Number.Numeral` — numbers written in text

A numeral may have whitespace around it, a sign, digits of any script, and single underscores
between digits. The information separators are whitespace of a text, but not around a numeral.

## Contents
- `maxIntDigits`: the longest integer numeral that is read.
- `isPadding`, `unpad`: the whitespace around a numeral.
- `readDigits`: a run of digits with underscores.
- `readInt`: an integer numeral.
- `readDouble`: a decimal numeral, an infinity or no number.
-/

namespace ReviewGate.Number

open Text

/-- The greatest number of digits that an integer numeral may have. -/
def maxIntDigits : Nat := 4300

/-- Is `c` whitespace that may stand around a numeral? -/
def isPadding (c : Char) : Bool := isBlank c && !(28 ≤ c.toNat && c.toNat ≤ 31)

/-- A numeral without the whitespace around it. -/
def unpad (cs : List Char) : List Char :=
  ((cs.dropWhile isPadding).reverse.dropWhile isPadding).reverse

/-- The digits at the front, an underscore being allowed between two of them; `digits` (reversed)
have been read. Gives the digit values and what follows. -/
def readDigitsFrom (digits : List Nat) : List Char → List Nat × List Char
  | [] => (digits.reverse, [])
  | '_' :: c :: rest =>
      match digits, digitValue? c with
      | _ :: _, some d => readDigitsFrom (d :: digits) rest
      | _, _ => (digits.reverse, '_' :: c :: rest)
  | c :: rest =>
      match digitValue? c with
      | some d => readDigitsFrom (d :: digits) rest
      | none => (digits.reverse, c :: rest)

/-- The digits at the front with what follows. -/
def readDigits (cs : List Char) : List Nat × List Char := readDigitsFrom [] cs

/-- The natural number with the given decimal digits. -/
def ofDigits (ds : List Nat) : Nat := ds.foldl (fun n d => n * 10 + d) 0

/-- The sign at the front, if any: is it a minus, and what follows. -/
def readSign : List Char → Bool × List Char
  | '-' :: rest => (true, rest)
  | '+' :: rest => (false, rest)
  | cs => (false, cs)

/-- The integer that a text spells, `none` if it is no integer numeral or a too long one. -/
def readInt (cs : List Char) : Option Int :=
  let (negative, body) := readSign (unpad cs)
  match readDigits body with
  | ([], _) => none
  | (ds, []) =>
      if maxIntDigits < ds.length then none
      else some (if negative then -(ofDigits ds : Int) else ofDigits ds)
  | _ => none

/-- The decimal exponent at the end of a numeral: nothing, or the letter and a signed integer. -/
def readExponent : List Char → Option Int
  | [] => some 0
  | c :: rest =>
      if c == 'e' || c == 'E' then
        let (negative, body) := readSign rest
        match readDigits body with
        | ([], _) => none
        | (ds, []) => some (if negative then -(ofDigits ds : Int) else ofDigits ds)
        | _ => none
      else none

/-- The double that a text spells, `none` if it is no numeral. -/
def readDouble (cs : List Char) : Option Binary64 :=
  let (negative, body) := readSign (unpad cs)
  let word := String.ofList (body.map Char.toLower)
  if word == "inf" || word == "infinity" then some (.infinite negative)
  else if word == "nan" then some .nan
  else
    let (whole, rest) := readDigits body
    let (places, rest) := match rest with
      | '.' :: after =>
          -- an underscore may not stand beside the point
          match after with
          | '_' :: _ => ([], '_' :: after)
          | _ => readDigits after
      | _ => ([], rest)
    if whole.isEmpty && places.isEmpty then none
    else (readExponent rest).map fun e =>
      Binary64.ofDecimal negative (ofDigits (whole ++ places)) (e - places.length)

end ReviewGate.Number
