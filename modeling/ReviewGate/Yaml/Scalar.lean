import ReviewGate.Document.Number
import ReviewGate.Number.Arithmetic
import ReviewGate.Text.Base64
import ReviewGate.Text.Case
import ReviewGate.Yaml.Tag

/-!
# `ReviewGate.Yaml.Scalar` — the values of scalars

## Contents
- `truthValue`, `integer`, `double`, `timestamp`, `binary`: the value of a text of a given type.
- `scalarValue`: the value of a scalar.
-/

namespace ReviewGate.Yaml

open Number Text

/-- The truth value of a text. -/
def truthValue (s : String) : Except Fault Document :=
  let word := toLower s
  if ["yes", "true", "on"].contains word then .ok (.bool true)
  else if ["no", "false", "off"].contains word then .ok (.bool false)
  else .error .noEntry

/-- A text without underscores, and whether it starts with a minus sign; it must not be empty. -/
def signed (cs : List Char) : Except Fault (Bool × List Char) :=
  match cs.filter (· != '_') with
  | [] => .error .noItem
  | '-' :: rest => .ok (true, rest)
  | '+' :: rest => .ok (false, rest)
  | rest => .ok (false, rest)

/-! ## Integers -/

/-- A decimal integer. -/
def decimal (cs : List Char) : Except Fault Int :=
  match readInt cs with
  | some n => .ok n
  | none =>
      let ds := (readDigits (readSign (unpad cs)).2)
      if ds.2.isEmpty && maxIntDigits < ds.1.length then
        .error (.badScalar (.tooLong ds.1.length))
      else .error (.badScalar (.integer 10 (String.ofList cs)))

/-- The value of a digit in bases up to sixteen. -/
def digitIn? (base : Nat) (c : Char) : Option Nat :=
  let v := match digitValue? c with
    | some v => some v
    | none => if isHex c then some (hexValue c) else none
  v.filter (· < base)

/-- The text without the sign of its base at the front. -/
def afterBaseSign (base : Nat) (cs : List Char) : List Char :=
  let letter := if base == 2 then 'b' else if base == 8 then 'o' else 'x'
  match cs with
  | '0' :: c :: rest => if c.toLower == letter then rest else cs
  | _ => cs

/-- An integer in another base. -/
def inBase (base : Nat) (cs : List Char) : Except Fault Int :=
  let (negative, body) := readSign (unpad cs)
  let ds := (afterBaseSign base body).map (digitIn? base)
  if ds.isEmpty || ds.contains none then .error (.badScalar (.integer base (String.ofList cs)))
  else
    let n : Int := (ds.foldl (fun n d => n * base + d.getD 0) 0 : Nat)
    .ok (if negative then -n else n)

/-- The number with the given digits to base sixty. -/
def sixties (digits : List Int) : Int := digits.foldl (fun n d => n * 60 + d) 0

/-- The magnitude of an integer. -/
def magnitude (cs : List Char) : Except Fault Int :=
  match cs with
  | [] => .error .noItem
  | ['0'] => .ok 0
  | '0' :: 'b' :: rest => inBase 2 rest
  | '0' :: 'x' :: rest => inBase 16 rest
  | '0' :: _ => inBase 8 cs
  | _ =>
      if cs.contains ':' then do return sixties (← (cs.splitOn ':').mapM decimal)
      else decimal cs

/-- The integer of a text. -/
def integer (cs : List Char) : Except Fault Document := do
  let (negative, body) ← signed cs
  let n ← magnitude body
  return .int (if negative then -n else n)

/-! ## Doubles -/

/-- A decimal numeral. -/
def numeral (cs : List Char) : Except Fault Binary64 :=
  match readDouble cs with
  | some x => .ok x
  | none => .error (.badScalar (.float (String.ofList cs)))

/-- The sum of the parts, the last of which counts once, the one before it sixty times and so on;
summed from the last one on. -/
def sumSixties (parts : List Binary64) : Binary64 :=
  (parts.reverse.foldl
    (fun (sum, weight) part => (sum.add (part.mul (Binary64.ofInt weight)), weight * 60))
    (Binary64.zero false, (1 : Int))).1

/-- The double of a text. -/
def double (cs : List Char) : Except Fault Document := do
  let (negative, body) ← signed (toLower (String.ofList cs)).toList
  let x ←
    if body == ".inf".toList then pure (.infinite false)
    else if body == ".nan".toList then pure .nan
    else if body.contains ':' then do pure (sumSixties (← (body.splitOn ':').mapM numeral))
    else numeral body
  return .float (if negative then x.negate else x)

/-! ## Others -/

/-- The date or moment of a text. -/
def timestamp (cs : List Char) : Except Fault Document :=
  match Timestamp.read? cs with
  | some t => t.toDocument
  | none => .error .noMember

/-- The bytes of a text. -/
def binary (cs : List Char) : Except Fault Document :=
  if cs.all fun c => c.toNat < 128 then
    match Base64.decode cs with
    | some data => .ok (.bytes data)
    | none => .error .badYaml
  else .error .badYaml

/-- The value of a scalar. -/
def scalarValue (tag : Tag) (s : String) : Except Fault Document :=
  match tag with
  | .null => .ok .null
  | .bool => truthValue s
  | .int => integer s.toList
  | .float => double s.toList
  | .timestamp => timestamp s.toList
  | .text => .ok (.text s)
  | .binary => binary s.toList
  | _ => .error .badYaml

end ReviewGate.Yaml
