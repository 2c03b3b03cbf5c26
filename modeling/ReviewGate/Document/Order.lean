import ReviewGate.Document.Basic

/-!
# `ReviewGate.Document.Order` — documents in order

Numbers are ordered by value, texts by code point. Two values can be compared if they are both
numbers, both texts, or both null. Where every value must have a place, nulls come first, then
numbers, then texts, then the rest.

## Contents
- `family?`, `comparable`: which values can be compared.
- `OrderKey`, `orderKey`: the place of a value.
- `OrderKey.le`: the order.
-/

namespace ReviewGate

open Number

namespace Document

/-- The values among which an order is given. -/
inductive Family
  | null
  | number
  | text
deriving DecidableEq, Repr

/-- The family of a value. -/
def family? : Document → Option Family
  | .null => some .null
  | .bool _ | .int _ | .float _ => some .number
  | .text _ => some .text
  | _ => none

/-- Can the values be compared? -/
def comparable (a b : Document) : Bool :=
  match a.family?, b.family? with
  | some f, some g => f == g
  | _, _ => false

/-- The place of a value: a group, then a number, then a text. -/
structure OrderKey where
  group : Nat
  number : Int
  text : String
deriving DecidableEq, Repr

/-- An integer in units of the least positive double. -/
def unitsOfInt (n : Int) : Int := n * (Nat.pow 2 1074 : Nat)

/-- A finite double in units of the least positive one. -/
def unitsOfFinite (negative : Bool) (m : Nat) (q : Int) : Int :=
  let size : Int := (m * Nat.pow 2 (q + 1074).toNat : Nat)
  if negative then -size else size

/-- The place of a value. -/
def orderKey : Document → OrderKey
  | .null => ⟨0, 0, ""⟩
  | .bool b => ⟨2, unitsOfInt (if b then 1 else 0), ""⟩
  | .int n => ⟨2, unitsOfInt n, ""⟩
  | .float (.finite negative m q) => ⟨2, unitsOfFinite negative m q, ""⟩
  | .float (.infinite negative) => ⟨if negative then 1 else 3, 0, ""⟩
  | .float .nan => ⟨3, 1, ""⟩
  | .text s => ⟨4, 0, s⟩
  | _ => ⟨5, 0, ""⟩

/-- The order of places. -/
def OrderKey.le (a b : OrderKey) : Bool :=
  if a.group ≠ b.group then a.group < b.group
  else if a.number ≠ b.number then a.number < b.number
  else a.text ≤ b.text

end Document

end ReviewGate
