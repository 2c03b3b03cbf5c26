import ReviewGate.Yaml.Node
import ReviewGate.Yaml.Scalar

/-!
# `ReviewGate.Yaml.Value` — the value of a text, with what it shares

Two places of a text can hold one and the same collection, and whoever writes the value again wants
to know. So a value is a document in which collections and times bear the number of their node.

## Contents
- `Value`: the type.
- `Value.toDocument`: the document without the numbers.
- `Node.value`: the value of a node. What a mapping merges comes before its own entries.
- `readValue?`, `read`: the value of a text.
-/

namespace ReviewGate.Yaml

/-- A value that knows which parts it shares. -/
inductive Value
  /-- A value without parts. Only times have a number. -/
  | atom (id : Option Nat) (d : Document)
  | list (id : Option Nat) (items : List Value)
  | map (id : Option Nat) (entries : List (Document × Value))
  | set (id : Option Nat) (members : List Document)
deriving Repr

namespace Value

mutual

/-- The document without the numbers. -/
def toDocument : Value → Document
  | .atom _ d => d
  | .list _ items => .list (toDocuments items)
  | .map _ entries => .map (toEntries entries)
  | .set _ members => .set members

/-- The documents of items. -/
def toDocuments : List Value → List Document
  | [] => []
  | v :: rest => toDocument v :: toDocuments rest

/-- The documents of entries. -/
def toEntries : List (Document × Value) → List (Document × Document)
  | [] => []
  | (k, v) :: rest => (k, toDocument v) :: toEntries rest

end

mutual

/-- The value that shares nothing. -/
def ofDocument : Document → Value
  | .list items => .list none (ofDocuments items)
  | .map entries => .map none (ofEntries entries)
  | .set members => .set none members
  | d => .atom none d

/-- The values of items. -/
def ofDocuments : List Document → List Value
  | [] => []
  | d :: rest => ofDocument d :: ofDocuments rest

/-- The values of entries. -/
def ofEntries : List (Document × Document) → List (Document × Value)
  | [] => []
  | (k, d) :: rest => (k, ofDocument d) :: ofEntries rest

end

/-- The entries with `v` under `key`: in place of the old value, or at the end. -/
def put (key : Document) (v : Value) : List (Document × Value) → List (Document × Value)
  | [] => [(key, v)]
  | (k, old) :: rest => if k.key? = key.key? then (k, v) :: rest else (k, old) :: put key v rest

/-- The entries with all of `later`, one after the other. -/
def putAll (entries later : List (Document × Value)) : List (Document × Value) :=
  later.foldl (fun entries (k, v) => put k v entries) entries

end Value

/-! ## Values of nodes -/

namespace Node

/-- The text of a scalar, or of what stands for a mapping where a scalar is needed. -/
def scalarText : Node → Except Fault String
  | .scalar _ _ s => .ok s
  | .mapping _ _ entries => standIn entries
  | .sequence .. => .error .badYaml
where
  /-- The text of what stands for a mapping with the entries. -/
  standIn : List (Node × Node) → Except Fault String
    | [] => .error .badYaml
    | (k, v) :: rest => if k.tag == .standIn then scalarText v else standIn rest

/-- The text of the stand-in key, which is a text like any other where it is a key. -/
def standInText? : Node → Option String
  | .scalar _ .standIn s => some s
  | _ => none

/-- A value as a key; a collection is none. -/
def keyOf : Value → Except Fault Document
  | .atom _ d => .ok d
  | _ => .error .badYaml

/-- The number of the node for a time, nothing for the other values without parts. -/
def atomId (id : Nat) : Document → Option Nat
  | .date _ => some id
  | .moment _ => some id
  | _ => none

mutual

/-- The value of a node. -/
def value : Node → Except Fault Value
  | .scalar id tag s => do
      let d ← scalarValue tag s
      return .atom (atomId id d) d
  | .sequence id tag items =>
      match tag with
      | .sequence => do return .list (some id) (← values items)
      | .orderedMap => do return .list (some id) (← pairValues items)
      | .pairs => do return .list (some id) (← pairValues items)
      | _ => .error .badYaml
  | .mapping id tag entries =>
      match tag with
      | .mapping => do
          let (merged, own) ← entryValues entries
          return .map (some id) (Value.putAll [] (merged ++ own))
      | .set => do
          let (merged, own) ← entryValues entries
          return .set (some id) ((Value.putAll [] (merged ++ own)).map (·.1))
      | tag => do
          let d ← scalarValue tag (← scalarText.standIn entries)
          return .atom (atomId id d) d

/-- The values of nodes. -/
def values : List Node → Except Fault (List Value)
  | [] => .ok []
  | n :: rest => do
      let v ← value n
      return v :: (← values rest)

/-- The entries that the merge keys among the entries bring in, and the other entries. -/
def entryValues : List (Node × Node) →
    Except Fault (List (Document × Value) × List (Document × Value))
  | [] => .ok ([], [])
  | (k, v) :: rest => do
      if k.tag == .merge then
        let brought ← mergedValues v
        let (merged, own) ← entryValues rest
        return (brought ++ merged, own)
      else
        let key ← match standInText? k with
          | some s => pure (.text s)
          | none => do keyOf (← value k)
        let val ← value v
        let (merged, own) ← entryValues rest
        return (merged, (key, val) :: own)

/-- The entries of a mapping, or of the mappings of a sequence from the last on. -/
def mergedValues : Node → Except Fault (List (Document × Value))
  | .sequence _ _ items => mergedItems items
  | .mapping _ _ entries => do
      let (merged, own) ← entryValues entries
      return merged ++ own
  | .scalar .. => .error .badYaml

/-- The entries of mappings from the last on. -/
def mergedItems : List Node → Except Fault (List (Document × Value))
  | [] => .ok []
  | .mapping _ _ entries :: rest => do
      let (merged, own) ← entryValues entries
      return (← mergedItems rest) ++ merged ++ own
  | _ => .error .badYaml

/-- The single entries of mappings, each as a list of two. -/
def pairValues : List Node → Except Fault (List Value)
  | [] => .ok []
  | .mapping _ _ [(k, v)] :: rest => do
      let key ← value k
      let val ← value v
      return .list none [key, val] :: (← pairValues rest)
  | _ => .error .badYaml

end

end Node

/-! ## Texts -/

/-- The value of a text, `none` if it holds none. -/
def readValue? (s : String) : Except Fault (Option Value) := do
  match ← document? s.toList with
  | some n => some <$> n.value
  | none => return none

/-- The document of a text, null if it holds none. -/
def read (s : String) : Except Fault Document := do
  return ((← readValue? s).map Value.toDocument).getD .null

end ReviewGate.Yaml
