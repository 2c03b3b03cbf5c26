import ReviewGate.Calendar
import ReviewGate.Number.Binary64

/-!
# `ReviewGate.Document` — values of configuration and data files

A document is what a JSON or YAML text denotes. It is the one dynamic type of the library:
configurations, stored rules and model answers arrive as documents and leave as the closed types
of the other modules.

## Contents
- `Document`: the type. A mapping keeps its entries in order of first insertion.
- `Document.Key`, `key?`: what a value counts as when it is used as a key. Booleans, integers and
  integral doubles are one kind of key; lists and mappings are none.
- `truthy`: the values that count as present.
- `get?`, `put`, `ofFields`: fields of mappings.
- `kind`: the name of a value's kind, as error texts give it.
-/

namespace ReviewGate

open Number

/-- A value of a configuration or data file. -/
inductive Document
  | null
  | bool (b : Bool)
  | int (n : Int)
  | float (x : Binary64)
  | text (s : String)
  | list (items : List Document)
  | map (entries : List (Document × Document))
  | date (d : Date)
  | moment (m : Moment)
  | bytes (data : List UInt8)
  | set (members : List Document)
deriving Inhabited, Repr

namespace Document

/-- What a value counts as when it is looked up: equal keys name the same entry. -/
inductive Key
  | null
  | int (n : Int)
  | float (x : Binary64)
  | text (s : String)
  | date (d : Date)
  | moment (m : Moment)
  | bytes (data : List UInt8)
deriving DecidableEq, Repr

/-- The key of a value, `none` for a value that can be no key. -/
def key? : Document → Option Key
  | .null => some .null
  | .bool b => some (.int (if b then 1 else 0))
  | .int n => some (.int n)
  | .float x => some (match x.toInt? with
      | some n => .int n
      | none => .float x)
  | .text s => some (.text s)
  | .date d => some (.date d)
  | .moment m => some (.moment m)
  | .bytes data => some (.bytes data)
  | .list _ | .map _ | .set _ => none

/-- Does the value count as present? Null, false, zero and everything empty do not. -/
def truthy : Document → Bool
  | .null => false
  | .bool b => b
  | .int n => n != 0
  | .float x => !x.isZero
  | .text s => s != ""
  | .list items => !items.isEmpty
  | .map entries => !entries.isEmpty
  | .date _ | .moment _ => true
  | .bytes data => !data.isEmpty
  | .set members => !members.isEmpty

/-- The value if it counts as present, otherwise the other one. -/
def orElse (d other : Document) : Document := if d.truthy then d else other

/-- Is the value the text `s`? -/
def isText (s : String) : Document → Bool
  | .text t => t == s
  | _ => false

/-- Is the value null? -/
def isNull : Document → Bool
  | .null => true
  | _ => false

/-- The value of the entry whose key is the text `name`. -/
def lookup (name : String) (entries : List (Document × Document)) : Option Document :=
  (entries.find? fun (k, _) => k.isText name).map (·.2)

/-- The entries with `value` under `key`: in place of the old value, or at the end. -/
def put (key value : Document) : List (Document × Document) → List (Document × Document)
  | [] => [(key, value)]
  | (k, v) :: rest =>
      if k.key? = key.key? then (k, value) :: rest else (k, v) :: put key value rest

/-- The entries of a mapping read one after the other: a later value replaces an earlier one. -/
def collect (entries : List (Document × Document)) : List (Document × Document) :=
  entries.foldl (fun acc (k, v) => put k v acc) []

/-- A mapping with text keys. -/
def ofFields (fields : List (String × Document)) : Document :=
  .map (fields.map fun (name, value) => (.text name, value))

/-- A list of texts. -/
def ofTexts (texts : List String) : Document := .list (texts.map .text)

/-- An optional text, null if absent. -/
def ofText? : Option String → Document
  | some s => .text s
  | none => .null

/-- The name of the value's kind. -/
def kind : Document → String
  | .null => "NoneType"
  | .bool _ => "bool"
  | .int _ => "int"
  | .float _ => "float"
  | .text _ => "str"
  | .list _ => "list"
  | .map _ => "dict"
  | .date _ => "date"
  | .moment _ => "datetime"
  | .bytes _ => "bytes"
  | .set _ => "set"

end Document

end ReviewGate
