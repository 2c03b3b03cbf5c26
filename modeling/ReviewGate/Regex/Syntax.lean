import ReviewGate.Regex.Class

/-!
# `ReviewGate.Regex.Syntax` — patterns as trees

All flags are resolved in the tree: a set knows how it compares, an anchor which positions it
holds at.

## Contents
- `Anchor`: tests of a position that read nothing.
- `Greed`: which number of repetitions is tried first, and whether another may be tried.
- `Node`: the trees.
- `Width`, `Node.width`: the least and greatest number of characters a node reads.
-/

namespace ReviewGate.Regex

/-- A test of a position. -/
inductive Anchor
  | textStart
  | textEnd
  | lineStart
  | lineEnd
  | lastLineEnd
  | wordEdge (ascii : Bool)
  | notWordEdge (ascii : Bool)
deriving DecidableEq, Repr

/-- The order in which numbers of repetitions are tried; a possessive repetition keeps the first
that works. -/
inductive Greed
  | greedy
  | lazy
  | possessive
deriving DecidableEq, Repr

/-- A pattern. -/
inductive Node
  | empty
  | one (s : CharClass)
  | anchor (a : Anchor)
  | seq (first second : Node)
  | alt (first second : Node)
  | group (index : Nat) (body : Node)
  | loop (least : Nat) (most : Option Nat) (greed : Greed) (body : Node)
  | atomic (body : Node)
  | again (index : Nat) (fold : Fold)
  | ahead (negative : Bool) (body : Node)
  | behind (negative : Bool) (width : Nat) (body : Node)
  | ifGroup (index : Nat) (present absent : Node)
deriving DecidableEq, Repr

/-- The node that reads the nodes one after the other. -/
def Node.ofList : List Node → Node
  | [] => .empty
  | [n] => n
  | n :: rest => .seq n (Node.ofList rest)

/-- The least and the greatest number of characters read; no greatest number if unbounded. -/
structure Width where
  least : Nat
  most : Option Nat
deriving DecidableEq, Repr

namespace Width

/-- The width of two nodes in a row. -/
def plus (a b : Width) : Width :=
  ⟨a.least + b.least, do return (← a.most) + (← b.most)⟩

/-- The width of one of two nodes. -/
def either (a b : Width) : Width :=
  ⟨min a.least b.least, do return max (← a.most) (← b.most)⟩

/-- The width of a repetition. -/
def times (least : Nat) (most : Option Nat) (w : Width) : Width :=
  ⟨w.least * least,
    match w.most, most with
    | some 0, _ => some 0
    | some n, some m => some (n * m)
    | _, _ => none⟩

end Width

/-- The width of a node, given the widths of the groups that it may refer to. -/
def Node.width (groups : List (Nat × Width)) : Node → Width
  | .empty | .anchor _ | .ahead .. | .behind .. => ⟨0, some 0⟩
  | .one _ => ⟨1, some 1⟩
  | .seq a b => (a.width groups).plus (b.width groups)
  | .alt a b => (a.width groups).either (b.width groups)
  | .group _ body | .atomic body => body.width groups
  | .loop least most _ body => (body.width groups).times least most
  | .again index _ => (groups.lookup index).getD ⟨0, some 0⟩
  | .ifGroup _ a b => (a.width groups).either (b.width groups)

end ReviewGate.Regex
