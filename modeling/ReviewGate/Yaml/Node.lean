import ReviewGate.Yaml.Tag
import ReviewGate.Yaml.Tokens

/-!
# `ReviewGate.Yaml.Node` — a text as a tree

An alias stands for the node with its anchor, which is the same node and not a copy of it, so every
node has a number by which it is known.

## Contents
- `Node`: a scalar, sequence or mapping with its type.
- `Builder`, `Build`: what is kept in mind while tokens are read.
- `Build.properties`: the tag and anchor of a node.
- `Build.node`, `flowSequence`, `blockMapping` and the others: nodes from tokens.
- `document?`: the node of a whole text.
-/

namespace ReviewGate.Yaml

/-- A node of the tree that a text denotes. -/
inductive Node
  | scalar (id : Nat) (tag : Tag) (text : String)
  | sequence (id : Nat) (tag : Tag) (items : List Node)
  | mapping (id : Nat) (tag : Tag) (entries : List (Node × Node))
deriving Repr

/-- The type of a node. -/
def Node.tag : Node → Tag
  | .scalar _ tag _ => tag
  | .sequence _ tag _ => tag
  | .mapping _ tag _ => tag

/-- What is kept in mind while tokens are read. -/
structure Builder where
  tokens : List Token
  /-- What the tag handles stand for. -/
  handles : List (String × String)
  /-- The nodes with anchors. -/
  anchors : List (String × Node)
  /-- The anchors of nodes around this place. -/
  pending : List String
  /-- The number of the next node. -/
  fresh : Nat

/-- A step that reads tokens. -/
abbrev Build := StateT Builder (Except Fault)

namespace Build

/-- The text is in error. -/
def refuse {α : Type} : Build α := throw .badYaml

/-- Refuse the text unless the condition holds. -/
def require (condition : Bool) : Build Unit := if condition then pure () else refuse

/-- The next token. -/
def peek : Build (Option Token) := return (← get).tokens.head?

/-- Go on behind the next token. -/
def advance : Build Unit := modify fun b => { b with tokens := b.tokens.tail }

/-- Is the next token one of these? -/
def isAt (ts : List Token) : Build Bool := return ts.any (some · == (← get).tokens.head?)

/-- Go on behind the next token if it is `t`; is it? -/
def takeIf (t : Token) : Build Bool := do
  if ← isAt [t] then
    advance
    return true
  else return false

/-- Go on behind the next token, which must be `t`. -/
def expect (t : Token) : Build Unit := do require (← takeIf t)

/-- A number for a node. -/
def newId : Build Nat := do
  let b ← get
  set { b with fresh := b.fresh + 1 }
  return b.fresh

/-! ## Tags and anchors -/

/-- The whole text of a tag. -/
def tagName (handle : Option String) (text : String) : Build String := do
  match handle with
  | none => return text
  | some h =>
      match (← get).handles.lookup h with
      | some meaning => return meaning ++ text
      | none => refuse

/-- The tag here, if there is one. -/
def tag? : Build (Option String) := do
  match ← peek with
  | some (.tag handle text) => do
      advance
      return some (← tagName handle text)
  | _ => return none

/-- The anchor here, if there is one. -/
def anchor? : Build (Option String) := do
  match ← peek with
  | some (.anchor name) => do
      advance
      return some name
  | _ => return none

/-- The tag and anchor here, in any order. -/
def properties : Build (Option String × Option String) := do
  match ← tag? with
  | some tag => return (some tag, ← anchor?)
  | none =>
      match ← anchor? with
      | some anchor => return (← tag?, some anchor)
      | none => return (none, none)

/-- The type of a collection. The tag `!` says nothing. -/
def collectionTag (usual : Tag) : Option String → Tag
  | none => usual
  | some tag => if tag == "!" then usual else .ofText tag

/-- The type of a scalar. -/
def scalarTag (text : String) (isPlain : Bool) : Option String → Tag
  | none => if isPlain then .ofPlain text else .text
  | some tag => if tag == "!" then .ofPlain text else .ofText tag

/-- The node that `inner` reads, known by the anchor from then on. No other node may have it. -/
def anchored (anchor : Option String) (inner : Build Node) : Build Node := do
  match anchor with
  | none => inner
  | some name =>
      let b ← get
      require (!b.pending.contains name && (b.anchors.lookup name).isNone)
      set { b with pending := name :: b.pending }
      let node ← inner
      modify fun b => { b with
        anchors := (name, node) :: b.anchors
        pending := b.pending.tail }
      return node

/-- The node that an alias stands for. -/
def aliased (name : String) : Build Node := do
  match (← get).anchors.lookup name with
  | some node => return node
  | none => refuse

/-- A scalar. -/
def scalar (tag : Tag) (text : String) : Build Node := return .scalar (← newId) tag text

/-- A scalar for which nothing is written. -/
def absent : Build Node := scalar .null ""

/-! ## Nodes -/

/-- Where a node stands. -/
inductive Place
  | flow
  /-- Block collections may stand here. -/
  | block
  /-- Also items that are not indented further than the mapping around may stand here. -/
  | entry
deriving DecidableEq, Repr

mutual

/-- A node. All functions of this section read at most `fuel` nodes inside one another and behind
one another. -/
def node : Nat → Place → Build Node
  | 0, _ => refuse
  | fuel + 1, place => do
      match ← peek with
      | some (.alias name) => do
          advance
          aliased name
      | _ => do
          let (tag, anchor) ← properties
          anchored anchor (content fuel place tag (tag.isSome || anchor.isSome))

/-- A node behind its tag and anchor, of which there is one if `marked`. -/
def content : Nat → Place → Option String → Bool → Build Node
  | 0, _, _, _ => refuse
  | fuel + 1, place, tag, marked => do
      match ← peek, place with
      | some .hyphen, .entry => do
          let id ← newId
          return .sequence id (collectionTag .sequence tag) (← looseItems fuel)
      | some (.scalar text isPlain), _ => do
          advance
          scalar (scalarTag text isPlain tag) text
      | some .flowSequence, _ => do
          advance
          let id ← newId
          return .sequence id (collectionTag .sequence tag) (← flowItems fuel true)
      | some .flowMapping, _ => do
          advance
          let id ← newId
          return .mapping id (collectionTag .mapping tag) (← flowEntries fuel true)
      | some .blockSequence, place => do
          require (place != .flow)
          advance
          let id ← newId
          return .sequence id (collectionTag .sequence tag) (← blockItems fuel)
      | some .blockMapping, place => do
          require (place != .flow)
          advance
          let id ← newId
          return .mapping id (collectionTag .mapping tag) (← blockEntries fuel)
      | _, _ => do
          require marked
          scalar (scalarTag "" true tag) ""

/-- The items of a block sequence. -/
def blockItems : Nat → Build (List Node)
  | 0 => refuse
  | fuel + 1 => do
      if ← takeIf .hyphen then
        let item ← if ← isAt [.hyphen, .blockEnd] then absent else node fuel .block
        return item :: (← blockItems fuel)
      else do
        expect .blockEnd
        return []

/-- The items of a sequence that is not indented. -/
def looseItems : Nat → Build (List Node)
  | 0 => refuse
  | fuel + 1 => do
      if ← takeIf .hyphen then
        let item ← if ← isAt [.hyphen, .key, .value, .blockEnd] then absent else node fuel .block
        return item :: (← looseItems fuel)
      else return []

/-- The entries of a block mapping. -/
def blockEntries : Nat → Build (List (Node × Node))
  | 0 => refuse
  | fuel + 1 => do
      if ← takeIf .key then
        let key ← if ← isAt [.key, .value, .blockEnd] then absent else node fuel .entry
        let value ←
          if ← takeIf .value then
            if ← isAt [.key, .value, .blockEnd] then absent else node fuel .entry
          else absent
        return (key, value) :: (← blockEntries fuel)
      else do
        expect .blockEnd
        return []

/-- A comma, except before the first item. -/
def separator (first : Bool) : Build Unit := if first then pure () else expect .comma

/-- The items of a flow sequence. A key among them begins a mapping of one entry. -/
def flowItems : Nat → Bool → Build (List Node)
  | 0, _ => refuse
  | fuel + 1, first => do
      if ← takeIf .flowSequenceEnd then return []
      separator first
      if ← takeIf .flowSequenceEnd then return []
      let item ←
        if ← takeIf .key then do
          let id ← newId
          let key ←
            if ← isAt [.value, .comma, .flowSequenceEnd] then absent else node fuel .flow
          let value ←
            if ← takeIf .value then
              if ← isAt [.comma, .flowSequenceEnd] then absent else node fuel .flow
            else absent
          pure (Node.mapping id .mapping [(key, value)])
        else node fuel .flow
      return item :: (← flowItems fuel false)

/-- The entries of a flow mapping. -/
def flowEntries : Nat → Bool → Build (List (Node × Node))
  | 0, _ => refuse
  | fuel + 1, first => do
      if ← takeIf .flowMappingEnd then return []
      separator first
      if ← takeIf .flowMappingEnd then return []
      if ← takeIf .key then
        let key ←
          if ← isAt [.value, .comma, .flowMappingEnd] then absent else node fuel .flow
        let value ←
          if ← takeIf .value then
            if ← isAt [.comma, .flowMappingEnd] then absent else node fuel .flow
          else absent
        return (key, value) :: (← flowEntries fuel false)
      else do
        let key ← node fuel .flow
        let value ← absent
        return (key, value) :: (← flowEntries fuel false)

end

/-! ## Documents -/

/-- What the tag handles stand for unless a directive says otherwise. -/
def usualHandles : List (String × String) := [("!", "!"), ("!!", tagSpace)]

/-- The directives at the front, of which at most one is a version and each handle has at most one;
the handles that they declare. -/
def directives (versioned : Bool) (handles : List (String × String)) :
    List Token → Except Fault (List (String × String) × List Token)
  | .directive (.version major) :: rest =>
      if versioned || major != 1 then .error .badYaml else directives true handles rest
  | .directive (.handle name meaning) :: rest =>
      if (handles.lookup name).isSome then .error .badYaml
      else directives versioned ((name, meaning) :: handles) rest
  | .directive .unknown :: rest => directives versioned handles rest
  | rest => .ok (handles, rest)

/-- The node of a document, which a marker precedes if there are directives. -/
def documentNode (handles : List (String × String)) (explicit : Bool) (ts : List Token) :
    Except Fault Node := do
  let isEmpty := match ts with
    | [] | .directive _ :: _ | .documentStart :: _ | .documentEnd :: _ => true
    | _ => false
  let inner := if explicit && isEmpty then absent else node (3 * ts.length + 3) .block
  let (n, b) ← inner.run ⟨ts, handles, [], [], 0⟩
  if b.tokens.all (· == .documentEnd) then return n else throw .badYaml

end Build

/-- The node of a text that is one document, `none` if it holds none. -/
def document? (cs : List Char) : Except Fault (Option Node) := do
  let ts ← tokens cs
  match ts with
  | [] => return none
  | .directive _ :: _ | .documentStart :: _ => do
      let (handles, rest) ← Build.directives false [] ts
      match rest with
      | .documentStart :: rest =>
          some <$> Build.documentNode (handles ++ Build.usualHandles) true rest
      | _ => throw .badYaml
  | _ => some <$> Build.documentNode Build.usualHandles false ts

end ReviewGate.Yaml
