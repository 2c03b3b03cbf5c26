import ReviewGate.Regex.Syntax

/-!
# `ReviewGate.Regex.Match` — matching by backtracking

A node is run at a place of the text with a continuation for what comes after it. It tries its
ways of matching in order and gives the first state at which the continuation succeeds.

## Contents
- `Place`: a position in the text with what the groups have read.
- `Anchor.holds`: the positions of an anchor.
- `Run`: the behaviour of a node; `times`, `moreGreedy`, `moreLazy` repeat one.
- `Node.run`: the behaviour of each node, by recursion on the node.
- `matchAt?`, `search`, `findAll`: one place, the first match, all matches.
-/

namespace ReviewGate.Regex

open Text

/-- A position in the text: the characters before it (reversed), those after it, its number, and
what each group last read. -/
structure Place where
  before : List Char
  after : List Char
  position : Nat
  groups : List (Nat × List Char)

namespace Place

/-- The start of a text. -/
def start (cs : List Char) : Place := ⟨[], cs, 0, []⟩

/-- The place `n` characters to the left, if there are as many. -/
def back? : Nat → Place → Option Place
  | 0, p => some p
  | n + 1, p =>
      match p.before with
      | [] => none
      | c :: before => back? n { p with before, after := c :: p.after, position := p.position - 1 }

/-- The characters between an earlier place and this one. -/
def since (p earlier : Place) : List Char := earlier.after.take (p.position - earlier.position)

/-- The place with group `index` holding what was read since `earlier`. -/
def capture (p : Place) (index : Nat) (earlier : Place) : Place :=
  { p with groups := (index, p.since earlier) :: p.groups.filter (·.1 != index) }

/-- Does a word character stand before the place? -/
def wordBefore (ascii : Bool) (p : Place) : Bool :=
  match p.before with
  | c :: _ => Category.word.holds ascii c
  | [] => false

/-- Does a word character stand after the place? -/
def wordAfter (ascii : Bool) (p : Place) : Bool :=
  match p.after with
  | c :: _ => Category.word.holds ascii c
  | [] => false

/-- Is the text empty? -/
def textEmpty (p : Place) : Bool := p.before.isEmpty && p.after.isEmpty

end Place

/-- Does the anchor hold at the place? The edges of words do not exist in an empty text. -/
def Anchor.holds : Anchor → Place → Bool
  | .textStart, p => p.before.isEmpty
  | .textEnd, p => p.after.isEmpty
  | .lineStart, p =>
      match p.before with
      | [] => true
      | c :: _ => c == '\n'
  | .lineEnd, p =>
      match p.after with
      | [] => true
      | c :: _ => c == '\n'
  | .lastLineEnd, p =>
      match p.after with
      | [] => true
      | [c] => c == '\n'
      | _ => false
  | .wordEdge ascii, p => !p.textEmpty && p.wordBefore ascii != p.wordAfter ascii
  | .notWordEdge ascii, p => !p.textEmpty && p.wordBefore ascii == p.wordAfter ascii

/-- What is to be matched after a node. -/
abbrev Continuation := Place → Option Place

/-- The behaviour of a node. -/
abbrev Run := Place → Continuation → Option Place

/-- Reads one character of the set. -/
def readOne (s : CharClass) (p : Place) : Option Place :=
  match p.after with
  | c :: after =>
      if s.holds c then
        some { p with before := c :: p.before, after, position := p.position + 1 }
      else none
  | [] => none

/-- Reads the given characters, compared in the way of `fold`. -/
def readChars (fold : Fold) : List Char → Place → Option Place
  | [], p => some p
  | d :: rest, p =>
      match p.after with
      | c :: after =>
          if fold.image c == fold.image d then
            readChars fold rest { p with before := c :: p.before, after, position := p.position + 1 }
          else none
      | [] => none

/-- The places after one, two, … characters of the set, at most `limit` of them, the last first;
`places` are those already reached. -/
def placesAlong (s : CharClass) : Nat → Place → List Place → List Place
  | 0, _, places => places
  | limit + 1, p, places =>
      match readOne s p with
      | some q => placesAlong s limit q (q :: places)
      | none => places

/-- Exactly `n` repetitions. -/
def times (body : Run) : Nat → Run
  | 0, p, k => k p
  | n + 1, p, k => body p fun q => times body n q k

/-- One number of repetitions less; unbounded stays unbounded. -/
def lessOne : Option Nat → Option Nat
  | some n => some (n - 1)
  | none => none

/-- Up to `most` more repetitions, as many as possible first. A repetition that read nothing is
the last. -/
def moreGreedy (body : Run) : Nat → Option Nat → Option Nat → Run
  | 0, _, _, p, k => k p
  | fuel + 1, most, last, p, k =>
      if most = some 0 ∨ last = some p.position then k p
      else
        match body p fun q => moreGreedy body fuel (lessOne most) (some p.position) q k with
        | some found => some found
        | none => k p

/-- Up to `most` more repetitions, as few as possible first. A repetition that read nothing is the
last. -/
def moreLazy (body : Run) : Nat → Option Nat → Option Nat → Run
  | 0, _, _, p, k => k p
  | fuel + 1, most, last, p, k =>
      match k p with
      | some found => some found
      | none =>
          if most = some 0 ∨ last = some p.position then none
          else body p fun q => moreLazy body fuel (lessOne most) (some p.position) q k

/-- The optional repetitions that follow `least` required ones. -/
def optional (least : Nat) (most : Option Nat) : Option Nat := most.map (· - least)

/-- Between `least` and `most` repetitions, as many as possible first. -/
def repeatGreedy (body : Run) (least : Nat) (most : Option Nat) : Run := fun p k =>
  times body least p fun q =>
    moreGreedy body (q.after.length + 2) (optional least most) none q k

/-- Between `least` and `most` repetitions, as few as possible first. -/
def repeatLazy (body : Run) (least : Nat) (most : Option Nat) : Run := fun p k =>
  times body least p fun q =>
    moreLazy body (q.after.length + 2) (optional least most) none q k

/-- Between `least` and `most` characters of a set. The places reached are kept in a list, so that
a long run of characters needs no nesting. -/
def repeatOne (s : CharClass) (least : Nat) (most : Option Nat) (greed : Greed) : Run := fun p k =>
  let limit := match most with
    | some n => min n p.after.length
    | none => p.after.length
  let places := placesAlong s limit p [p]
  let enough := places.take (places.length - least)
  match greed with
  | .greedy => enough.findSome? k
  | .lazy => enough.reverse.findSome? k
  | .possessive => enough.head?.bind k

/-- The behaviour of a node. -/
def Node.run : Node → Run
  | .empty, p, k => k p
  | .one s, p, k => (readOne s p).bind k
  | .anchor a, p, k => if a.holds p then k p else none
  | .seq a b, p, k => a.run p fun q => b.run q k
  | .alt a b, p, k =>
      match a.run p k with
      | some found => some found
      | none => b.run p k
  | .group index body, p, k => body.run p fun q => k (q.capture index p)
  | .loop least most greed (.one s), p, k => repeatOne s least most greed p k
  | .loop least most .greedy body, p, k => repeatGreedy body.run least most p k
  | .loop least most .lazy body, p, k => repeatLazy body.run least most p k
  | .loop least most .possessive body, p, k => (repeatGreedy body.run least most p some).bind k
  | .atomic body, p, k => (body.run p some).bind k
  | .again index fold, p, k =>
      match p.groups.lookup index with
      | some cs => (readChars fold cs p).bind k
      | none => none
  | .ahead false body, p, k =>
      match body.run p some with
      | some q => k { p with groups := q.groups }
      | none => none
  | .ahead true body, p, k =>
      match body.run p some with
      | some _ => none
      | none => k p
  | .behind false width body, p, k =>
      match (p.back? width).bind fun q => body.run q some with
      | some q => k { p with groups := q.groups }
      | none => none
  | .behind true width body, p, k =>
      match (p.back? width).bind fun q => body.run q some with
      | some _ => none
      | none => k p
  | .ifGroup index present absent, p, k =>
      match p.groups.lookup index with
      | some _ => present.run p k
      | none => absent.run p k

/-- A match: the places around it, the later one with the groups. -/
structure Match where
  first : Place
  last : Place

namespace Match

/-- The matched characters. -/
def chars (m : Match) : List Char := m.last.since m.first

/-- What group `index` read, if it took part. -/
def group? (index : Nat) (m : Match) : Option (List Char) := m.last.groups.lookup index

end Match

/-- The match that starts at the place. -/
def matchAt? (n : Node) (p : Place) : Option Match :=
  (n.run { p with groups := [] } some).map fun q => ⟨p, q⟩

/-- The first match that starts among the `after` characters of a place or at its end. -/
def searchFrom (n : Node) (before : List Char) (position : Nat) : List Char → Option Match
  | [] => matchAt? n ⟨before, [], position, []⟩
  | c :: after =>
      match matchAt? n ⟨before, c :: after, position, []⟩ with
      | some m => some m
      | none => searchFrom n (c :: before) (position + 1) after

/-- The first match in a text. -/
def search (n : Node) (cs : List Char) : Option Match := searchFrom n [] 0 cs

/-- Does the pattern occur in the text? -/
def occurs (n : Node) (cs : List Char) : Bool := (search n cs).isSome

/-- The first match from a place on that does not read nothing at that very place. -/
def searchMoving (n : Node) (p : Place) : Option Match :=
  let moved (q : Place) : Option Place := if q.position = p.position then none else some q
  match n.run { p with groups := [] } moved with
  | some q => some ⟨p, q⟩
  | none =>
      match p.after with
      | [] => none
      | c :: after => searchFrom n (c :: p.before) (p.position + 1) after

/-- The matches from a place on, at most `fuel` of them; `stuck` says that a match that read
nothing has already been found at the place. -/
def findFrom (n : Node) : Nat → Bool → Place → List Match
  | 0, _, _ => []
  | fuel + 1, stuck, p =>
      match if stuck then searchMoving n p else searchFrom n p.before p.position p.after with
      | none => []
      | some m => m :: findFrom n fuel (m.last.position == m.first.position) m.last

/-- All matches in a text, from left to right, without overlap. -/
def findAll (n : Node) (cs : List Char) : List Match :=
  findFrom n (2 * cs.length + 2) false (Place.start cs)

end ReviewGate.Regex
