import ReviewGate.Glob.Brace
import ReviewGate.Glob.Segment

/-!
# `ReviewGate.Glob.Basic` — path globs

A glob is matched against a whole path, segment by segment and with regard to case. A segment `**`
covers any number of whole names, none of which starts with a dot.

## Contents
- `Glob`, `ofChars`: a glob without braces.
- `Route`, `Route.ofChars`: a path as names.
- `endsInBreak`, `align`: do the segments cover the names in order?
- `Glob.covers`: does a glob cover a path?
- `Fault`, `matchesGlob`: the test on strings, braces included; it fails if there are too many
  alternatives.
-/

namespace ReviewGate

namespace Glob

/-- A token of a glob: a slash or a piece. -/
inductive Token
  | slash
  | piece (p : Piece)

/-- The tokens of a text. A backslash makes the next character stand for itself. -/
def tokens : Nat → List Char → List Token
  | 0, _ => []
  | _ + 1, [] => []
  | fuel + 1, c :: rest =>
      if c = '/' then .slash :: tokens fuel rest
      else if c = '*' then .piece .star :: tokens fuel rest
      else if c = '?' then .piece .any :: tokens fuel rest
      else if c = '[' then
        match readSet rest with
        | some (set, after) => .piece set :: tokens fuel after
        | none => .piece (.char c) :: tokens fuel rest
      else if c = '\\' then
        match rest with
        | [] => []
        | '/' :: rest => .slash :: tokens fuel rest
        | d :: rest => .piece (.char d) :: tokens fuel rest
      else .piece (.char c) :: tokens fuel rest

/-- The runs of pieces between slashes. -/
def splitTokens : List Token → List (List Piece)
  | [] => [[]]
  | .slash :: rest => [] :: splitTokens rest
  | .piece p :: rest =>
      match splitTokens rest with
      | [] => [[p]]
      | run :: runs => (p :: run) :: runs

/-- The segment of a run of pieces: two stars alone cover names. -/
def segmentOf : List Piece → Segment
  | [.star, .star] => .anyNames
  | pieces => .name pieces

/-- Segments with one `**` for several in a row. -/
def mergeAnyNames : List Segment → List Segment
  | .anyNames :: .anyNames :: rest => mergeAnyNames (.anyNames :: rest)
  | s :: rest => s :: mergeAnyNames rest
  | [] => []

end Glob

/-- A glob without braces: its segments, and whether slashes stand before and behind them. -/
structure Glob where
  rooted : Bool
  segments : List Glob.Segment
  closed : Bool

namespace Glob

/-- The glob of a text without braces. -/
def ofChars (cs : List Char) : Glob :=
  let runs := splitTokens (tokens cs.length cs)
  let blank (run : Option (List Piece)) : Bool :=
    1 < runs.length && (run.map List.isEmpty).getD false
  { rooted := blank runs.head?
    segments := mergeAnyNames ((runs.filter (!·.isEmpty)).map segmentOf)
    closed := blank runs.getLast? }

/-- A path as names, and whether slashes stand before and behind them. -/
structure Route where
  rooted : Bool
  names : List (List Char)
  closed : Bool
deriving DecidableEq, Repr

/-- The route of a path. -/
def Route.ofChars (cs : List Char) : Route :=
  { rooted := cs.head? == some '/'
    names := (cs.splitOn '/').filter (!·.isEmpty)
    closed := cs.getLast? == some '/' }

/-- Does some end of the names satisfy `rest`, such that no name before it is hidden? -/
def anyNamesThen (rest : List (List Char) → Bool) : List (List Char) → Bool
  | [] => rest []
  | name :: names => rest (name :: names) || (!isHidden name && anyNamesThen rest names)

/-- Is none of the names hidden, and does the last of them end in a line break? -/
def endsInBreak (names : List (List Char)) : Bool :=
  names.all (!isHidden ·) && (names.getLast?.bind List.getLast?) == some '\n'

/-- Do the segments cover the names in order? A `**` at the end that covers no name needs a slash
there, which `closed` says is present. What is behind any other `**` starts at a name, or else at the
line break with which a path ends. -/
def align (closed : Bool) : List Segment → List (List Char) → Bool
  | [], names => names.isEmpty
  | [.anyNames], names => if names.isEmpty then closed else names.all (!isHidden ·)
  | .anyNames :: segments, names =>
      anyNamesThen (align closed segments) names ||
        (!closed && endsInBreak names && align closed segments [['\n']])
  | .name pieces :: segments, name :: names =>
      coversName pieces name && align closed segments names
  | .name _ :: _, [] => false

/-- Does the glob cover the route? -/
def covers (g : Glob) (r : Route) : Bool :=
  match g.rooted, g.segments with
  | false, [.anyNames] => r.names.all (!isHidden ·) && (!g.closed || r.closed)
  | false, [] => r.names.isEmpty
  | true, [] => r.rooted && r.names.isEmpty
  | false, .anyNames :: _ => align r.closed g.segments r.names && (!g.closed || r.closed)
  | rooted, _ =>
      r.rooted == rooted && align r.closed g.segments r.names && (!g.closed || r.closed)

/-- Does a glob without braces cover the path? The empty glob covers the empty path alone. -/
def coversPath (path : List Char) (pattern : List Char) : Bool :=
  if pattern.isEmpty then path.isEmpty else (ofChars pattern).covers (Route.ofChars path)

/-- A glob stands for too many alternatives. -/
structure TooMany where
deriving DecidableEq, Repr

/-- Does the glob cover the whole path? -/
def matchesGlob (path pattern : String) : Except TooMany Bool :=
  match expand pattern.toList with
  | none => .error ⟨⟩
  | some patterns => .ok (patterns.any (coversPath path.toList))

end Glob

end ReviewGate
