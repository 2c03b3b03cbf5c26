import ReviewGate.Number.Numeral

/-!
# `ReviewGate.Glob.Brace` — alternatives in braces

A text with braces stands for several texts: `{a,b}` for its alternatives, `{1..5}` and `{a..e}`
for a series, with an optional step. Alternatives nest and may be empty. Braces that form neither,
escaped characters and a brace behind `$` stand for themselves.

## Contents
- `Part`: a character, a choice or a series.
- `readSeries`, `readParts`, `readChoice`: the parts of a text, bounded by its length.
- `Part.count`: how many texts there are, without writing them.
- `expand`: the texts, unless there are more than `maxExpansions`.
-/

namespace ReviewGate.Glob

open Number Text

/-- A part of a text with braces. -/
inductive Part
  | char (c : Char)
  | choice (alternatives : List (List Part))
  | numbers (first last : Int) (step width : Nat)
  | letters (first last step : Nat)

/-- The greatest number of texts that one text may stand for. -/
def maxExpansions : Nat := 1000

/-! ## Series -/

/-- An integer at the front: its characters, its value and what follows. -/
def readIndex (cs : List Char) : Option (List Char × Int × List Char) :=
  let (negative, body) := match cs with
    | '-' :: rest => (true, rest)
    | _ => (false, cs)
  let digits := body.takeWhile isDigit
  if digits.isEmpty then none
  else
    let n : Int := ofDigits (digits.filterMap digitValue?)
    some ((if negative then ['-'] else []) ++ digits, if negative then -n else n,
      body.drop digits.length)

/-- The step of a series and its closing brace: the step's size, one if there is none or zero. -/
def readStep : List Char → Option (Nat × List Char)
  | '\x7d' :: rest => some (1, rest)
  | '.' :: '.' :: cs =>
      match readIndex cs with
      | some (_, n, '\x7d' :: rest) => some (max 1 n.natAbs, rest)
      | _ => none
  | _ => none

/-- Does a number's text ask for leading zeros? -/
def hasLeadingZero (cs : List Char) : Bool :=
  match cs.dropWhile (· == '-') with
  | '0' :: _ :: _ => true
  | _ => false

/-- A series of numbers behind its opening brace. -/
def readNumbers (cs : List Char) : Option (Part × List Char) := do
  let (a, first, rest) ← readIndex cs
  match rest with
  | '.' :: '.' :: rest => do
      let (b, last, rest) ← readIndex rest
      let (step, rest) ← readStep rest
      let width := if hasLeadingZero a || hasLeadingZero b then max a.length b.length else 0
      return (.numbers first last step width, rest)
  | _ => none

/-- A series of letters behind its opening brace. -/
def readLetters : List Char → Option (Part × List Char)
  | a :: '.' :: '.' :: b :: cs =>
      if a.isAlpha && b.isAlpha then
        (readStep cs).map fun (step, rest) => (.letters a.toNat b.toNat step, rest)
      else none
  | _ => none

/-- A series behind its opening brace. -/
def readSeries (cs : List Char) : Option (Part × List Char) :=
  match readNumbers cs with
  | some found => some found
  | none => readLetters cs

/-! ## Choices -/

mutual

/-- The parts up to the end, or, inside braces, up to a comma or closing brace, which stays.
`none` if the text ends inside braces. `dollar` says that the character before is a dollar sign,
`start` that nothing precedes. -/
def readParts : Nat → (depth : Nat) → (start dollar : Bool) → List Char →
    Option (List Part × List Char)
  | 0, _, _, _, _ => none
  | _ + 1, depth, _, _, [] => if depth = 0 then some ([], []) else none
  | fuel + 1, depth, start, dollar, c :: rest =>
      let go (here : List Part) (dollar : Bool) (rest : List Char) :=
        (readParts fuel depth false dollar rest).map fun (parts, after) => (here ++ parts, after)
      if c = '\\' then
        match rest with
        | [] => go [.char '\\'] false []
        | d :: rest => go [.char '\\', .char d] false rest
      else if c = '\x7b' && !dollar then
        match readSeries rest with
        | some (series, after) => go [series] false after
        | none =>
            match readChoice fuel (depth + 1) start false [] [] true rest with
            | some (parts, after) => go parts false after
            | none => go [.char c] false rest
      else if depth ≠ 0 && (c = ',' || c = '\x7d') then some ([], c :: rest)
      else go [.char c] (c = '$') rest

/-- The alternatives up to the closing brace. `slots` (reversed) are complete, `slot` is the
current one and `blank` says that it has nothing yet. Without a comma the braces stand for
themselves, and at the outermost level a closing brace without a comma before it is an ordinary
character, unless the whole text starts with empty braces. -/
def readChoice : Nat → (depth : Nat) → (start comma : Bool) → List (List Part) → List Part →
    (blank : Bool) → List Char → Option (List Part × List Char)
  | 0, _, _, _, _, _, _, _ => none
  | _ + 1, _, _, _, _, _, _, [] => none
  | fuel + 1, depth, start, comma, slots, slot, blank, c :: rest =>
      if c = '\x7d' then
        if depth = 1 && !comma && !(start && blank) then
          if rest.isEmpty then none
          else
            match readParts fuel depth false false rest with
            | some (parts, after) =>
                readChoice fuel depth false comma slots (slot ++ .char c :: parts) false after
            | none => none
        else if comma then some ([.choice (slot :: slots).reverse], rest)
        else some (.char '\x7b' :: slot ++ [.char '\x7d'], rest)
      else if c = ',' then readChoice fuel depth false true (slot :: slots) [] true rest
      else
        match readParts fuel depth false false (c :: rest) with
        | some (parts, after) => readChoice fuel depth false comma slots (slot ++ parts) false after
        | none => none

end

/-! ## Expansion -/

/-- The number of terms from `first` to `last` in steps of `step`. -/
def seriesLength (first last : Int) (step : Nat) : Nat := (last - first).natAbs / step + 1

/-- The term number `i` of a series. -/
def seriesTerm (first last : Int) (step i : Nat) : Int :=
  if first ≤ last then first + (step * i : Nat) else first - (step * i : Nat)

/-- A number in at least `width` characters, zeros standing behind the sign. -/
def numberText (width : Nat) (n : Int) : List Char :=
  let ds := Nat.toDigits 10 n.natAbs
  let signLength := if n < 0 then 1 else 0
  (if n < 0 then ['-'] else []) ++ List.replicate (width - signLength - ds.length) '0' ++ ds

/-- A letter of a series; the backslash between the cases is left out. -/
def letterText (n : Int) : List Char := if n = 92 then [] else [Char.ofNat n.toNat]

mutual

/-- How many texts the parts stand for. -/
def countParts : List Part → Nat
  | [] => 1
  | p :: rest => countPart p * countParts rest

/-- How many texts a part stands for. -/
def countPart : Part → Nat
  | .char _ => 1
  | .choice alternatives => countChoice alternatives
  | .numbers first last step _ => seriesLength first last step
  | .letters first last step => seriesLength first last step

/-- How many texts the alternatives stand for together. -/
def countChoice : List (List Part) → Nat
  | [] => 0
  | parts :: rest => countParts parts + countChoice rest

end

mutual

/-- The texts that the parts stand for, in order. -/
def expandParts : List Part → List (List Char)
  | [] => [[]]
  | p :: rest => (expandPart p).flatMap fun first => (expandParts rest).map (first ++ ·)

/-- The texts that a part stands for. -/
def expandPart : Part → List (List Char)
  | .char c => [[c]]
  | .choice alternatives => expandChoice alternatives
  | .numbers first last step width =>
      (List.range (seriesLength first last step)).map fun i =>
        numberText width (seriesTerm first last step i)
  | .letters first last step =>
      (List.range (seriesLength first last step)).map fun i =>
        letterText (seriesTerm first last step i)

/-- The texts that the alternatives stand for. -/
def expandChoice : List (List Part) → List (List Char)
  | [] => []
  | parts :: rest => expandParts parts ++ expandChoice rest

end

/-- The texts without the empty ones at the end; one empty text if nothing is left. -/
def dropTrailingEmpty (texts : List (List Char)) : List (List Char) :=
  match (texts.reverse.dropWhile List.isEmpty).reverse with
  | [] => [[]]
  | kept => kept

/-- The texts that a text with braces stands for, `none` if there are too many. -/
def expand (cs : List Char) : Option (List (List Char)) :=
  match readParts (3 * cs.length + 3) 0 true false cs with
  | none => some [cs]
  | some (parts, _) =>
      if maxExpansions < countParts parts then none
      else some (dropTrailingEmpty (expandParts parts))

end ReviewGate.Glob
