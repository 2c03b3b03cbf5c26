import ReviewGate.Text.Case.Table
import ReviewGate.Text.Character

/-!
# `ReviewGate.Text.Case` — upper and lower case

Case is mapped by the Unicode standard: one character may become several, and a capital sigma at
the end of a word becomes the final small sigma.

## Contents
- `lowerChar`, `upperChar`: the mapping of one character.
- `lower`, `upper`: the mapping of a text; `toLower`, `toUpper`: of a string.
- `simpleLower`: the first character of the lower case, the form in which a match without regard
  to case compares characters.
- `foldClass`: the characters such a match takes for a given lower-case one.
-/

namespace ReviewGate.Text

open Case

/-- The image of code point `n` under the runs, if a run has it. -/
def shiftByRuns (runs : List (Nat × Nat × Nat × Int)) (n : Nat) : Option Nat :=
  (runs.find? fun (first, last, step, _) =>
      first ≤ n && n ≤ last && (n - first) % step == 0).map
    fun (_, _, _, shift) => (n + shift : Int).toNat

/-- The lower case of one character, sigma at the end of a word aside. -/
def lowerChar (c : Char) : List Char :=
  if c.toNat < 128 then [c.toLower]
  else if c.toNat == 0x130 then ['i', Char.ofNat 0x307]
  else [((shiftByRuns lowerRuns c.toNat).map Char.ofNat).getD c]

/-- The upper case of one character. -/
def upperChar (c : Char) : List Char :=
  if c.toNat < 128 then [c.toUpper]
  else match upperSpecials.lookup c.toNat with
    | some several => several.map Char.ofNat
    | none => [((shiftByRuns upperRuns c.toNat).map Char.ofNat).getD c]

/-- Is the nearest character that is not passed over a letter with case? -/
def meetsCased : List Char → Bool
  | [] => false
  | c :: rest =>
      if inRanges caseIgnorableRanges c.toNat then meetsCased rest
      else inRanges casedRanges c.toNat

/-- The lower case of the characters, `before` (reversed) being those already read. -/
def lowerFrom (before : List Char) : List Char → List Char
  | [] => []
  | c :: rest =>
      let image :=
        if c.toNat == 0x3A3 then
          if meetsCased before && !meetsCased rest then [Char.ofNat 0x3C2] else [Char.ofNat 0x3C3]
        else lowerChar c
      image ++ lowerFrom (c :: before) rest

/-- The lower case of a text. -/
def lower (cs : List Char) : List Char := lowerFrom [] cs

/-- The upper case of a text. -/
def upper (cs : List Char) : List Char := cs.flatMap upperChar

/-- The lower case of a string. -/
def toLower (s : String) : String := String.ofList (lower s.toList)

/-- The upper case of a string. -/
def toUpper (s : String) : String := String.ofList (upper s.toList)

/-- The first character of the lower case of `c`. -/
def simpleLower (c : Char) : Char := (lowerChar c).headD c

/-- The lower-case characters that count as `c` when case is disregarded. -/
def foldClass (c : Char) : List Char :=
  match foldClasses.find? (·.contains c.toNat) with
  | some members => members.map Char.ofNat
  | none => [c]

/-- The characters whose lower case is `c`. -/
def lowerPreimages (c : Char) : List Char :=
  let beyond := lowerRuns.filterMap fun (first, last, step, shift) =>
    let n := (c.toNat - shift : Int).toNat
    if first ≤ n && n ≤ last && (n - first) % step == 0 then some (Char.ofNat n) else none
  let ascii := if 'a' ≤ c && c ≤ 'z' then [c.toUpper] else []
  let dotted := if c = 'i' then [Char.ofNat 0x130] else []
  let itself := if simpleLower c = c then [c] else []
  itself ++ ascii ++ dotted ++ beyond

end ReviewGate.Text
