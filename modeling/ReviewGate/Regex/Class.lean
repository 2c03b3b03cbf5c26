import ReviewGate.Text.Case
import ReviewGate.Text.Character
import ReviewGate.Text.Word

/-!
# `ReviewGate.Regex.Class` — sets of characters in a pattern

## Contents
- `Category`: digits, whitespace and word characters, of all scripts or of ASCII alone.
- `ClassItem`: one character, a range, or a category or its complement.
- `Fold`: how characters are compared.
- `CharClass`: a set of items or its complement; `CharClass.holds` is membership.
-/

namespace ReviewGate.Regex

open Text

/-- A class of characters with a name of its own. -/
inductive Category
  | digit
  | blank
  | word
deriving DecidableEq, Repr

/-- Is `c` in the category, looking at ASCII alone if `ascii`? -/
def Category.holds (ascii : Bool) : Category → Char → Bool
  | .digit, c => if ascii then c.isDigit else isDigit c
  | .blank, c => if ascii then c == ' ' || (9 ≤ c.toNat && c.toNat ≤ 13) else isBlank c
  | .word, c => if ascii then c.isAlphanum || c == '_' else isWord c

/-- One part of a set of characters. -/
inductive ClassItem
  | char (c : Char)
  | range (first last : Char)
  | category (kind : Category) (complement ascii : Bool)
deriving DecidableEq, Repr

/-- How the characters of text and pattern are compared: as they are, without regard to the case
of ASCII letters, or without regard to case in any script. -/
inductive Fold
  | exact
  | ascii
  | full
deriving DecidableEq, Repr

/-- The form of a character of the text that comparisons use. -/
def Fold.image : Fold → Char → Char
  | .exact, c => c
  | .ascii, c => c.toLower
  | .full, c => simpleLower c

/-- Is the character of the text, in the form that comparisons use, in the item? -/
def ClassItem.holds (fold : Fold) : ClassItem → Char → Bool
  | .char d, c =>
      match fold with
      | .exact => c == d
      | .ascii => c == d.toLower
      | .full => (foldClass (simpleLower d)).contains c
  | .range first last, c =>
      let within (d : Char) : Bool := first ≤ d && d ≤ last
      match fold with
      | .exact => within c
      | .ascii => within c || within c.toUpper
      | .full => (foldClass c).any fun d => (lowerPreimages d).any within
  | .category kind complement ascii, c => kind.holds ascii c != complement

/-- A set of characters of the pattern. -/
structure CharClass where
  complement : Bool
  items : List ClassItem
  fold : Fold
deriving DecidableEq, Repr

/-- Is the character of the text in the set? -/
def CharClass.holds (s : CharClass) (c : Char) : Bool :=
  let image := s.fold.image c
  (s.items.any fun item => item.holds s.fold image) != s.complement

/-- The set of all characters. -/
def CharClass.all : CharClass := ⟨true, [], .exact⟩

/-- The set of all characters but the newline. -/
def CharClass.notNewline : CharClass := ⟨true, [.char '\n'], .exact⟩

end ReviewGate.Regex
