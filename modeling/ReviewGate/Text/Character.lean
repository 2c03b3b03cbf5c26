/-!
# `ReviewGate.Text.Character` — classes of characters

A large class of characters is written as an ascending list of closed code-point ranges. The
whitespace of a text is wider than ASCII's: it holds the information separators, the next-line
control and the spaces of every script. Every script's decimal digits are ten consecutive code points
that start with its zero, so a list of zeros describes them all.

## Contents
- `inRanges`: membership in ranges, which stops at the first range beyond the code point.
- `isBlank`: whitespace.
- `trimStart`, `trimEnd`, `trim`: a text without the whitespace at its ends, over characters.
- `strip`: `trim` over strings.
- `digitZeros`: the zeros beyond ASCII, in code-point order.
- `digitValue?`: the value of a decimal digit, `none` for other characters.
- `isDigit`: decimal digits.
-/

namespace ReviewGate.Text

/-- Does `n` lie in one of the ascending ranges? -/
def inRanges : List (Nat × Nat) → Nat → Bool
  | [], _ => false
  | (first, last) :: rest, n =>
      if n < first then false else if n ≤ last then true else inRanges rest n

/-! ## Whitespace -/

/-- Is `c` whitespace? -/
def isBlank (c : Char) : Bool :=
  let n := c.toNat
  (9 ≤ n && n ≤ 13) || (28 ≤ n && n ≤ 32) || n == 0x85 || n == 0xA0 || n == 0x1680 ||
    (0x2000 ≤ n && n ≤ 0x200A) || n == 0x2028 || n == 0x2029 || n == 0x202F || n == 0x205F ||
    n == 0x3000

/-- The text from its first character that is not whitespace. -/
def trimStart (cs : List Char) : List Char := cs.dropWhile isBlank

/-- The text up to its last character that is not whitespace. -/
def trimEnd (cs : List Char) : List Char := (cs.reverse.dropWhile isBlank).reverse

/-- The text without whitespace at either end. -/
def trim (cs : List Char) : List Char := trimEnd (trimStart cs)

/-- A string without whitespace at either end. -/
def strip (s : String) : String := String.ofList (trim s.toList)

/-! ## Decimal digits -/

/-- The zeros of the scripts beyond ASCII that have decimal digits. -/
def digitZeros : List Nat :=
  [1632, 1776, 1984, 2406, 2534, 2662, 2790, 2918, 3046, 3174, 3302, 3430, 3558, 3664, 3792, 3872,
   4160, 4240, 6112, 6160, 6470, 6608, 6784, 6800, 6992, 7088, 7232, 7248, 42528, 43216, 43264,
   43472, 43504, 43600, 44016, 65296, 66720, 68912, 69734, 69872, 69942, 70096, 70384, 70736,
   70864, 71248, 71360, 71472, 71904, 72016, 72784, 73040, 73120, 92768, 92864, 93008, 120782,
   120792, 120802, 120812, 120822, 123200, 123632, 125264, 130032]

/-- The value of `c` as a decimal digit of its script. -/
def digitValue? (c : Char) : Option Nat :=
  let n := c.toNat
  if n < 128 then
    if c.isDigit then some (n - 48) else none
  else
    (digitZeros.find? fun z => z ≤ n && n < z + 10).map (n - ·)

/-- Is `c` a decimal digit of some script? -/
def isDigit (c : Char) : Bool := (digitValue? c).isSome

end ReviewGate.Text
