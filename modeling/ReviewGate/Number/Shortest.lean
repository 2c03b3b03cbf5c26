import ReviewGate.Number.Binary64

/-!
# `ReviewGate.Number.Shortest` — doubles as decimal text

A double is written with the fewest digits that read back as the same double, and of those
writings the one nearest to it. Positional notation serves magnitudes from `10^-4` up to `10^16`;
all others get an exponent.

## Contents
- `shortestDigits`: the digits and the decimal exponent of a positive dyadic number.
- `DecimalStyle`: where positional notation ends; `DecimalStyle.general` is the one above.
- `render`: the text of a double.
- `renderPlaces`: the text with a fixed number of places.
-/

namespace ReviewGate.Number

namespace Binary64

/-- The number of decimal digits of `n`. -/
def decimalLength (n : Nat) : Nat := (Nat.toDigits 10 n).length

/-- The greatest `k` with `10^k ≤ num / den`. -/
def decimalExponent (num den : Nat) : Int :=
  let guess : Int := (decimalLength num : Int) - decimalLength den
  -- the quotient lies strictly between 10^(guess-1) and 10^(guess+1)
  if (if guess < 0 then den ≤ num * Nat.pow 10 (-guess).toNat else den * Nat.pow 10 guess.toNat ≤ num)
  then guess else guess - 1

/-- The value `num / den` measured in units of `10^k`, as a fraction. -/
def inUnits (num den : Nat) (k : Int) : Nat × Nat :=
  if k < 0 then (num * Nat.pow 10 (-k).toNat, den) else (num, den * Nat.pow 10 k.toNat)

/-- Does `d · 10^k` read back as the double `m · 2^q`? -/
def readsBack (m : Nat) (q : Int) (d : Nat) (k : Int) : Bool :=
  ofDecimal false d k == .finite false m q

/-- The first of the `count` digit numbers from `digits` on that has a writing that reads back,
with that writing: of two on its grid the one nearer to the value, and on a tie the even one. -/
def searchDigits (m : Nat) (q : Int) (e : Int) : Nat → Nat → Nat × Int
  | 0, digits =>
      let (num, den) := fraction m q
      let k := e - (digits : Int) + 1
      let (n, d) := inUnits num den k
      (divideToEven n d, k)
  | count + 1, digits =>
      let (num, den) := fraction m q
      let k := e - (digits : Int) + 1
      let (n, d) := inUnits num den k
      let low := n / d
      let near := divideToEven n d
      let far := if near = low then low + 1 else low
      if readsBack m q near k then (near, k)
      else if readsBack m q far k then (far, k)
      else searchDigits m q e count (digits + 1)

/-- Digits without the zeros at their end, each of which raises the exponent by one. -/
def dropZeros : Nat → Nat → Int → Nat × Int
  | 0, d, k => (d, k)
  | fuel + 1, d, k => if d % 10 = 0 ∧ d ≠ 0 then dropZeros fuel (d / 10) (k + 1) else (d, k)

/-- The shortest decimal `d · 10^k` that reads back as the positive double `m · 2^q`. -/
def shortestDigits (m : Nat) (q : Int) : Nat × Int :=
  let (num, den) := fraction m q
  let (d, k) := searchDigits m q (decimalExponent num den) 17 1
  dropZeros 20 d k

end Binary64

/-- Where positional notation is used: for leading-digit exponents from `least` to `greatest`. -/
structure DecimalStyle where
  least : Int
  greatest : Int

/-- Positional from `10^-4` up to, not including, `10^16`. -/
def DecimalStyle.general : DecimalStyle := ⟨-4, 15⟩

/-- The decimal digits of `n`. -/
def digitsOf (n : Nat) : List Char := Nat.toDigits 10 n

/-- An exponent with its sign and at least two digits. -/
def renderExponent (e : Int) : List Char :=
  let ds := digitsOf e.natAbs
  'e' :: (if e < 0 then '-' else '+') :: (if ds.length < 2 then '0' :: ds else ds)

/-- The text of `d · 10^k`, where `d` is positive and does not end in zero. -/
def renderDecimal (style : DecimalStyle) (d : Nat) (k : Int) : List Char :=
  let ds := digitsOf d
  let lead : Int := k + ds.length - 1
  if style.least ≤ lead ∧ lead ≤ style.greatest then
    if 0 ≤ k then ds ++ List.replicate k.toNat '0' ++ ['.', '0']
    else if 0 ≤ lead then
      let whole := lead.toNat + 1
      ds.take whole ++ '.' :: ds.drop whole
    else '0' :: '.' :: (List.replicate (-lead - 1).toNat '0' ++ ds)
  else
    let mantissa := match ds with
      | [] => []
      | [c] => [c]
      | c :: rest => c :: '.' :: rest
    mantissa ++ renderExponent lead

namespace Binary64

/-- The characters of a double: the shortest text that reads back. -/
def renderChars : Binary64 → List Char
  | .nan => ['n', 'a', 'n']
  | .infinite s => (if s then ['-'] else []) ++ ['i', 'n', 'f']
  | .finite s m q =>
      (if s then ['-'] else []) ++
        if m = 0 then ['0', '.', '0']
        else
          let (d, k) := shortestDigits m q
          renderDecimal .general d k

/-- The text of a double. -/
def render (x : Binary64) : String := String.ofList (x.renderChars)

/-- The text of a double rounded to a fixed number of places, a tie to the even digit. -/
def renderPlaces (places : Nat) : Binary64 → String
  | .finite s m q =>
      let (num, den) := fraction m q
      let n := divideToEven (num * Nat.pow 10 places) den
      let ds := digitsOf n
      let padded := List.replicate (places + 1 - ds.length) '0' ++ ds
      let whole := padded.length - places
      String.ofList ((if s then ['-'] else []) ++ padded.take whole ++ '.' :: padded.drop whole)
  | x => x.render

end Binary64

end ReviewGate.Number
