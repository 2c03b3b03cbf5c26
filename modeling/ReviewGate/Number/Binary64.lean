/-!
# `ReviewGate.Number.Binary64` — double-precision numbers, exactly

A double is kept as what it denotes: a sign and a dyadic number `m · 2^q` in lowest terms, an
infinity, or no number. Two finite doubles other than the zeros are equal exactly when their
representations are, and all arithmetic is exact arithmetic on naturals followed by one rounding.

## Contents
- `Binary64`: the type, with `zero`, `ofNat`.
- `roundRatio`: the double nearest to a quotient of naturals, ties to the even mantissa.
- `ofInt`, `ofDecimal`: the doubles nearest to an integer and to `n · 10^k`.
- `compare?`: the order of the values; `none` beside no number.
- `truncate?`: the integer part.
- `denominator`, `numerator`: the value as a fraction.
-/

namespace ReviewGate.Number

/-- A double-precision number. A finite one has the value `± mantissa · 2^exponent`, where the
mantissa is odd or both are zero. -/
inductive Binary64
  | finite (negative : Bool) (mantissa : Nat) (exponent : Int)
  | infinite (negative : Bool)
  | nan
deriving DecidableEq, Repr, Inhabited

namespace Binary64

/-- Zero with the given sign. -/
def zero (negative : Bool) : Binary64 := .finite negative 0 0

/-- `m · 2^q` in lowest terms, halving `m` at most `fuel` times. -/
def reduce (negative : Bool) : Nat → Nat → Int → Binary64
  | 0, m, q => .finite negative m q
  | fuel + 1, m, q =>
      if m = 0 then zero negative
      else if m % 2 = 0 then reduce negative fuel (m / 2) (q + 1)
      else .finite negative m q

/-- The quotient rounded to the nearest natural, a tie to the even one. -/
def divideToEven (num den : Nat) : Nat :=
  let q := num / den
  let r := num % den
  if 2 * r < den then q
  else if den < 2 * r then q + 1
  else if q % 2 = 0 then q else q + 1

/-- The double with the given sign that is nearest to `num / den`; `den` is positive. -/
def roundRatio (negative : Bool) (num den : Nat) : Binary64 :=
  if num = 0 then zero negative
  else
    -- an exponent for which the scaled quotient has 53 bits or one more
    let rough : Int := (Nat.log2 num : Int) - Nat.log2 den - 53
    let scaled (q : Int) : Nat × Nat :=
      if q < 0 then (num * Nat.pow 2 (-q).toNat, den) else (num, den * Nat.pow 2 q.toNat)
    let exact : Int :=
      let (n, d) := scaled rough
      if n / d < Nat.pow 2 53 then rough else rough + 1
    let q : Int := max exact (-1074)
    let (n, d) := scaled q
    let m := divideToEven n d
    if 1024 ≤ q + Nat.log2 m then .infinite negative
    else reduce negative 64 m q

/-- The double nearest to an integer. -/
def ofInt (n : Int) : Binary64 := roundRatio (n < 0) n.natAbs 1

/-- The double nearest to `digits · 10^exponent` with the given sign. Ten is not raised to an
exponent that takes the number far outside the range of doubles. -/
def ofDecimal (negative : Bool) (digits : Nat) (exponent : Int) : Binary64 :=
  if digits = 0 then zero negative
  else if 400 < (Nat.log2 digits : Int) / 4 + exponent then .infinite negative
  else if (Nat.log2 digits : Int) / 3 + 1 + exponent < -400 then zero negative
  else if exponent < 0 then roundRatio negative digits (Nat.pow 10 (-exponent).toNat)
  else roundRatio negative (digits * Nat.pow 10 exponent.toNat) 1

/-- The order of two dyadic numbers with signs. -/
def compareDyadic (s : Bool) (m : Nat) (q : Int) (s' : Bool) (m' : Nat) (q' : Int) : Ordering :=
  let base := min q q'
  let value (s : Bool) (m : Nat) (q : Int) : Int :=
    let n : Int := (m * Nat.pow 2 (q - base).toNat : Nat)
    if s then -n else n
  compare (value s m q) (value s' m' q')

/-- The order of two doubles by value; `none` if one is no number. -/
def compare? : Binary64 → Binary64 → Option Ordering
  | .nan, _ => none
  | _, .nan => none
  | .infinite s, .infinite s' => some (if s = s' then .eq else if s then .lt else .gt)
  | .infinite s, .finite .. => some (if s then .lt else .gt)
  | .finite .., .infinite s => some (if s then .gt else .lt)
  | .finite s m q, .finite s' m' q' => some (compareDyadic s m q s' m' q')

/-- The order of an integer and a double by value, without rounding the integer. -/
def compareInt? (n : Int) : Binary64 → Option Ordering
  | .nan => none
  | .infinite s => some (if s then .gt else .lt)
  | .finite s m q => some (compareDyadic (n < 0) n.natAbs 0 s m q)

/-- The integer equal to the double, if there is one. -/
def toInt? : Binary64 → Option Int
  | .finite s m q =>
      if m = 0 then some 0
      else if q < 0 then none
      else
        let n : Int := (m * Nat.pow 2 q.toNat : Nat)
        some (if s then -n else n)
  | _ => none

/-- The integer part of a finite double, toward zero. -/
def truncate? : Binary64 → Option Int
  | .finite s m q =>
      let n : Int :=
        (if q < 0 then m / Nat.pow 2 (-q).toNat else m * Nat.pow 2 q.toNat : Nat)
      some (if s then -n else n)
  | _ => none

/-- Is the double zero, of either sign? -/
def isZero : Binary64 → Bool
  | .finite _ m _ => m == 0
  | _ => false

/-- Is `x ≤ y`? False beside no number. -/
def le (x y : Binary64) : Bool :=
  match compare? x y with
  | some .gt => false
  | some _ => true
  | none => false

/-- Is `x < y`? False beside no number. -/
def lt (x y : Binary64) : Bool := compare? x y == some .lt

/-- The magnitude of a finite double as a fraction. -/
def fraction (m : Nat) (q : Int) : Nat × Nat :=
  if q < 0 then (m, Nat.pow 2 (-q).toNat) else (m * Nat.pow 2 q.toNat, 1)

end Binary64

end ReviewGate.Number
