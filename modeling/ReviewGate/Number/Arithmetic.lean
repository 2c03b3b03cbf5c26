import ReviewGate.Number.Binary64

/-!
# `ReviewGate.Number.Arithmetic` — sums and products of doubles

The exact result is rounded once. A sum of zeros of different signs is the positive zero.

## Contents
- `Binary64.negate`: the double of the other sign.
- `Binary64.add`, `Binary64.mul`: sum and product.
-/

namespace ReviewGate.Number.Binary64

/-- The double of the other sign. -/
def negate : Binary64 → Binary64
  | .finite s m q => .finite (!s) m q
  | .infinite s => .infinite (!s)
  | .nan => .nan

/-- The double nearest to `± m · 2^q`. -/
def roundDyadic (negative : Bool) (m : Nat) (q : Int) : Binary64 :=
  let (num, den) := fraction m q
  roundRatio negative num den

/-- The sum. -/
def add : Binary64 → Binary64 → Binary64
  | .nan, _ => .nan
  | _, .nan => .nan
  | .infinite s, .infinite s' => if s = s' then .infinite s else .nan
  | .infinite s, .finite .. => .infinite s
  | .finite .., .infinite s => .infinite s
  | .finite s m q, .finite s' m' q' =>
      let base := min q q'
      let term (s : Bool) (m : Nat) (q : Int) : Int :=
        let n : Int := (m * Nat.pow 2 (q - base).toNat : Nat)
        if s then -n else n
      let total := term s m q + term s' m' q'
      if total == 0 then zero (s && s')
      else roundDyadic (total < 0) total.natAbs base

/-- The product. -/
def mul : Binary64 → Binary64 → Binary64
  | .nan, _ => .nan
  | _, .nan => .nan
  | .infinite s, .infinite s' => .infinite (s != s')
  | .infinite s, .finite s' m _ => if m = 0 then .nan else .infinite (s != s')
  | .finite s m _, .infinite s' => if m = 0 then .nan else .infinite (s != s')
  | .finite s m q, .finite s' m' q' => roundDyadic (s != s') (m * m') (q + q')

end ReviewGate.Number.Binary64
