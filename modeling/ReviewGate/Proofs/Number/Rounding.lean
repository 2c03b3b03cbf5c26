import Mathlib.Algebra.Order.Field.Power
import Mathlib.Data.Rat.Floor
import Mathlib.Tactic.FieldSimp
import Mathlib.Tactic.Linarith
import Mathlib.Tactic.Ring
import ReviewGate.Number.Binary64

/-!
# `ReviewGate.Proofs.Number.Rounding` — the double nearest to a quotient

`roundRatio` works on numerators and denominators, but what it gives depends on the quotient alone
(`roundRatio_congr`). So rounding is a function of a rational number (`nearest`), and everything
about it is said in rational numbers: which numbers round to a given double (`nearest_of_close`),
and what happens outside the range of doubles.

## Contents
- `scaleDown`: a quotient counted in units of a power.
- `divideToEven_congr`, `divideToEven_of_close`, `abs_divideToEven_sub_le`: rounding to a natural.
- `unitExponent`, `unitExponent_spec`: the unit in which a quotient is rounded.
- `roundRatio_congr`, `nearest`, `roundRatio_eq_nearest`: rounding a rational number.
- `Representable`, `nearest_of_close`: the numbers that round to a given double.
- `Canonical`, `canonical_nearest`: the doubles that rounding gives.
- `nearest_of_large`, `nearest_of_small`, `nearest_withSign`: the ends of the range, and signs.
- `ofInt_infinite_iff`: the integers that have no double.
-/

namespace ReviewGate.Number.Binary64

/-! ## Units -/

theorem zpow_of_neg (b : ℚ) {k : Int} (hk : k < 0) : b ^ k = (b ^ (-k).toNat)⁻¹ := by
  rw [← zpow_natCast, Int.toNat_of_nonneg (by omega), ← zpow_neg, neg_neg]

theorem zpow_of_not_neg (b : ℚ) {k : Int} (hk : ¬k < 0) : b ^ k = b ^ k.toNat := by
  rw [← zpow_natCast, Int.toNat_of_nonneg (by omega)]

/-- The quotient `num / den` counted in units of `b^k`. -/
def scaleDown (b num den : Nat) (k : Int) : Nat × Nat :=
  if k < 0 then (num * Nat.pow b (-k).toNat, den) else (num, den * Nat.pow b k.toNat)

section

variable {b den : Nat} (hb : 0 < b) (hden : 0 < den) (num : Nat)
include hb hden

theorem scaleDown_snd_pos (k : Int) : 0 < (scaleDown b num den k).2 := by
  unfold scaleDown
  split
  · exact hden
  · exact Nat.mul_pos hden (Nat.pow_pos hb)

/-- Counting in units of `b^k` divides by `b^k`. -/
theorem scaleDown_ratio (k : Int) :
    ((scaleDown b num den k).1 : ℚ) / (scaleDown b num den k).2
      = (num : ℚ) / den / (b : ℚ) ^ k := by
  have hb' : (b : ℚ) ≠ 0 := by exact_mod_cast hb.ne'
  have hden' : (den : ℚ) ≠ 0 := by exact_mod_cast hden.ne'
  unfold scaleDown
  by_cases hk : k < 0
  · rw [if_pos hk, zpow_of_neg _ hk, Nat.pow_eq]
    push_cast
    field_simp
  · rw [if_neg hk, zpow_of_not_neg _ hk, Nat.pow_eq]
    push_cast
    field_simp

end

/-! ## Rounding to a natural -/

/-- What is rounded depends on the quotient alone. -/
theorem divideToEven_mul_right {n d c : Nat} (hc : 0 < c) :
    divideToEven (n * c) (d * c) = divideToEven n d := by
  unfold divideToEven
  have hq : n * c / (d * c) = n / d := Nat.mul_div_mul_right n d hc
  have hr : n * c % (d * c) = n % d * c := Nat.mul_mod_mul_right ..
  have hlow : 2 * (n % d * c) < d * c ↔ 2 * (n % d) < d := by
    rw [← Nat.mul_assoc]
    exact Nat.mul_lt_mul_right hc
  have hhigh : d * c < 2 * (n % d * c) ↔ d < 2 * (n % d) := by
    rw [← Nat.mul_assoc]
    exact Nat.mul_lt_mul_right hc
  simp only [hq, hr, hlow, hhigh]

theorem divideToEven_congr {n d n' d' : Nat} (hd : 0 < d) (hd' : 0 < d') (h : n * d' = n' * d) :
    divideToEven n d = divideToEven n' d' := by
  rw [← divideToEven_mul_right hd', h, Nat.mul_comm d d', divideToEven_mul_right hd]

/-- Rounding to a natural moves a quotient by one half at most. -/
theorem divideToEven_bounds {n d : Nat} (hd : 0 < d) :
    2 * n ≤ 2 * (divideToEven n d * d) + d ∧ 2 * (divideToEven n d * d) ≤ 2 * n + d := by
  have hsplit : n / d * d + n % d = n := Nat.div_add_mod' n d
  have hlt : n % d < d := Nat.mod_lt n hd
  have hup : (n / d + 1) * d = n / d * d + d := Nat.succ_mul ..
  unfold divideToEven
  dsimp only
  split
  · omega
  split
  · rw [hup]
    omega
  split
  · omega
  · rw [hup]
    omega

theorem abs_divideToEven_sub_le {n d : Nat} (hd : 0 < d) :
    |(divideToEven n d : ℚ) - (n : ℚ) / d| ≤ 1 / 2 := by
  have hd' : (0 : ℚ) < d := by exact_mod_cast hd
  obtain ⟨hlow, hhigh⟩ := divideToEven_bounds (n := n) hd
  have hlow' : 2 * (n : ℚ) ≤ 2 * (divideToEven n d * d) + d := by exact_mod_cast hlow
  have hhigh' : 2 * ((divideToEven n d : ℚ) * d) ≤ 2 * n + d := by exact_mod_cast hhigh
  have hn : (n : ℚ) / d * d = n := div_mul_cancel₀ _ hd'.ne'
  rw [abs_le]
  constructor
  · nlinarith
  · nlinarith

/-- A natural closer than one half is the rounded one. -/
theorem divideToEven_of_close {n d N : Nat} (hd : 0 < d) (h : |(n : ℚ) / d - N| < 1 / 2) :
    divideToEven n d = N := by
  have hround := abs_divideToEven_sub_le (n := n) hd
  have hless : |(divideToEven n d : ℚ) - N| < 1 := by
    calc |(divideToEven n d : ℚ) - N|
        ≤ |(divideToEven n d : ℚ) - (n : ℚ) / d| + |(n : ℚ) / d - N| := abs_sub_le ..
      _ < 1 := by linarith
  have hint : |(divideToEven n d : ℤ) - N| < 1 := by exact_mod_cast hless
  rw [Int.abs_lt_one_iff] at hint
  omega

/-! ## The unit of rounding -/

/-- The exponent of the unit in which `num / den` has 53 binary digits. -/
def unitExponent (num den : Nat) : Int :=
  let rough : Int := (Nat.log2 num : Int) - Nat.log2 den - 53
  if (scaleDown 2 num den rough).1 / (scaleDown 2 num den rough).2 < Nat.pow 2 53 then rough
  else rough + 1

/-- The exponent of the unit in which `num / den` is rounded: there is none below `-1074`. -/
def roundingUnit (num den : Nat) : Int := max (unitExponent num den) (-1074)

/-- The mantissa that `num / den` is rounded to. -/
def roundingMantissa (num den : Nat) : Nat :=
  let units := scaleDown 2 num den (roundingUnit num den)
  divideToEven units.1 units.2

theorem roundRatio_zero (negative : Bool) (den : Nat) : roundRatio negative 0 den = zero negative :=
  rfl

theorem roundRatio_of_ne_zero {num : Nat} (hnum : num ≠ 0) (negative : Bool) (den : Nat) :
    roundRatio negative num den
      = if 1024 ≤ roundingUnit num den + Nat.log2 (roundingMantissa num den) then
          .infinite negative
        else reduce negative 64 (roundingMantissa num den) (roundingUnit num den) := by
  unfold roundRatio
  rw [if_neg hnum]
  rfl

/-- The mantissa is within one half of the quotient counted in the unit of rounding. -/
theorem abs_roundingMantissa_sub_le {den : Nat} (hden : 0 < den) (num : Nat) :
    |(roundingMantissa num den : ℚ) - (num : ℚ) / den / 2 ^ roundingUnit num den| ≤ 1 / 2 := by
  have hpos := scaleDown_snd_pos (b := 2) two_pos hden num (roundingUnit num den)
  have hratio := scaleDown_ratio (b := 2) two_pos hden num (roundingUnit num den)
  push_cast at hratio
  rw [← hratio]
  exact abs_divideToEven_sub_le hpos

section

variable {num den : Nat} (hnum : num ≠ 0) (hden : 0 < den)
include hnum hden

/-- The binary logarithms of numerator and denominator tell the quotient up to a factor of two. -/
theorem ratio_bounds :
    (2 : ℚ) ^ ((Nat.log2 num : ℤ) - Nat.log2 den - 1) < (num : ℚ) / den ∧
      (num : ℚ) / den < (2 : ℚ) ^ ((Nat.log2 num : ℤ) - Nat.log2 den + 1) := by
  have hnum_low : (2 : ℚ) ^ (Nat.log2 num : ℤ) ≤ num := by
    exact_mod_cast Nat.log2_self_le hnum
  have hnum_high : (num : ℚ) < (2 : ℚ) ^ ((Nat.log2 num : ℤ) + 1) := by
    exact_mod_cast Nat.lt_log2_self (n := num)
  have hden_low : (2 : ℚ) ^ (Nat.log2 den : ℤ) ≤ den := by
    exact_mod_cast Nat.log2_self_le hden.ne'
  have hden_high : (den : ℚ) < (2 : ℚ) ^ ((Nat.log2 den : ℤ) + 1) := by
    exact_mod_cast Nat.lt_log2_self (n := den)
  have hden' : (0 : ℚ) < den := by exact_mod_cast hden
  constructor
  · rw [lt_div_iff₀ hden']
    calc (2 : ℚ) ^ ((Nat.log2 num : ℤ) - Nat.log2 den - 1) * den
        < (2 : ℚ) ^ ((Nat.log2 num : ℤ) - Nat.log2 den - 1) * 2 ^ ((Nat.log2 den : ℤ) + 1) :=
          mul_lt_mul_of_pos_left hden_high (by positivity)
      _ = 2 ^ (Nat.log2 num : ℤ) := by
          rw [← zpow_add₀ two_ne_zero]
          ring_nf
      _ ≤ num := hnum_low
  · rw [div_lt_iff₀ hden']
    calc (num : ℚ) < (2 : ℚ) ^ ((Nat.log2 num : ℤ) + 1) := hnum_high
      _ = (2 : ℚ) ^ ((Nat.log2 num : ℤ) - Nat.log2 den + 1) * 2 ^ (Nat.log2 den : ℤ) := by
          rw [← zpow_add₀ two_ne_zero]
          ring_nf
      _ ≤ (2 : ℚ) ^ ((Nat.log2 num : ℤ) - Nat.log2 den + 1) * den :=
          mul_le_mul_of_nonneg_left hden_low (by positivity)

/-- **In its unit the quotient has 53 binary digits.** -/
theorem unitExponent_spec :
    (2 : ℚ) ^ (unitExponent num den + 52) ≤ (num : ℚ) / den ∧
      (num : ℚ) / den < (2 : ℚ) ^ (unitExponent num den + 53) := by
  obtain ⟨hlow, hhigh⟩ := ratio_bounds hnum hden
  -- the rough exponent is right or too small by one, and the test tells which
  obtain ⟨rough, hrough⟩ : ∃ rough : ℤ, rough = (Nat.log2 num : ℤ) - Nat.log2 den - 53 := ⟨_, rfl⟩
  have hratio := scaleDown_ratio (b := 2) two_pos hden num rough
  have hpos := scaleDown_snd_pos (b := 2) two_pos hden num rough
  have htest : (scaleDown 2 num den rough).1 / (scaleDown 2 num den rough).2 < 2 ^ 53 ↔
      (num : ℚ) / den < 2 ^ (rough + 53) := by
    have hpos' : (0 : ℚ) < (scaleDown 2 num den rough).2 := by exact_mod_cast hpos
    have hpow : (0 : ℚ) < (2 : ℚ) ^ rough := by positivity
    rw [Nat.div_lt_iff_lt_mul hpos, zpow_add₀ two_ne_zero, ← div_lt_iff₀' hpow]
    push_cast at hratio
    rw [← hratio, div_lt_iff₀ hpos']
    exact_mod_cast Iff.rfl
  have hdef : unitExponent num den = if (num : ℚ) / den < 2 ^ (rough + 53) then rough
      else rough + 1 := by
    rw [← if_congr htest rfl rfl, hrough]
    rfl
  by_cases h : (num : ℚ) / den < 2 ^ (rough + 53)
  · rw [hdef, if_pos h]
    refine ⟨le_of_lt ?_, h⟩
    rwa [show rough + 52 = (Nat.log2 num : ℤ) - Nat.log2 den - 1 by omega]
  · rw [hdef, if_neg h]
    refine ⟨?_, ?_⟩
    · rw [show rough + 1 + 52 = rough + 53 by omega]
      exact not_lt.mp h
    · rwa [show rough + 1 + 53 = (Nat.log2 num : ℤ) - Nat.log2 den + 1 by omega]

/-- In the unit of rounding the quotient has 53 binary digits at most. -/
theorem ratio_lt_roundingUnit : (num : ℚ) / den < (2 : ℚ) ^ (roundingUnit num den + 53) := by
  refine lt_of_lt_of_le (unitExponent_spec hnum hden).2 ?_
  have hle : unitExponent num den ≤ roundingUnit num den := le_max_left _ _
  exact zpow_le_zpow_right₀ one_le_two (by omega)

omit hnum in
theorem roundingMantissa_of_close {N : Nat}
    (h : |(num : ℚ) / den / 2 ^ roundingUnit num den - N| < 1 / 2) :
    roundingMantissa num den = N := by
  have hpos := scaleDown_snd_pos (b := 2) two_pos hden num (roundingUnit num den)
  have hratio := scaleDown_ratio (b := 2) two_pos hden num (roundingUnit num den)
  push_cast at hratio
  exact divideToEven_of_close hpos (hratio ▸ h)

end

/-! ## Rounding a rational number -/

/-- A number lies between neighbouring powers of two for one exponent only. -/
theorem exponent_unique {x : ℚ} {e e' : ℤ}
    (hlow : (2 : ℚ) ^ (e + 52) ≤ x) (hhigh : x < 2 ^ (e + 53))
    (hlow' : (2 : ℚ) ^ (e' + 52) ≤ x) (hhigh' : x < 2 ^ (e' + 53)) : e = e' := by
  have hle : e + 52 < e' + 53 :=
    (zpow_lt_zpow_iff_right₀ one_lt_two).mp (lt_of_le_of_lt hlow hhigh')
  have hge : e' + 52 < e + 53 :=
    (zpow_lt_zpow_iff_right₀ one_lt_two).mp (lt_of_le_of_lt hlow' hhigh)
  omega

/-- **Rounding depends on the quotient alone.** -/
theorem roundRatio_congr {num den num' den' : Nat} (hden : 0 < den) (hden' : 0 < den')
    (h : (num : ℚ) / den = num' / den') (negative : Bool) :
    roundRatio negative num den = roundRatio negative num' den' := by
  have hden₀ : (den : ℚ) ≠ 0 := by exact_mod_cast hden.ne'
  have hden₀' : (den' : ℚ) ≠ 0 := by exact_mod_cast hden'.ne'
  by_cases hnum : num = 0
  · have hnum' : num' = 0 := by
      rw [hnum, Nat.cast_zero, zero_div, eq_comm, div_eq_zero_iff] at h
      exact_mod_cast h.resolve_right hden₀'
    rw [hnum, hnum', roundRatio_zero, roundRatio_zero]
  · have hnum' : num' ≠ 0 := by
      rintro rfl
      rw [Nat.cast_zero, zero_div, div_eq_zero_iff] at h
      exact hnum (by exact_mod_cast h.resolve_right hden₀)
    -- the unit is determined by the quotient, and so is the mantissa in this unit
    have hunit : roundingUnit num den = roundingUnit num' den' := by
      obtain ⟨hlow, hhigh⟩ := unitExponent_spec hnum hden
      obtain ⟨hlow', hhigh'⟩ := unitExponent_spec hnum' hden'
      rw [roundingUnit, roundingUnit, exponent_unique hlow hhigh (h ▸ hlow') (h ▸ hhigh')]
    have hmantissa : roundingMantissa num den = roundingMantissa num' den' := by
      have hpos := scaleDown_snd_pos (b := 2) two_pos hden num (roundingUnit num den)
      have hpos' := scaleDown_snd_pos (b := 2) two_pos hden' num' (roundingUnit num den)
      refine divideToEven_congr hpos (hunit ▸ hpos') ?_
      have hratio := scaleDown_ratio (b := 2) two_pos hden num (roundingUnit num den)
      have hratio' := scaleDown_ratio (b := 2) two_pos hden' num' (roundingUnit num den)
      rw [← h, ← hratio, div_eq_div_iff (by exact_mod_cast hpos'.ne')
        (by exact_mod_cast hpos.ne')] at hratio'
      rw [← hunit]
      exact_mod_cast hratio'.symm
    rw [roundRatio_of_ne_zero hnum, roundRatio_of_ne_zero hnum', hunit, hmantissa]

/-- The double with the given sign that is nearest to a number, which is not negative. -/
def nearest (negative : Bool) (x : ℚ) : Binary64 := roundRatio negative x.num.natAbs x.den

theorem natAbs_num_div_den {x : ℚ} (hx : 0 ≤ x) : (x.num.natAbs : ℚ) / x.den = x := by
  have hnum : ((x.num.natAbs : ℤ) : ℚ) = x.num := by
    rw [Int.natAbs_of_nonneg (Rat.num_nonneg.mpr hx)]
  rw [← Int.cast_natCast, hnum]
  exact Rat.num_div_den x

/-- **Rounding a quotient is rounding the number that it is.** -/
theorem roundRatio_eq_nearest {num den : Nat} (hden : 0 < den) (negative : Bool) :
    roundRatio negative num den = nearest negative ((num : ℚ) / den) :=
  roundRatio_congr hden (Rat.den_pos _) (natAbs_num_div_den (by positivity)).symm negative

/-- A positive number is a quotient of naturals, and rounding it is rounding that quotient. -/
theorem exists_ratio {x : ℚ} (hx : 0 < x) :
    ∃ num den : Nat, num ≠ 0 ∧ 0 < den ∧ (num : ℚ) / den = x ∧
      ∀ negative, nearest negative x = roundRatio negative num den := by
  have hratio := natAbs_num_div_den hx.le
  refine ⟨x.num.natAbs, x.den, ?_, x.den_pos, hratio, fun _ => rfl⟩
  intro hnum
  rw [hnum, Nat.cast_zero, zero_div] at hratio
  exact hx.ne hratio

/-! ## Lowest terms -/

/-- A mantissa and an exponent of a double other than zero, in lowest terms. -/
structure Representable (m : Nat) (q : Int) : Prop where
  odd : m % 2 = 1
  small : m < 2 ^ 53
  least : -1074 ≤ q
  greatest : q + Nat.log2 m < 1024

/-- Halving takes the powers of two out of the mantissa. -/
theorem reduce_mul_pow {m : Nat} (hodd : m % 2 = 1) (negative : Bool) (j fuel : Nat) (q : Int)
    (hfuel : j ≤ fuel) : reduce negative fuel (m * 2 ^ j) q = .finite negative m (q + j) := by
  induction j generalizing fuel q with
  | zero =>
      rw [pow_zero, mul_one, Nat.cast_zero, add_zero]
      cases fuel with
      | zero => rfl
      | succ fuel => rw [reduce, if_neg (by omega), if_neg (by omega)]
  | succ j ih =>
      cases fuel with
      | zero => omega
      | succ fuel =>
          have hpos : m * 2 ^ j ≠ 0 := Nat.mul_ne_zero (by omega) (by positivity)
          have hdouble : m * 2 ^ (j + 1) = 2 * (m * 2 ^ j) := by ring
          rw [reduce, hdouble, if_neg (by omega), if_pos (by omega),
            Nat.mul_div_cancel_left _ two_pos, ih fuel (q + 1) (by omega)]
          congr 1
          push_cast
          ring

/-- A natural other than zero is an odd one times a power of two. -/
theorem exists_odd_mul_pow {N : Nat} (hN : N ≠ 0) : ∃ m j, m % 2 = 1 ∧ N = m * 2 ^ j := by
  induction N using Nat.strong_induction_on with
  | _ N ih =>
      by_cases hodd : N % 2 = 1
      · exact ⟨N, 0, hodd, (mul_one N).symm⟩
      · obtain ⟨m, j, hm, hhalf⟩ := ih (N / 2) (by omega) (by omega)
        refine ⟨m, j + 1, hm, ?_⟩
        have hdouble : m * 2 ^ (j + 1) = 2 * (m * 2 ^ j) := by ring
        omega

theorem log2_mul_pow {m : Nat} (hm : m ≠ 0) (j : Nat) : Nat.log2 (m * 2 ^ j) = Nat.log2 m + j := by
  have hlow := Nat.log2_self_le hm
  have hhigh := Nat.lt_log2_self (n := m)
  refine (Nat.log2_eq_iff (Nat.mul_ne_zero hm (by positivity))).mpr ⟨?_, ?_⟩
  · rw [pow_add]
    exact Nat.mul_le_mul_right _ hlow
  · rw [show Nat.log2 m + j + 1 = Nat.log2 m + 1 + j by omega, pow_add]
    exact Nat.mul_lt_mul_of_pos_right hhigh (by positivity)

/-! ## Which numbers round to a double -/

section

variable {m : Nat} {q : Int} (hrep : Representable m q)
include hrep

theorem Representable.ne_zero : m ≠ 0 := by
  have := hrep.odd
  omega

theorem Representable.pos : (0 : ℚ) < m * 2 ^ q := by
  have hm : (0 : ℚ) < m := by exact_mod_cast Nat.pos_of_ne_zero hrep.ne_zero
  positivity

variable {x : ℚ} (hclose : |x - m * 2 ^ q| * 2 ^ 57 ≤ m * 2 ^ q)
include hclose

/-- Such a number lies between half the double and twice the double. -/
theorem Representable.pos_of_close : 0 < x ∧ (m : ℚ) * 2 ^ q ≤ 2 * x := by
  have hpos := hrep.pos
  have hlow := neg_abs_le (x - m * 2 ^ q)
  constructor <;> linarith

/-- The unit in which such a number is rounded is not greater than the unit of the double. -/
theorem Representable.roundingUnit_le {num den : Nat} (hnum : num ≠ 0) (hden : 0 < den)
    (hx : (num : ℚ) / den = x) : roundingUnit num den ≤ q := by
  obtain ⟨hlow, -⟩ := unitExponent_spec hnum hden
  rw [hx] at hlow
  refine max_le ?_ hrep.least
  by_contra hgreater
  rw [not_le] at hgreater
  -- otherwise the double has too few digits to come near the number
  obtain ⟨t, ht⟩ : ∃ t : ℚ, t = 2 ^ (unitExponent num den - 1) := ⟨_, rfl⟩
  have htpos : 0 < t := ht ▸ by positivity
  have hx_low : t * 2 ^ 53 ≤ x := by
    calc t * 2 ^ 53 = 2 ^ (unitExponent num den + 52) := by
          rw [ht, ← zpow_natCast, ← zpow_add₀ two_ne_zero]
          congr 1
          push_cast
          ring
      _ ≤ x := hlow
  have hv : (m : ℚ) * 2 ^ q ≤ t * (2 ^ 53 - 1) := by
    have hm : (m : ℚ) ≤ 2 ^ 53 - 1 := by
      have := hrep.small
      rw [le_sub_iff_add_le]
      exact_mod_cast this
    have hq : (2 : ℚ) ^ q ≤ t := by
      rw [ht]
      exact zpow_le_zpow_right₀ one_le_two (by omega)
    calc (m : ℚ) * 2 ^ q ≤ (2 ^ 53 - 1) * t :=
          mul_le_mul hm hq (by positivity) (by norm_num)
      _ = t * (2 ^ 53 - 1) := mul_comm ..
  have habs := le_abs_self (x - m * 2 ^ q)
  linarith

/-- **A number very close to a double rounds to it.** -/
theorem nearest_of_close (negative : Bool) : nearest negative x = .finite negative m q := by
  obtain ⟨hx, htwice⟩ := hrep.pos_of_close hclose
  obtain ⟨num, den, hnum, hden, hratio, hround⟩ := exists_ratio hx
  have hunit := hrep.roundingUnit_le hclose hnum hden hratio
  have hhigh := ratio_lt_roundingUnit hnum hden
  obtain ⟨j, hj⟩ : ∃ j : Nat, q = roundingUnit num den + j :=
    ⟨(q - roundingUnit num den).toNat, by omega⟩
  obtain ⟨t, ht⟩ : ∃ t : ℚ, t = 2 ^ roundingUnit num den := ⟨_, rfl⟩
  have htpos : 0 < t := ht ▸ by positivity
  have hv : (m : ℚ) * 2 ^ q = (m * 2 ^ j : Nat) * t := by
    rw [hj, zpow_add₀ two_ne_zero, ht, zpow_natCast]
    push_cast
    ring
  have hx_high : x < t * 2 ^ 53 := by
    rw [zpow_add₀ two_ne_zero, ← ht, hratio] at hhigh
    exact_mod_cast hhigh
  -- the double is a whole number of units, and the nearest whole number
  have hmantissa : roundingMantissa num den = m * 2 ^ j := by
    refine roundingMantissa_of_close hden ?_
    have hsplit : x / t - (m * 2 ^ j : Nat) = (x - m * 2 ^ q) / t := by
      rw [hv]
      field_simp
    rw [hratio, ← ht, hsplit, abs_div, abs_of_pos htpos, div_lt_iff₀ htpos]
    linarith
  -- the shift is less than the digits that are rounded to, so halving runs to its end
  have hshift : j ≤ 64 := by
    have hdigits : ((m * 2 ^ j : Nat) : ℚ) < 2 ^ 54 := by
      refine lt_of_mul_lt_mul_right ?_ htpos.le
      rw [← hv]
      linarith
    have hdigits' : m * 2 ^ j < 2 ^ 54 := by exact_mod_cast hdigits
    have hpow : 2 ^ j < 2 ^ 54 :=
      lt_of_le_of_lt (Nat.le_mul_of_pos_left _ (Nat.pos_of_ne_zero hrep.ne_zero)) hdigits'
    have := (Nat.pow_lt_pow_iff_right one_lt_two).mp hpow
    omega
  have hrange := hrep.greatest
  rw [hround, roundRatio_of_ne_zero hnum, hmantissa,
    log2_mul_pow hrep.ne_zero, if_neg (by push_cast; omega),
    reduce_mul_pow hrep.odd negative j 64 _ hshift, ← hj]

end

/-! ## What rounding gives -/

/-- The double with the given sign and the magnitude of `x`. -/
def withSign (negative : Bool) : Binary64 → Binary64
  | .finite _ m q => .finite negative m q
  | .infinite _ => .infinite negative
  | .nan => .nan

theorem reduce_withSign (negative : Bool) (fuel m : Nat) (q : Int) :
    reduce negative fuel m q = (reduce false fuel m q).withSign negative := by
  induction fuel generalizing m q with
  | zero => rfl
  | succ fuel ih =>
      rw [reduce, reduce]
      split
      · rfl
      · split
        · exact ih ..
        · rfl

/-- The sign has no part in the rounding. -/
theorem nearest_withSign (negative : Bool) (x : ℚ) :
    nearest negative x = (nearest false x).withSign negative := by
  unfold nearest
  by_cases hnum : x.num.natAbs = 0
  · rw [hnum]
    rfl
  · rw [roundRatio_of_ne_zero hnum, roundRatio_of_ne_zero hnum]
    split
    · rfl
    · exact reduce_withSign ..

/-- A double as arithmetic gives it: zero without an exponent, any other finite one in lowest
terms. -/
def Canonical : Binary64 → Prop
  | .finite _ m q => m = 0 ∧ q = 0 ∨ Representable m q
  | .infinite _ => True
  | .nan => True

theorem canonical_zero (negative : Bool) : (zero negative).Canonical := Or.inl ⟨rfl, rfl⟩

/-- The mantissa may reach the power of two above its digits. -/
theorem roundingMantissa_le {num den : Nat} (hnum : num ≠ 0) (hden : 0 < den) :
    roundingMantissa num den ≤ 2 ^ 53 := by
  have hclose := abs_roundingMantissa_sub_le hden num
  have hhigh := ratio_lt_roundingUnit hnum hden
  rw [zpow_add₀ two_ne_zero, ← div_lt_iff₀' (by positivity)] at hhigh
  rw [abs_le] at hclose
  have hless : (roundingMantissa num den : ℚ) < (2 ^ 53 + 1 : Nat) := by
    have hhigh' : (num : ℚ) / den / 2 ^ roundingUnit num den < 2 ^ 53 := by exact_mod_cast hhigh
    push_cast
    linarith [hclose.2]
  exact Nat.lt_succ_iff.mp (by exact_mod_cast hless)

/-- **Rounding gives canonical doubles.** -/
theorem canonical_nearest (negative : Bool) (x : ℚ) : (nearest negative x).Canonical := by
  unfold nearest
  by_cases hnum : x.num.natAbs = 0
  · rw [hnum]
    exact canonical_zero negative
  have hsmall := roundingMantissa_le hnum x.den_pos
  rw [roundRatio_of_ne_zero hnum]
  split
  · exact trivial
  next hrange =>
  by_cases hM : roundingMantissa x.num.natAbs x.den = 0
  · rw [hM]
    exact canonical_zero negative
  -- halving takes out the powers of two that the mantissa has
  obtain ⟨m, j, hodd, hsplit⟩ := exists_odd_mul_pow hM
  have hm : m ≠ 0 := by omega
  rw [hsplit] at hrange hsmall ⊢
  rw [log2_mul_pow hm] at hrange
  have hj : j ≤ 64 := by
    have hpow : 2 ^ j ≤ 2 ^ 53 :=
      le_trans (Nat.le_mul_of_pos_left _ (Nat.pos_of_ne_zero hm)) hsmall
    have := (Nat.pow_le_pow_iff_right one_lt_two).mp hpow
    omega
  rw [reduce_mul_pow hodd negative j 64 _ hj]
  right
  refine ⟨hodd, ?_, ?_, ?_⟩
  · have hle : m ≤ 2 ^ 53 := le_trans (Nat.le_mul_of_pos_right _ (by positivity)) hsmall
    omega
  · have hleast : -1074 ≤ roundingUnit x.num.natAbs x.den := le_max_right _ _
    omega
  · push_cast at hrange
    omega

/-- A quotient that is not rounded in the least unit has a mantissa of 53 digits. -/
theorem le_roundingMantissa {num den : Nat} (hnum : num ≠ 0) (hden : 0 < den)
    (hunit : roundingUnit num den = unitExponent num den) :
    2 ^ 52 ≤ roundingMantissa num den := by
  obtain ⟨hlow, -⟩ := unitExponent_spec hnum hden
  have hclose := abs_roundingMantissa_sub_le hden num
  rw [hunit, abs_le] at hclose
  rw [zpow_add₀ two_ne_zero, ← le_div_iff₀' (by positivity)] at hlow
  have hless : ((2 ^ 52 : Nat) : ℚ) < roundingMantissa num den + 1 := by
    push_cast
    norm_num at hlow hclose ⊢
    linarith [hclose.1]
  exact Nat.lt_succ_iff.mp (by exact_mod_cast hless)

/-- Beyond the doubles there is infinity only. -/
theorem nearest_of_large {x : ℚ} (hx : 2 ^ 1024 ≤ x) (negative : Bool) :
    nearest negative x = .infinite negative := by
  have hpos : 0 < x := lt_of_lt_of_le (by positivity) hx
  obtain ⟨num, den, hnum, hden, hratio, hround⟩ := exists_ratio hpos
  obtain ⟨-, hhigh⟩ := unitExponent_spec hnum hden
  rw [hratio] at hhigh
  have hexp : 1024 < unitExponent num den + 53 := by
    refine (zpow_lt_zpow_iff_right₀ (one_lt_two (α := ℚ))).mp (lt_of_le_of_lt ?_ hhigh)
    exact_mod_cast hx
  have hunit : roundingUnit num den = unitExponent num den := max_eq_left (by omega)
  have hdigits := le_roundingMantissa hnum hden hunit
  have hlog : 52 ≤ Nat.log2 (roundingMantissa num den) :=
    (Nat.le_log2 (by omega)).mpr hdigits
  rw [hround, roundRatio_of_ne_zero hnum, hunit, if_pos (by omega)]

/-- Below half the least double there is zero only. -/
theorem nearest_of_small {x : ℚ} (hx : 0 ≤ x) (hsmall : x < 2 ^ (-1075 : ℤ)) (negative : Bool) :
    nearest negative x = zero negative := by
  obtain rfl | hpos := hx.eq_or_lt
  · rfl
  obtain ⟨num, den, hnum, hden, hratio, hround⟩ := exists_ratio hpos
  obtain ⟨hlow, -⟩ := unitExponent_spec hnum hden
  rw [hratio] at hlow
  have hexp : unitExponent num den + 52 < -1075 :=
    (zpow_lt_zpow_iff_right₀ (one_lt_two (α := ℚ))).mp (lt_of_le_of_lt hlow hsmall)
  have hunit : roundingUnit num den = -1074 := max_eq_right (by omega)
  have hmantissa : roundingMantissa num den = 0 := by
    refine roundingMantissa_of_close hden ?_
    have hhalf : (2 : ℚ) ^ (-1075 : ℤ) = 1 / 2 * 2 ^ (-1074 : ℤ) := by
      rw [show (-1075 : ℤ) = -1 + -1074 by norm_num, zpow_add₀ two_ne_zero]
      norm_num
    rw [hratio, hunit, Nat.cast_zero, sub_zero, abs_of_nonneg (by positivity),
      div_lt_iff₀ (by positivity), ← hhalf]
    exact hsmall
  rw [hround, roundRatio_of_ne_zero hnum, hmantissa, hunit]
  rfl

/-! ## Integers that have no double -/

theorem reduce_ne_infinite (negative : Bool) (fuel m : Nat) (q : Int) (s : Bool) :
    reduce negative fuel m q ≠ .infinite s := by
  induction fuel generalizing m q with
  | zero => exact nofun
  | succ fuel ih =>
      rw [reduce]
      split
      · exact nofun
      · split
        · exact ih _ _
        · exact nofun

/-- A quotient below `2^53` rounds to `2^53` from half a unit below it on: there a tie is possible,
and the natural below is odd. -/
theorem divideToEven_eq_top_iff {n half : Nat} (hhalf : 0 < half)
    (hn : n < 2 ^ 53 * (2 * half)) :
    divideToEven n (2 * half) = 2 ^ 53 ↔ 2 ^ 53 * (2 * half) ≤ n + half := by
  have hsplit : n / (2 * half) * (2 * half) + n % (2 * half) = n := Nat.div_add_mod' ..
  have hlt : n % (2 * half) < 2 * half := Nat.mod_lt _ (by omega)
  have hquotient : n / (2 * half) < 2 ^ 53 := (Nat.div_lt_iff_lt_mul (by omega)).mpr hn
  obtain htop | hbelow : n / (2 * half) = 2 ^ 53 - 1 ∨ n / (2 * half) + 2 ≤ 2 ^ 53 := by omega
  · unfold divideToEven
    rw [htop] at hsplit ⊢
    dsimp only
    split
    · omega
    · split
      · omega
      · rw [if_neg (by decide)]
        omega
  · have hmul : (n / (2 * half) + 2) * (2 * half) ≤ 2 ^ 53 * (2 * half) :=
      Nat.mul_le_mul_right _ hbelow
    have hle : divideToEven n (2 * half) ≤ n / (2 * half) + 1 := by
      unfold divideToEven
      dsimp only
      split
      · omega
      · split
        · exact le_refl _
        · split <;> omega
    rw [Nat.add_mul] at hmul
    omega

theorem ofInt_infinite_iff_unit {n : Int} (hn : n.natAbs ≠ 0) :
    (∃ s, ofInt n = .infinite s) ↔
      1024 ≤ roundingUnit n.natAbs 1 + Nat.log2 (roundingMantissa n.natAbs 1) := by
  rw [ofInt, roundRatio_of_ne_zero hn]
  split
  next h => exact ⟨fun _ => h, fun _ => ⟨_, rfl⟩⟩
  next h =>
    refine ⟨fun ⟨s, hs⟩ => ?_, fun hrange => absurd hrange h⟩
    exact absurd hs (reduce_ne_infinite _ _ _ _ s)

/-- A natural of this size is counted in units that are naturals. -/
theorem roundingMantissa_of_unit {num k : Nat} (hunit : roundingUnit num 1 = k) :
    roundingMantissa num 1 = divideToEven num (2 ^ k) := by
  have hnat : ¬roundingUnit num 1 < 0 := by omega
  unfold roundingMantissa scaleDown
  rw [if_neg hnat, hunit, Int.toNat_natCast, Nat.one_mul]
  rfl

/-- A natural with the given unit is rounded up to the next power of two from half a unit below it
on. The unit is a variable because the powers of two here are too large to be computed. -/
theorem top_unit_iff {k : Nat} {num : Nat} (hnum : num ≠ 0)
    (hunit : roundingUnit num 1 = unitExponent num 1) (hat : unitExponent num 1 = (k + 1 : Nat)) :
    53 ≤ Nat.log2 (roundingMantissa num 1) ↔ 2 ^ (54 + k) ≤ num + 2 ^ k := by
  have hleast := le_roundingMantissa hnum one_pos hunit
  have hmost := roundingMantissa_le hnum one_pos
  have hpow : 2 ^ (54 + k) = 2 ^ 53 * (2 * 2 ^ k) := by ring
  have hless : num < 2 ^ 53 * (2 * 2 ^ k) := by
    have hhigh := (unitExponent_spec hnum one_pos).2
    rw [hat, Nat.cast_one, div_one] at hhigh
    rw [← hpow, show 54 + k = k + 1 + 53 by omega]
    exact_mod_cast hhigh
  have hmantissa : roundingMantissa num 1 = divideToEven num (2 * 2 ^ k) := by
    rw [roundingMantissa_of_unit (hunit.trans hat), pow_succ']
  rw [hpow, ← divideToEven_eq_top_iff (by positivity) hless, ← hmantissa,
    Nat.le_log2 (by omega)]
  exact ⟨fun h => le_antisymm hmost h, fun h => h.ge⟩

theorem pow_add_pow_le {i j k : Nat} (hi : i < k) (hj : j < k) : 2 ^ i + 2 ^ j ≤ 2 ^ k := by
  obtain ⟨m, rfl⟩ := Nat.exists_eq_add_of_lt (Nat.zero_lt_of_lt hi)
  have hi' : 2 ^ i ≤ 2 ^ (0 + m) := pow_le_pow_right₀ one_le_two (by omega)
  have hj' : 2 ^ j ≤ 2 ^ (0 + m) := pow_le_pow_right₀ one_le_two (by omega)
  rw [pow_succ]
  omega

/-- **An integer has no double from half a unit below `2^1024` on.** -/
theorem ofInt_infinite_iff {n : Int} :
    (∃ s, ofInt n = .infinite s) ↔ 2 ^ 1024 ≤ n.natAbs + 2 ^ 970 := by
  by_cases hn : n.natAbs = 0
  · have hzero : ofInt n = zero (n < 0) := by
      rw [ofInt, hn]
      rfl
    have hless : 2 ^ 970 < 2 ^ 1024 := pow_lt_pow_right₀ one_lt_two (by decide)
    refine ⟨fun ⟨s, hs⟩ => ?_, fun h => ?_⟩
    · rw [hzero] at hs
      cases hs
    · rw [hn, Nat.zero_add] at h
      exact absurd hless (not_lt.mpr h)
  rw [ofInt_infinite_iff_unit hn]
  obtain ⟨hlow, hhigh⟩ := unitExponent_spec hn one_pos
  rw [Nat.cast_one, div_one] at hlow hhigh
  have hone : (1 : ℚ) ≤ n.natAbs := by exact_mod_cast Nat.one_le_iff_ne_zero.mpr hn
  have hexp : 0 < unitExponent n.natAbs 1 + 53 := by
    refine (zpow_lt_zpow_iff_right₀ (one_lt_two (α := ℚ))).mp (lt_of_le_of_lt ?_ hhigh)
    exact_mod_cast hone
  have hunit : roundingUnit n.natAbs 1 = unitExponent n.natAbs 1 := max_eq_left (by omega)
  have hleast := le_roundingMantissa hn one_pos hunit
  have hmost := roundingMantissa_le hn one_pos
  have hlog : 52 ≤ Nat.log2 (roundingMantissa n.natAbs 1) := (Nat.le_log2 (by omega)).mpr hleast
  have hlog' : Nat.log2 (roundingMantissa n.natAbs 1) < 54 :=
    (Nat.log2_lt (by omega)).mpr (lt_of_le_of_lt hmost (by decide))
  rw [hunit]
  obtain hbelow | hat | habove := lt_trichotomy (unitExponent n.natAbs 1) 971
  · have hless : n.natAbs < 2 ^ 1023 := by
      have hle : (2 : ℚ) ^ (unitExponent n.natAbs 1 + 53) ≤ 2 ^ (1023 : ℤ) :=
        zpow_le_zpow_right₀ one_le_two (by omega)
      exact_mod_cast lt_of_lt_of_le hhigh hle
    have hsum : 2 ^ 1023 + 2 ^ 970 ≤ 2 ^ 1024 := pow_add_pow_le (by decide) (by decide)
    exact ⟨fun h => by omega, fun h => by omega⟩
  · have htop := top_unit_iff hn hunit (k := 970) hat
    rw [← htop]
    omega
  · have hgreater : 2 ^ 1024 ≤ n.natAbs := by
      have hle : (2 : ℚ) ^ (1024 : ℤ) ≤ 2 ^ (unitExponent n.natAbs 1 + 52) :=
        zpow_le_zpow_right₀ one_le_two (by omega)
      exact_mod_cast le_trans hle hlow
    exact ⟨fun _ => le_trans hgreater (Nat.le_add_right ..), fun _ => by omega⟩

end ReviewGate.Number.Binary64
