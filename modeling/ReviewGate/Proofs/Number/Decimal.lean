import ReviewGate.Number.Shortest
import ReviewGate.Proofs.Number.Rounding

/-!
# `ReviewGate.Proofs.Number.Decimal` — decimal writings of doubles

Reading a decimal is rounding its value (`ofDecimal_eq_nearest`): the bounds that keep huge powers
of ten from being computed change nothing. The writing of a double is searched digit by digit, and
every writing that the search can end with reads back as the double (`nearest_shortestDigits`).
For the writings that were tried this is what the test says; the last one is not tried, and it
reads back because its eighteen digits bring it close enough.

## Contents
- `ofDecimal_eq_nearest`: the double that a decimal denotes.
- `fraction_ratio`, `pow_decimalExponent_le`: the number to be written and its leading digit.
- `nearest_searchDigits`, `dropZeros_value`, `nearest_shortestDigits`: the writing reads back.
-/

namespace ReviewGate.Number.Binary64

/-! ## Reading -/

/-- The power of ten from which on a decimal is not computed. -/
theorem pow_two_lt_pow_ten : (2 : ℚ) ^ 1075 < 10 ^ 401 := by
  calc (2 : ℚ) ^ 1075 < 2 ^ (3 * 401) := pow_lt_pow_right₀ one_lt_two (by norm_num)
    _ = (2 ^ 3) ^ 401 := pow_mul ..
    _ ≤ 10 ^ 401 := pow_le_pow_left₀ (by norm_num) (by norm_num) _

/-- A natural has a decimal digit at least for every four binary digits. -/
theorem pow_le_of_log2 {d : Nat} (hd : d ≠ 0) : 10 ^ (Nat.log2 d / 4) ≤ d := by
  calc 10 ^ (Nat.log2 d / 4)
      ≤ 16 ^ (Nat.log2 d / 4) := Nat.pow_le_pow_left (by norm_num) _
    _ = 2 ^ (4 * (Nat.log2 d / 4)) := (pow_mul 2 4 _).symm
    _ ≤ 2 ^ Nat.log2 d := Nat.pow_le_pow_right two_pos (Nat.mul_div_le ..)
    _ ≤ d := Nat.log2_self_le hd

/-- A natural has a decimal digit at most for every three binary digits. -/
theorem lt_pow_of_log2 (d : Nat) : d < 10 ^ (Nat.log2 d / 3 + 1) := by
  calc d < 2 ^ (Nat.log2 d + 1) := Nat.lt_log2_self
    _ ≤ 2 ^ (3 * (Nat.log2 d / 3 + 1)) := Nat.pow_le_pow_right two_pos (by omega)
    _ = 8 ^ (Nat.log2 d / 3 + 1) := pow_mul 2 3 _
    _ ≤ 10 ^ (Nat.log2 d / 3 + 1) := Nat.pow_le_pow_left (by norm_num) _

/-- A decimal above the first bound is too large for a double. -/
theorem large_of_log2 {d : Nat} (hd : d ≠ 0) {k : Int} (hhuge : 400 < (Nat.log2 d : Int) / 4 + k) :
    (2 : ℚ) ^ 1024 ≤ d * 10 ^ k := by
  have hlow : ((10 : ℚ) ^ ((Nat.log2 d / 4 : Nat) : ℤ)) ≤ d := by
    exact_mod_cast pow_le_of_log2 hd
  calc (2 : ℚ) ^ 1024 ≤ 2 ^ 1075 := pow_le_pow_right₀ one_le_two (by norm_num)
    _ ≤ 10 ^ (401 : ℤ) := by exact_mod_cast pow_two_lt_pow_ten.le
    _ ≤ 10 ^ (((Nat.log2 d / 4 : Nat) : ℤ) + k) :=
        zpow_le_zpow_right₀ (by norm_num) (by push_cast; omega)
    _ = 10 ^ ((Nat.log2 d / 4 : Nat) : ℤ) * 10 ^ k := zpow_add₀ (by norm_num) ..
    _ ≤ d * 10 ^ k := mul_le_mul_of_nonneg_right hlow (by positivity)

/-- A decimal below the second bound is too small for a double. -/
theorem small_of_log2 {d : Nat} {k : Int} (htiny : (Nat.log2 d : Int) / 3 + 1 + k < -400) :
    (d : ℚ) * 10 ^ k < 2 ^ (-1075 : ℤ) := by
  have hhigh : (d : ℚ) ≤ 10 ^ ((Nat.log2 d / 3 + 1 : Nat) : ℤ) := by
    exact_mod_cast (lt_pow_of_log2 d).le
  calc (d : ℚ) * 10 ^ k
      ≤ 10 ^ ((Nat.log2 d / 3 + 1 : Nat) : ℤ) * 10 ^ k :=
        mul_le_mul_of_nonneg_right hhigh (by positivity)
    _ = 10 ^ (((Nat.log2 d / 3 + 1 : Nat) : ℤ) + k) := (zpow_add₀ (by norm_num) ..).symm
    _ ≤ 10 ^ (-401 : ℤ) := zpow_le_zpow_right₀ (by norm_num) (by push_cast; omega)
    _ < 2 ^ (-1075 : ℤ) := by
        rw [zpow_neg, zpow_neg]
        exact inv_strictAnti₀ (by positivity) (by exact_mod_cast pow_two_lt_pow_ten)

/-- **Reading a decimal is rounding its value.** -/
theorem ofDecimal_eq_nearest (negative : Bool) (d : Nat) (k : Int) :
    ofDecimal negative d k = nearest negative (d * 10 ^ k) := by
  unfold ofDecimal
  by_cases hd : d = 0
  · rw [if_pos hd, hd, Nat.cast_zero, zero_mul]
    rfl
  rw [if_neg hd]
  by_cases hhuge : 400 < (Nat.log2 d : Int) / 4 + k
  · rw [if_pos hhuge]
    exact (nearest_of_large (large_of_log2 hd hhuge) negative).symm
  rw [if_neg hhuge]
  by_cases htiny : (Nat.log2 d : Int) / 3 + 1 + k < -400
  · rw [if_pos htiny]
    exact (nearest_of_small (by positivity) (small_of_log2 htiny) negative).symm
  rw [if_neg htiny]
  by_cases hk : k < 0
  · rw [if_pos hk, Nat.pow_eq, roundRatio_eq_nearest (by positivity), zpow_of_neg _ hk,
      div_eq_mul_inv]
    push_cast
    rfl
  · rw [if_neg hk, Nat.pow_eq, roundRatio_eq_nearest one_pos, zpow_of_not_neg _ hk, Nat.cast_one,
      div_one]
    push_cast
    rfl

/-! ## The number to be written -/

theorem fraction_snd_pos (m : Nat) (q : Int) : 0 < (fraction m q).2 := by
  unfold fraction
  split
  · exact Nat.pow_pos two_pos
  · exact one_pos

theorem fraction_ratio (m : Nat) (q : Int) :
    ((fraction m q).1 : ℚ) / (fraction m q).2 = m * 2 ^ q := by
  unfold fraction
  by_cases hq : q < 0
  · rw [if_pos hq, zpow_of_neg _ hq, div_eq_mul_inv, Nat.pow_eq]
    push_cast
    rfl
  · rw [if_neg hq, zpow_of_not_neg _ hq, Nat.pow_eq]
    push_cast
    rw [div_one]

/-- The digits of a natural tell the power of ten below it and the one above it. -/
theorem decimalLength_bounds {n : Nat} (hn : n ≠ 0) :
    1 ≤ decimalLength n ∧ 10 ^ (decimalLength n - 1) ≤ n ∧ n < 10 ^ decimalLength n := by
  have hpos : 0 < decimalLength n := Nat.length_toDigits_pos
  refine ⟨hpos, ?_, (Nat.length_toDigits_le_iff (by norm_num) hpos).mp le_rfl⟩
  obtain hone | hmore := (show 1 ≤ decimalLength n from hpos).eq_or_lt
  · rw [← hone]
    exact Nat.pos_of_ne_zero hn
  · by_contra hless
    have := (Nat.length_toDigits_le_iff (by norm_num) (by omega)).mpr (not_le.mp hless)
    unfold decimalLength at *
    omega

/-- The leading digit of a quotient stands at its decimal exponent or above. -/
theorem pow_decimalExponent_le {num den : Nat} (hnum : num ≠ 0) (hden : 0 < den) :
    (10 : ℚ) ^ decimalExponent num den ≤ (num : ℚ) / den := by
  have hden' : (0 : ℚ) < den := by exact_mod_cast hden
  unfold decimalExponent
  obtain ⟨guess, hguess⟩ : ∃ guess : ℤ, guess = (decimalLength num : ℤ) - decimalLength den :=
    ⟨_, rfl⟩
  have htest : (if guess < 0 then den ≤ num * 10 ^ (-guess).toNat
      else den * 10 ^ guess.toNat ≤ num) ↔ (10 : ℚ) ^ guess ≤ (num : ℚ) / den := by
    rw [le_div_iff₀ hden']
    by_cases hsign : guess < 0
    · rw [if_pos hsign, zpow_of_neg _ hsign, inv_mul_le_iff₀ (by positivity), mul_comm]
      exact_mod_cast Iff.rfl
    · rw [if_neg hsign, zpow_of_not_neg _ hsign, mul_comm]
      exact_mod_cast Iff.rfl
  simp only [← hguess, Nat.pow_eq]
  by_cases hfit : (10 : ℚ) ^ guess ≤ (num : ℚ) / den
  · rw [if_pos (htest.mpr hfit)]
    exact hfit
  · rw [if_neg (mt htest.mp hfit)]
    -- the numbers of digits of numerator and denominator tell this much
    obtain ⟨hlen, hlow, -⟩ := decimalLength_bounds hnum
    obtain ⟨-, -, hhigh⟩ := decimalLength_bounds hden.ne'
    have hlow' : (10 : ℚ) ^ ((decimalLength num : ℤ) - 1) ≤ num := by
      rw [show (decimalLength num : ℤ) - 1 = (decimalLength num - 1 : Nat) by omega]
      exact_mod_cast hlow
    have hhigh' : (den : ℚ) ≤ 10 ^ (decimalLength den : ℤ) := by exact_mod_cast hhigh.le
    rw [le_div_iff₀ hden']
    calc (10 : ℚ) ^ (guess - 1) * den
        ≤ 10 ^ (guess - 1) * 10 ^ (decimalLength den : ℤ) :=
          mul_le_mul_of_nonneg_left hhigh' (by positivity)
      _ = 10 ^ ((decimalLength num : ℤ) - 1) := by
          rw [← zpow_add₀ (by norm_num), hguess]
          congr 1
          ring
      _ ≤ num := hlow'

/-! ## The search -/

theorem readsBack_iff {m : Nat} {q : Int} {d : Nat} {k : Int} :
    readsBack m q d k = true ↔ nearest false (d * 10 ^ k) = .finite false m q := by
  rw [readsBack, beq_iff_eq, ofDecimal_eq_nearest]

section

variable {m : Nat} {q : Int} (hrep : Representable m q)
include hrep

/-- Eighteen digits are enough. -/
theorem nearest_of_eighteen_digits {e : Int} (he : (10 : ℚ) ^ e ≤ m * 2 ^ q) {n d : Nat}
    (hd : 0 < d) (hunits : (n : ℚ) / d = m * 2 ^ q / 10 ^ (e - 17)) :
    nearest false (divideToEven n d * 10 ^ (e - 17)) = .finite false m q := by
  refine nearest_of_close hrep ?_ false
  have hround := abs_divideToEven_sub_le (n := n) hd
  obtain ⟨t, ht⟩ : ∃ t : ℚ, t = 10 ^ (e - 17) := ⟨_, rfl⟩
  have htpos : 0 < t := ht ▸ by positivity
  have hlead : t * 10 ^ 17 ≤ m * 2 ^ q := by
    calc t * 10 ^ 17 = 10 ^ e := by
          rw [ht, ← zpow_natCast, ← zpow_add₀ (by norm_num)]
          congr 1
          push_cast
          ring
      _ ≤ m * 2 ^ q := he
  have hvalue : (m : ℚ) * 2 ^ q = (n : ℚ) / d * t := by
    rw [hunits, ← ht, div_mul_cancel₀ _ htpos.ne']
  rw [← ht]
  -- half a unit of the eighteenth digit is less than the distance that rounding allows
  calc |(divideToEven n d : ℚ) * t - m * 2 ^ q| * 2 ^ 57
      = |(divideToEven n d : ℚ) - (n : ℚ) / d| * (t * 2 ^ 57) := by
        rw [hvalue, ← sub_mul, abs_mul, abs_of_pos htpos, mul_assoc]
    _ ≤ 1 / 2 * (t * 2 ^ 57) := mul_le_mul_of_nonneg_right hround (by positivity)
    _ ≤ t * 10 ^ 17 := by linarith
    _ ≤ m * 2 ^ q := hlead

/-- **Whatever the search ends with reads back.** -/
theorem nearest_searchDigits {e : Int} (he : (10 : ℚ) ^ e ≤ m * 2 ^ q) (count digits : Nat)
    (hcount : count + digits = 18) :
    nearest false ((searchDigits m q e count digits).1 * 10 ^ (searchDigits m q e count digits).2)
      = .finite false m q := by
  induction count generalizing digits with
  | zero =>
      have hdigits : digits = 18 := by omega
      have hk : e - ((18 : Nat) : Int) + 1 = e - 17 := by push_cast; ring
      subst hdigits
      rw [searchDigits]
      simp only [hk]
      refine nearest_of_eighteen_digits hrep he
        (scaleDown_snd_pos (by norm_num) (fraction_snd_pos m q) _ _) ?_
      rw [← fraction_ratio m q]
      exact_mod_cast scaleDown_ratio (b := 10) (by norm_num) (fraction_snd_pos m q) _ (e - 17)
  | succ count ih =>
      rw [searchDigits]
      dsimp only
      generalize divideToEven (inUnits _ _ _).1 (inUnits _ _ _).2 = near
      generalize (if near = _ then _ else _ : Nat) = far
      by_cases hnear : readsBack m q near (e - digits + 1) = true
      · rw [if_pos hnear]
        exact readsBack_iff.mp hnear
      by_cases hfar : readsBack m q far (e - digits + 1) = true
      · rw [if_neg hnear, if_pos hfar]
        exact readsBack_iff.mp hfar
      · rw [if_neg hnear, if_neg hfar]
        exact ih (digits + 1) (by omega)

end

/-- Dropping zeros at the end keeps the value. -/
theorem dropZeros_value (fuel d : Nat) (k : Int) :
    ((dropZeros fuel d k).1 : ℚ) * 10 ^ (dropZeros fuel d k).2 = d * 10 ^ k := by
  induction fuel generalizing d k with
  | zero => rfl
  | succ fuel ih =>
      rw [dropZeros]
      split
      next hzero =>
        have hsplit : d = d / 10 * 10 := by omega
        rw [ih, zpow_add_one₀ (by norm_num), mul_comm ((10 : ℚ) ^ k), ← mul_assoc]
        congr 1
        exact_mod_cast hsplit.symm
      next => rfl

/-- **The shortest digits of a double read back as the double.** -/
theorem nearest_shortestDigits {m : Nat} {q : Int} (hrep : Representable m q) :
    nearest false ((shortestDigits m q).1 * 10 ^ (shortestDigits m q).2) = .finite false m q := by
  have hnum : (fraction m q).1 ≠ 0 := by
    intro hzero
    have hvalue := fraction_ratio m q
    rw [hzero, Nat.cast_zero, zero_div] at hvalue
    exact hrep.pos.ne hvalue
  have hlead := pow_decimalExponent_le hnum (fraction_snd_pos m q)
  rw [fraction_ratio] at hlead
  rw [shortestDigits]
  dsimp only
  rw [dropZeros_value]
  exact nearest_searchDigits hrep hlead 17 1 rfl

/-- The digits of a double are not those of zero. -/
theorem shortestDigits_ne_zero {m : Nat} {q : Int} (hrep : Representable m q) :
    (shortestDigits m q).1 ≠ 0 := by
  intro hzero
  have hback := nearest_shortestDigits hrep
  rw [hzero, Nat.cast_zero, zero_mul] at hback
  have hm : 0 = m := by
    injection hback
  exact hrep.ne_zero hm.symm

end ReviewGate.Number.Binary64
