import Mathlib.Data.List.Basic
import ReviewGate.Number.Numeral
import ReviewGate.Number.Shortest

/-!
# `ReviewGate.Proofs.Number.Digits` — decimal digits of naturals

## Contents
- `ofDigits_eq_ofDigitChars`: the number that ASCII digits spell.
- `toNat_of_isDigit`: what a digit is.
- `isDigit_of_mem_digitsOf`, `head?_digitsOf`: what the digits of a natural are.
-/

namespace ReviewGate.Number

/-- **ASCII digits spell the number that the standard library reads in them.** -/
theorem ofDigits_eq_ofDigitChars (ds : List Char) :
    ofDigits (ds.map fun c => c.toNat - 48) = Nat.ofDigitChars 10 ds 0 := by
  have hstep : (fun (a : Nat) (c : Char) => a * 10 + (c.toNat - 48))
      = fun a c => 10 * a + (c.toNat - '0'.toNat) := by
    funext a c
    rw [Nat.mul_comm]
    rfl
  calc ofDigits (ds.map fun c => c.toNat - 48)
      = ds.foldl (fun a c => a * 10 + (c.toNat - 48)) 0 := List.foldl_map
    _ = Nat.ofDigitChars 10 ds 0 := by
        rw [hstep, Nat.ofDigitChars_eq_foldl]

/-- The digits follow one another in the order of characters. -/
theorem toNat_of_isDigit {c : Char} (h : c.isDigit = true) : 48 ≤ c.toNat ∧ c.toNat ≤ 57 := by
  simpa [Char.isDigit, UInt32.le_iff_toNat_le] using h

theorem isDigit_of_mem_digitsOf {n : Nat} {c : Char} (hc : c ∈ digitsOf n) : c.isDigit = true :=
  Nat.isDigit_of_mem_toDigits (by decide) (by decide) hc

theorem digitsOf_ne_nil (n : Nat) : digitsOf n ≠ [] := Nat.toDigits_ne_nil

/-- The digits of a natural other than zero do not start with a zero. -/
theorem head?_digitsOf {n : Nat} (hn : n ≠ 0) : (digitsOf n).head? ≠ some '0' := by
  induction n using Nat.strongRecOn with
  | ind n ih =>
      unfold digitsOf
      rw [Nat.toDigits_eq_if (by decide)]
      by_cases hsmall : n < 10
      · rw [if_pos hsmall, List.head?_cons, Ne, Option.some_inj, Nat.digitChar_eq_zero]
        exact hn
      · rw [if_neg hsmall, List.head?_append_of_ne_nil _ Nat.toDigits_ne_nil]
        exact ih (n / 10) (by omega) (by omega)

theorem isDigit_zeros (n : Nat) : ∀ c ∈ List.replicate n '0', c.isDigit = true := by
  intro c hc
  rw [List.eq_of_mem_replicate hc]
  decide

end ReviewGate.Number
