import Mathlib.Data.Prod.Lex
import Mathlib.Data.String.Basic
import ReviewGate.Document.Number
import ReviewGate.Document.Order

/-!
# `ReviewGate.Proofs.Document.Order` — places are in a linear order

The place of a value is a group, a number and a text, and places are compared by the first of these
in which they differ. So the order of places is the lexicographic one, which is linear.

## Contents
- `OrderKey.place`, `OrderKey.place_injective`: a place as a triple.
- `OrderKey.le_eq_decide`: the comparison is the linear order.
- `orderKey_text_injective`, `orderKey_int_injective`: texts and integers have places of their own.
- `orderKey_text_lt_iff`, `orderKey_int_le_iff`: which are in the order of the texts and integers.
- `IsInteger`, `IsInteger.exists_int`: values that count as an integer.
-/

namespace ReviewGate.Document

namespace OrderKey

/-- A place as a triple that is compared lexicographically. -/
def place (k : OrderKey) : ℕ ×ₗ ℤ ×ₗ String := toLex (k.group, toLex (k.number, k.text))

theorem place_injective : Function.Injective place := by
  intro a b h
  cases a
  cases b
  simpa [place] using h

instance : LinearOrder OrderKey := LinearOrder.lift' place place_injective

theorem le_iff {a b : OrderKey} :
    a ≤ b ↔ a.group < b.group ∨ a.group = b.group ∧
      (a.number < b.number ∨ a.number = b.number ∧ a.text ≤ b.text) := by
  have hplace : a ≤ b ↔ a.place ≤ b.place := Iff.rfl
  rw [hplace, Prod.Lex.le_iff, Prod.Lex.le_iff]
  rfl

/-- **The comparison of places is their linear order.** -/
theorem le_eq_decide (a b : OrderKey) : a.le b = decide (a ≤ b) := by
  rw [Bool.eq_iff_iff, decide_eq_true_iff, le_iff, le]
  by_cases hgroup : a.group = b.group
  · by_cases hnumber : a.number = b.number
    · simp [hgroup, hnumber]
    · simp [hgroup, hnumber]
  · simp [hgroup]

end OrderKey

/-! ## Places of texts and integers -/

theorem orderKey_text_injective {s t : String} (h : (text s).orderKey = (text t).orderKey) :
    s = t :=
  congrArg OrderKey.text h

theorem orderKey_int_injective {m n : Int} (h : (int m).orderKey = (int n).orderKey) : m = n := by
  have hunits : unitsOfInt m = unitsOfInt n := congrArg OrderKey.number h
  have hscale : ∀ e : Nat, m * (Nat.pow 2 e : Nat) = n * (Nat.pow 2 e : Nat) → m = n := by
    intro e hmul
    exact Int.eq_of_mul_eq_mul_right (Int.ofNat_ne_zero.mpr (Nat.two_pow_pos e).ne') hmul
  exact hscale _ hunits

theorem orderKey_text_lt_iff {s t : String} : (text s).orderKey < (text t).orderKey ↔ s < t := by
  rw [lt_iff_not_ge, lt_iff_not_ge, OrderKey.le_iff]
  simp [orderKey]

theorem orderKey_int_le_iff {m n : Int} : (int m).orderKey ≤ (int n).orderKey ↔ m ≤ n := by
  have hunits : (int m).orderKey ≤ (int n).orderKey ↔ unitsOfInt m ≤ unitsOfInt n := by
    rw [OrderKey.le_iff]
    simp [orderKey, le_iff_lt_or_eq]
  rw [hunits, unitsOfInt, unitsOfInt]
  -- the size of the unit does not matter, and is not to be computed
  generalize 1074 = e
  exact Int.mul_le_mul_right (Int.ofNat_lt.mpr (Nat.two_pow_pos e))

/-- The value is an integer, or a truth value, which counts as one. -/
def IsInteger (d : Document) : Prop := (∃ n, d = .int n) ∨ ∃ b, d = .bool b

/-- Such a value has the key and the place of the integer that it counts as. -/
theorem IsInteger.exists_int {d : Document} (h : d.IsInteger) :
    ∃ n, d.lineNumber? = some n ∧ d.key? = some (.int n) ∧ d.orderKey = (int n).orderKey := by
  rcases h with ⟨n, rfl⟩ | ⟨b, rfl⟩
  · exact ⟨n, rfl, rfl, rfl⟩
  · exact ⟨if b then 1 else 0, rfl, rfl, rfl⟩

end ReviewGate.Document
