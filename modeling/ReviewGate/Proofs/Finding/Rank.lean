import Mathlib.Data.List.Sort
import Mathlib.Order.OrderDual
import ReviewGate.Proofs.Document.Order
import ReviewGate.Proofs.Finding.Dedupe

/-!
# `ReviewGate.Proofs.Finding.Rank` — the order of ranked findings

Findings are ranked by severity, file and line, that is by their place in a linear order, and those
with one place keep the order in which they came. Ranking is insertion from the back: each finding
goes in front of the first one that it precedes. Two facts follow. A test commutes with ranking
(`filter_rankFindings`), because the findings that fail it do not decide where the others go. And
the places in a ranked list depend only on which places there are, not on the order in which the
findings came (`map_place_rankFindings`).

## Contents
- `Finding.WellTyped`: a finding with fields of the declared kinds.
- `Finding.place`, `Finding.precedes_eq_decide`: the place of a finding.
- `Finding.InOrder`, `Finding.precedes_iff_inOrder`: two findings that stand in order.
- `filter_insertionSort`: a test and a stable sort.
- `filter_rankFindings`, `map_place_rankFindings`: ranked findings.
-/

namespace ReviewGate

/-- The fields of the finding are of the kinds that are declared for them. -/
structure Finding.WellTyped (x : Finding) : Prop where
  ruleId : ∃ s, x.ruleId = .text s
  file : ∃ s, x.file = .text s
  line : x.line.IsInteger
  title : ∃ s, x.title = .text s
  explanation : ∃ s, x.explanation = .text s

/-! ## Places -/

/-- The place of a finding: the graver the earlier, then by file, then by line. -/
def Finding.place (x : Finding) : ℕᵒᵈ ×ₗ Document.OrderKey ×ₗ Document.OrderKey :=
  toLex (OrderDual.toDual x.severity.rank, toLex (x.file.orderKey, x.line.orderKey))

theorem Finding.place_eq_iff {x y : Finding} :
    x.place = y.place ↔ x.severity = y.severity ∧ x.file.orderKey = y.file.orderKey ∧
      x.line.orderKey = y.line.orderKey := by
  simp only [Finding.place, toLex_inj, Prod.mk.injEq, OrderDual.toDual_inj,
    Severity.rank_injective.eq_iff]

theorem Finding.place_le_iff {x y : Finding} :
    x.place ≤ y.place ↔
      y.severity.rank < x.severity.rank ∨ y.severity.rank = x.severity.rank ∧
        (x.file.orderKey < y.file.orderKey ∨ x.file.orderKey = y.file.orderKey ∧
          x.line.orderKey ≤ y.line.orderKey) := by
  unfold Finding.place
  rw [Prod.Lex.le_iff, Prod.Lex.le_iff]
  simp only [ofLex_toLex, OrderDual.toDual_lt_toDual, OrderDual.toDual_inj,
    eq_comm (a := x.severity.rank)]

/-- **A finding precedes those whose place is not in front of its own.** -/
theorem Finding.precedes_eq_decide (x y : Finding) :
    x.precedes y = decide (x.place ≤ y.place) := by
  rw [Bool.eq_iff_iff, decide_eq_true_iff, Finding.place_le_iff, Finding.precedes]
  by_cases hsev : x.severity = y.severity
  · by_cases hfile : x.file.orderKey = y.file.orderKey
    · simp [hsev, hfile, Document.OrderKey.le_eq_decide]
    · simp [hsev, hfile, Document.OrderKey.le_eq_decide, le_iff_lt_or_eq]
  · have hrank : y.severity.rank ≠ x.severity.rank :=
      fun h => hsev (Severity.rank_injective h).symm
    simp [hsev, hrank]

theorem Finding.rank_le_of_precedes {x y : Finding} (h : x.precedes y = true) :
    y.severity.rank ≤ x.severity.rank := by
  rw [Finding.precedes_eq_decide, decide_eq_true_iff, Finding.place_le_iff] at h
  rcases h with h | ⟨h, -⟩
  · exact h.le
  · exact h.le

theorem Finding.precedes_trans (x y z : Finding) (hxy : x.precedes y = true)
    (hyz : y.precedes z = true) : x.precedes z = true := by
  rw [Finding.precedes_eq_decide, decide_eq_true_iff] at hxy hyz ⊢
  exact le_trans hxy hyz

theorem Finding.precedes_total (x y : Finding) : (x.precedes y || y.precedes x) = true := by
  rw [Finding.precedes_eq_decide, Finding.precedes_eq_decide, Bool.or_eq_true,
    decide_eq_true_iff, decide_eq_true_iff]
  exact le_total x.place y.place

/-- The two findings stand in order: the graver first, then by file, then by line. -/
def Finding.InOrder (x y : Finding) : Prop :=
  y.severity.rank < x.severity.rank ∨ y.severity = x.severity ∧ ∃ file file' line line',
    x.file = .text file ∧ y.file = .text file' ∧
    x.line.lineNumber? = some line ∧ y.line.lineNumber? = some line' ∧
    (file < file' ∨ file = file' ∧ line ≤ line')

/-- **Of findings of the declared kinds the first precedes the second if they stand in order.** -/
theorem Finding.precedes_iff_inOrder {x y : Finding} (hx : x.WellTyped) (hy : y.WellTyped) :
    x.precedes y = true ↔ x.InOrder y := by
  obtain ⟨file, hfile⟩ := hx.file
  obtain ⟨file', hfile'⟩ := hy.file
  obtain ⟨line, hline, -, hplace⟩ := hx.line.exists_int
  obtain ⟨line', hline', -, hplace'⟩ := hy.line.exists_int
  have htext : (Document.text file).orderKey = (Document.text file').orderKey ↔ file = file' :=
    ⟨Document.orderKey_text_injective, fun h => h ▸ rfl⟩
  rw [Finding.precedes_eq_decide, decide_eq_true_iff, Finding.place_le_iff, hfile, hfile', hplace,
    hplace', Document.orderKey_text_lt_iff, htext, Document.orderKey_int_le_iff,
    Severity.rank_injective.eq_iff, Finding.InOrder]
  refine or_congr_right (and_congr_right fun _ => ⟨fun h => ?_, ?_⟩)
  · exact ⟨file, file', line, line', hfile, hfile', hline, hline', h⟩
  · rintro ⟨file₁, file₂, line₁, line₂, hfile₁, hfile₂, hline₁, hline₂, h⟩
    rw [hfile] at hfile₁
    rw [hfile'] at hfile₂
    rw [hline] at hline₁
    rw [hline'] at hline₂
    cases hfile₁
    cases hfile₂
    cases hline₁
    cases hline₂
    exact h

/-! ## A test and a stable sort -/

section

variable {α : Type}

/-- A list can be cut in only one way into items that pass a test and items that fail it. -/
theorem append_inj_of_test {p : α → Bool} {front back front' back' : List α}
    (h : front ++ back = front' ++ back')
    (hfront : ∀ x ∈ front, p x = true) (hback : ∀ x ∈ back, p x = false)
    (hfront' : ∀ x ∈ front', p x = true) (hback' : ∀ x ∈ back', p x = false) :
    front = front' ∧ back = back' := by
  have hpassing : ∀ {xs ys : List α}, (∀ x ∈ xs, p x = true) → (∀ y ∈ ys, p y = false) →
      (xs ++ ys).filter p = xs := by
    intro xs ys hxs hys
    have hnone : ys.filter p = [] := List.filter_eq_nil_iff.mpr fun y hy => by simp [hys y hy]
    rw [List.filter_append, List.filter_eq_self.mpr hxs, hnone, List.append_nil]
  have heq : front = front' := by
    rw [← hpassing hfront hback, h, hpassing hfront' hback']
  rw [heq] at h
  exact ⟨heq, List.append_cancel_left h⟩

variable {le : α → α → Bool} (trans : ∀ x y z, le x y = true → le y z = true → le x z = true)
  (total : ∀ x y, (le x y || le y x) = true)
include trans total

/-- Sorting puts an item in front of the first of the others, sorted, that it precedes. -/
theorem exists_mergeSort_cons (x : α) (xs : List α) :
    ∃ front back, (x :: xs).mergeSort le = front ++ x :: back ∧
      xs.mergeSort le = front ++ back ∧
      (∀ y ∈ front, (!le x y) = true) ∧ ∀ y ∈ back, (!le x y) = false := by
  obtain ⟨front, back, hcons, hxs, hfront⟩ := List.mergeSort_cons trans total x xs
  refine ⟨front, back, hcons, hxs, fun y hy => hfront y hy, fun y hy => ?_⟩
  have hsorted : (front ++ x :: back).Pairwise fun a b => le a b = true :=
    hcons ▸ List.pairwise_mergeSort trans total (x :: xs)
  have hback : le x y = true :=
    (List.pairwise_cons.mp (List.pairwise_append.mp hsorted).2.1).1 y hy
  rw [hback]
  rfl

/-- **A test commutes with a stable sort.** -/
theorem filter_mergeSort (q : α → Bool) (xs : List α) :
    (xs.mergeSort le).filter q = (xs.filter q).mergeSort le := by
  induction xs with
  | nil => rw [List.mergeSort_nil, List.filter_nil, List.mergeSort_nil]
  | cons x rest ih =>
      obtain ⟨front, back, hcons, hrest, hfront, hback⟩ :=
        exists_mergeSort_cons trans total x rest
      by_cases hq : q x = true
      · -- among the items that pass, `x` stands between the same two parts
        obtain ⟨front', back', hcons', hrest', hfront', hback'⟩ :=
          exists_mergeSort_cons trans total x (rest.filter q)
        have hsplit : front.filter q ++ back.filter q = front' ++ back' := by
          rw [← List.filter_append, ← hrest, ih, hrest']
        obtain ⟨hf, hb⟩ := append_inj_of_test hsplit
          (fun y hy => hfront y (List.mem_of_mem_filter hy))
          (fun y hy => hback y (List.mem_of_mem_filter hy)) hfront' hback'
        rw [hcons, List.filter_append, List.filter_cons_of_pos hq,
          List.filter_cons_of_pos hq, hcons', hf, hb]
      · rw [hcons, List.filter_append, List.filter_cons_of_neg hq,
          List.filter_cons_of_neg hq, ← List.filter_append, ← hrest, ih]

end

/-! ## Ranked findings -/

/-- **A test commutes with ranking.** -/
theorem filter_rankFindings (q : Finding → Bool) (xs : List Finding) :
    (rankFindings xs).filter q = rankFindings (xs.filter q) :=
  filter_mergeSort Finding.precedes_trans Finding.precedes_total q xs

theorem pairwise_place_rankFindings (xs : List Finding) :
    ((rankFindings xs).map Finding.place).Pairwise (· ≤ ·) := by
  have hsorted : (rankFindings xs).Pairwise fun x y => x.precedes y = true :=
    List.pairwise_mergeSort Finding.precedes_trans Finding.precedes_total xs
  rw [List.pairwise_map]
  refine hsorted.imp fun {x y} h => ?_
  rw [Finding.precedes_eq_decide] at h
  exact of_decide_eq_true h

/-- **The places in a ranked list** depend only on which places there are. -/
theorem map_place_rankFindings {xs ys : List Finding}
    (h : (xs.map Finding.place).Perm (ys.map Finding.place)) :
    (rankFindings xs).map Finding.place = (rankFindings ys).map Finding.place := by
  have hperm : ((rankFindings xs).map Finding.place).Perm
      ((rankFindings ys).map Finding.place) := by
    refine ((rankFindings_perm xs).map _).trans (h.trans ?_)
    exact ((rankFindings_perm ys).map _).symm
  exact hperm.eq_of_pairwise' (pairwise_place_rankFindings xs) (pairwise_place_rankFindings ys)

end ReviewGate
