import Mathlib.Data.List.Infix
import ReviewGate.Text.Search

/-!
# `ReviewGate.Proofs.Text.Search` — pieces of a text that a separator divides

A piece that has the separator once in front of its other part is found at the first separator of a
text, with its front at the end of what stands before, or behind that separator. A piece without the
separator ends a text just if it ends what stands behind.

## Contents
- `occursIn_iff`, `contains_iff`, `endsWith_iff`: the searches as relations between lists.
- `prefix_append_cons_iff`, `infix_append_cons_iff`, `suffix_append_cons_iff`: pieces of a text that
  is divided.
- `afterLast_append_cons`: the last part of such a text.
-/

namespace ReviewGate.Text

theorem occursIn_iff {part cs : List Char} : occursIn part cs = true ↔ part <:+: cs := by
  induction cs with
  | nil => rw [occursIn, List.isEmpty_iff, List.infix_nil]
  | cons c rest ih =>
      rw [occursIn, Bool.or_eq_true, ih, List.isPrefixOf_iff_prefix, List.infix_cons_iff]

theorem contains_iff {s part : String} : contains s part = true ↔ part.toList <:+: s.toList :=
  occursIn_iff

theorem endsWith_iff {s finish : String} :
    endsWith s finish = true ↔ finish.toList <:+ s.toList :=
  List.isSuffixOf_iff_suffix

/-! ## Divided texts -/

section

variable {α : Type} {c : α} {u v front : List α} (back : List α)

/-- Where neither front has the separator, a piece begins a text with its whole front. -/
theorem prefix_append_cons_iff (hu : c ∉ u) (hfront : c ∉ front) :
    u ++ c :: v <+: front ++ c :: back ↔ u = front ∧ v <+: back := by
  induction u generalizing front with
  | nil =>
      cases front with
      | nil => simp [List.cons_prefix_cons]
      | cons d front =>
          have hcd : c ≠ d := fun h => hfront (h ▸ List.mem_cons_self)
          simp [List.cons_prefix_cons, hcd]
  | cons a u ih =>
      have hca : c ≠ a := fun h => hu (h ▸ List.mem_cons_self)
      cases front with
      | nil => simp [List.cons_prefix_cons, Ne.symm hca]
      | cons d front =>
          rw [List.cons_append, List.cons_append, List.cons_prefix_cons,
            ih (List.not_mem_of_not_mem_cons hu) (List.not_mem_of_not_mem_cons hfront), List.cons_eq_cons, and_assoc]

/-- **A piece with a separator is found at the first separator of a text, or behind it.** -/
theorem infix_append_cons_iff (hu : c ∉ u) (hfront : c ∉ front) :
    u ++ c :: v <:+: front ++ c :: back ↔
      (u <:+ front ∧ v <+: back) ∨ u ++ c :: v <:+: back := by
  induction front with
  | nil =>
      have hhead := prefix_append_cons_iff (v := v) back hu List.not_mem_nil
      rw [List.nil_append] at hhead ⊢
      rw [List.infix_cons_iff, hhead, List.suffix_nil]
  | cons d front ih =>
      have hhead := prefix_append_cons_iff (v := v) back hu hfront
      rw [List.cons_append] at hhead ⊢
      rw [List.infix_cons_iff, hhead, ih (List.not_mem_of_not_mem_cons hfront),
        List.suffix_cons_iff, or_and_right, or_assoc]

/-- **A piece without a separator ends a text just if it ends what stands behind one.** -/
theorem suffix_append_cons_iff {s : List α} (hs : c ∉ s) (front : List α) :
    s <:+ front ++ c :: back ↔ s <:+ back := by
  have hback : c :: back <:+ front ++ c :: back := List.suffix_append front _
  constructor
  · intro h
    obtain hshort | hlong := List.suffix_or_suffix_of_suffix h hback
    · obtain rfl | hshort := List.suffix_cons_iff.mp hshort
      · exact absurd List.mem_cons_self hs
      · exact hshort
    · exact absurd (hlong.subset List.mem_cons_self) hs
  · intro h
    exact (h.trans (List.suffix_cons c back)).trans hback

end

theorem afterLast_append_cons (c : Char) (front back : List Char) :
    afterLast c (front ++ c :: back) = afterLast c back := by
  unfold afterLast
  rw [List.splitOn_append_cons_self, List.getLastD_eq_getLast?, List.getLastD_eq_getLast?,
    List.getLast?_append_of_ne_nil _ (List.splitOn_ne_nil c back)]

end ReviewGate.Text
