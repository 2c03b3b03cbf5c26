import Mathlib.Data.List.Basic
import Mathlib.Data.List.Induction
import Mathlib.Data.List.Perm.Basic

/-!
# `ReviewGate.Proofs.Loop` — loops over lists

## Contents
- `flatMap_eq_of_nodup`: a loop in which one element contributes.
- `flatMap_ite_nil`, `filter_flatMap_of_test`: a loop in which some elements contribute.
- `perm_flatMap_comm`: a loop within a loop.
- `map_eq_of_determined`: what a view of the elements determines.
- `eraseDups_concat_of_mem`, `eraseDups_concat_of_not_mem`, `eraseDups_append_eraseDups`: a loop
  that takes every element once.
-/

namespace ReviewGate

/-- Where one element alone contributes, a loop over distinct elements gives what it contributes. -/
theorem flatMap_eq_of_nodup {α β : Type} {xs : List α} (hnd : xs.Nodup) {g : α → List β} {x : α}
    (hx : x ∈ xs) (hother : ∀ y ∈ xs, y ≠ x → g y = []) : xs.flatMap g = g x := by
  induction xs with
  | nil => exact absurd hx List.not_mem_nil
  | cons z rest ih =>
      obtain ⟨hz, hrest⟩ := List.nodup_cons.mp hnd
      rw [List.flatMap_cons]
      rcases List.mem_cons.mp hx with rfl | hx'
      · have hnil : rest.flatMap g = [] :=
          List.flatMap_eq_nil_iff.mpr fun y hy =>
            hother y (List.mem_cons_of_mem _ hy) fun h => hz (h ▸ hy)
        rw [hnil, List.append_nil]
      · have hzx : z ≠ x := fun h => hz (h ▸ hx')
        rw [hother z (List.mem_cons_self ..) hzx, List.nil_append]
        exact ih hrest hx' fun y hy => hother y (List.mem_cons_of_mem _ hy)

/-- A loop in which only the chosen elements contribute is a loop over these. -/
theorem flatMap_ite_nil {α β : Type} (xs : List α) (q : α → Bool) (g : α → List β) :
    (xs.flatMap fun x => if q x then g x else []) = (xs.filter q).flatMap g := by
  induction xs with
  | nil => rfl
  | cons x rest ih =>
      rw [List.flatMap_cons, ih, List.filter_cons]
      cases q x <;> rfl

/-- Of two nested loops either may be the outer one, up to the order of what they give. -/
theorem perm_flatMap_comm {α β γ : Type} (xs : List α) (ys : List β) (g : α → β → List γ) :
    (xs.flatMap fun x => ys.flatMap fun y => g x y).Perm
      (ys.flatMap fun y => xs.flatMap fun x => g x y) := by
  induction ys with
  | nil => simp
  | cons y rest ih =>
      simp only [List.flatMap_cons]
      exact (List.flatMap_append_perm xs _ _).symm.trans (ih.append_left _)

/-- Where a test does not tell the contributions of one element apart, it chooses elements. -/
theorem filter_flatMap_of_test {α β : Type} {xs : List α} {g : α → List β} {t : β → Bool}
    {q : α → Bool} (h : ∀ x ∈ xs, ∀ y ∈ g x, t y = q x) :
    (xs.flatMap g).filter t = (xs.filter q).flatMap g := by
  have hchoose : ∀ x ∈ xs, (g x).filter t = if q x then g x else [] := by
    intro x hx
    by_cases hq : q x = true
    · rw [if_pos hq]
      exact List.filter_eq_self.mpr fun y hy => (h x hx y hy).trans hq
    · rw [if_neg hq]
      refine List.filter_eq_nil_iff.mpr fun y hy hty => hq ?_
      rw [← h x hx y hy]
      exact hty
  rw [List.filter_flatMap, List.flatMap_congr hchoose, flatMap_ite_nil]

/-- Two lists with one view `f` have one view `g`, if `f` determines `g`. -/
theorem map_eq_of_determined {α β γ : Type} {f : α → β} {g : α → γ} {xs ys : List α}
    (hf : xs.map f = ys.map f) (hdet : ∀ x ∈ xs, ∀ y ∈ ys, f x = f y → g x = g y) :
    xs.map g = ys.map g := by
  induction xs generalizing ys with
  | nil =>
      have hys : ys = [] := List.map_eq_nil_iff.mp hf.symm
      rw [hys]
  | cons x rest ih =>
      obtain ⟨y, rest', rfl, hy, hrest⟩ := List.map_eq_cons_iff.mp hf.symm
      have hhead : g x = g y := hdet x (List.mem_cons_self ..) y (List.mem_cons_self ..) hy.symm
      have htail : rest.map g = rest'.map g :=
        ih hrest.symm fun z hz w hw =>
          hdet z (List.mem_cons_of_mem _ hz) w (List.mem_cons_of_mem _ hw)
      rw [List.map_cons, List.map_cons, hhead, htail]

/-! ## First occurrences -/

section

variable {α : Type} [BEq α] [LawfulBEq α]

/-- An element that has occurred adds nothing. -/
theorem eraseDups_concat_of_mem {xs : List α} {x : α} (h : x ∈ xs) :
    (xs ++ [x]).eraseDups = xs.eraseDups := by
  have hold : [x].removeAll xs = [] := by simpa [List.removeAll] using h
  rw [List.eraseDups_append, hold, List.eraseDups_nil, List.append_nil]

/-- An element that has not occurred comes last. -/
theorem eraseDups_concat_of_not_mem {xs : List α} {x : α} (h : x ∉ xs) :
    (xs ++ [x]).eraseDups = xs.eraseDups ++ [x] := by
  have hnew : [x].removeAll xs = [x] := by simpa [List.removeAll] using h
  rw [List.eraseDups_append, hnew, List.eraseDups_cons]
  rfl

/-- Where the same elements have occurred, one more is as new. -/
theorem eraseDups_concat_congr {xs ys : List α} (h : xs.eraseDups = ys.eraseDups) (x : α) :
    (xs ++ [x]).eraseDups = (ys ++ [x]).eraseDups := by
  have hmem : x ∈ xs ↔ x ∈ ys := by rw [← List.mem_eraseDups, h, List.mem_eraseDups]
  by_cases hx : x ∈ xs
  · rw [eraseDups_concat_of_mem hx, eraseDups_concat_of_mem (hmem.mp hx), h]
  · rw [eraseDups_concat_of_not_mem hx, eraseDups_concat_of_not_mem fun hy => hx (hmem.mpr hy), h]

/-- Repetitions behind other elements may be erased before or after. -/
theorem eraseDups_append_right (xs ys : List α) :
    (xs ++ ys.eraseDups).eraseDups = (xs ++ ys).eraseDups := by
  induction ys using List.reverseRecOn with
  | nil => rfl
  | append_singleton ys y ih =>
      by_cases hy : y ∈ ys
      · have hold : y ∈ xs ++ ys := List.mem_append.mpr (Or.inr hy)
        rw [eraseDups_concat_of_mem hy, ih, ← List.append_assoc, eraseDups_concat_of_mem hold]
      · rw [eraseDups_concat_of_not_mem hy, ← List.append_assoc, ← List.append_assoc]
        exact eraseDups_concat_congr ih y

/-- Repetitions in front of other elements may be erased before or after. -/
theorem eraseDups_append_left (xs ys : List α) :
    (xs.eraseDups ++ ys).eraseDups = (xs ++ ys).eraseDups := by
  induction ys using List.reverseRecOn with
  | nil =>
      rw [List.append_nil, List.append_nil]
      exact eraseDups_append_right [] xs
  | append_singleton ys y ih =>
      rw [← List.append_assoc, ← List.append_assoc]
      exact eraseDups_concat_congr ih y

/-- **The first occurrences of two parts together are those of the whole.** -/
theorem eraseDups_append_eraseDups (xs ys : List α) :
    (xs.eraseDups ++ ys.eraseDups).eraseDups = (xs ++ ys).eraseDups :=
  (eraseDups_append_right _ ys).trans (eraseDups_append_left xs ys)

end

end ReviewGate
