import ReviewGate.Document.Show

/-!
# `ReviewGate.Proofs.Document.Plain` — the plain text of a value that is present

What counts as present has a text: the plain text of a document is empty only for the empty text,
and that does not count as present. So a field that was found present stays present once it is kept
as a text.

## Contents
- `renderChars_ne_nil`: a double has a text.
- `plain_ne_empty`: so has every value that counts as present.
-/

namespace ReviewGate

open Number

theorem renderDecimal_ne_nil (style : DecimalStyle) (d : Nat) (k : Int) :
    renderDecimal style d k ≠ [] := by
  simp only [renderDecimal]
  -- every branch has a point or an exponent
  split
  · split
    · exact List.append_ne_nil_of_right_ne_nil _ (List.cons_ne_nil _ _)
    · split
      · exact List.append_ne_nil_of_right_ne_nil _ (List.cons_ne_nil _ _)
      · exact List.cons_ne_nil _ _
  · exact List.append_ne_nil_of_right_ne_nil _ (List.cons_ne_nil _ _)

theorem renderChars_ne_nil (x : Binary64) : x.renderChars ≠ [] := by
  unfold Binary64.renderChars
  split
  · exact List.cons_ne_nil _ _
  · exact List.append_ne_nil_of_right_ne_nil _ (List.cons_ne_nil _ _)
  · apply List.append_ne_nil_of_right_ne_nil
    split
    · exact List.cons_ne_nil _ _
    · exact renderDecimal_ne_nil _ _ _

theorem ne_empty_of_toList {s : String} (h : s.toList ≠ []) : s ≠ "" := by
  rintro rfl
  exact h rfl

theorem repr_ne_empty (n : Nat) : n.repr ≠ "" := by
  refine ne_empty_of_toList ?_
  rw [Nat.toList_repr]
  exact Nat.toDigits_ne_nil

/-- **A value that counts as present has a text.** -/
theorem plain_ne_empty {d : Document} (h : d.truthy = true) : d.plain ≠ "" := by
  cases d with
  | null => exact absurd h (by decide)
  | bool b => cases b <;> decide
  | int n =>
      cases n with
      | ofNat m => exact repr_ne_empty m
      | negSucc m =>
          show "-" ++ (m + 1).repr ≠ ""
          simp
  | float x =>
      refine ne_empty_of_toList ?_
      show (String.ofList x.renderChars).toList ≠ []
      rw [String.toList_ofList]
      exact renderChars_ne_nil x
  | text s => exact bne_iff_ne.mp h
  | list items => simp [Document.plain, Document.quoted]
  | map entries => simp [Document.plain, Document.quoted]
  | date d =>
      simp only [Document.plain, Date.iso, ne_eq, String.append_eq_empty_iff]
      -- there is a hyphen behind the year
      rintro ⟨⟨⟨⟨_, hhyphen⟩, _⟩, _⟩, _⟩
      exact absurd hhyphen (by decide)
  | moment m => simp [Document.plain, Moment.iso]
  | bytes data => simp [Document.plain, Document.quoted, Document.quoteBytes]
  | set members => cases members <;> simp [Document.plain, Document.quoted]

end ReviewGate
