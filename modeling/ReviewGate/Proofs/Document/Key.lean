import ReviewGate.Document.Basic

/-!
# `ReviewGate.Proofs.Document.Key` — texts as keys

## Contents
- `isText_iff`, `isText_iff_key?`: a text is known by its key.
- `Document.fieldIn`, `Document.fieldIn_orElse`: the value under a text.
- `Document.entriesIn`: the entries of a document.
-/

namespace ReviewGate

theorem isText_iff {d : Document} {s : String} : d.isText s = true ↔ d = .text s := by
  cases d with
  | text t =>
      rw [Document.isText, beq_iff_eq]
      exact ⟨fun h => h ▸ rfl, fun h => Document.text.inj h⟩
  | _ => simp [Document.isText]

theorem isText_iff_key? {d : Document} {s : String} :
    d.isText s = true ↔ d.key? = some (.text s) := by
  cases d with
  | text t =>
      rw [isText_iff]
      constructor
      · intro h
        rw [h]
        rfl
      · intro h
        exact congrArg Document.text (Document.Key.text.inj (Option.some.inj h))
  | float x =>
      -- the key of a float is a number, whichever of the two kinds it is
      simp only [Document.isText, Document.key?, Bool.false_eq_true, false_iff, Option.some.injEq]
      split <;> exact Document.Key.noConfusion
  | _ => simp [Document.isText, Document.key?]

/-- The value that a document has under a text, null if it has none. -/
def Document.fieldIn (d : Document) (name : String) : Document :=
  match d with
  | .map entries => (lookup name entries).getD .null
  | _ => .null

/-- The entries of a document, none if it is no mapping. -/
def Document.entriesIn : Document → List (Document × Document)
  | .map entries => entries
  | _ => []

/-- A mapping that counts as absent is empty. -/
theorem Document.eq_nil_of_not_truthy {entries : List (Document × Document)}
    (h : ¬ (Document.map entries).truthy = true) : entries = [] := by
  simpa [Document.truthy] using h

/-- What counts as absent has no fields. -/
theorem Document.fieldIn_orElse (d : Document) (name : String) :
    (d.orElse (.map [])).fieldIn name = d.fieldIn name := by
  unfold Document.orElse
  split
  · rfl
  · next habsent =>
    cases d with
    | map entries =>
        obtain rfl := Document.eq_nil_of_not_truthy habsent
        rfl
    | _ => rfl

end ReviewGate
