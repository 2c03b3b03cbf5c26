import ReviewGate.Document.Spelling
import ReviewGate.Number.Shortest
import ReviewGate.Proofs.Document.Order
import ReviewGate.Proofs.Document.Plain

/-!
# `ReviewGate.Proofs.Document.Spelling` — documents that can be written

A document that can be written is made of documents that can be, and writing it gives its plain
text.

## Contents
- `spell_eq_ok`, `spell_of_not_spellable`, `spell_ne_empty`: the text of a document.
- `spellable_int_iff`, `spellable_of_le`, `spellable_of_key`: integers.
- `spellable_list_iff`, `spellable_map_iff`, `spellable_of_lookup`: the parts of a document.
-/

namespace ReviewGate.Document

open Number

theorem spell_eq_ok {d : Document} {s : String} :
    d.spell = .ok s ↔ d.spellable = true ∧ d.plain = s := by
  unfold spell
  split
  · exact ⟨fun h => ⟨rfl, Except.ok.inj h⟩, fun h => congrArg Except.ok h.2⟩
  · split
    · next h => exact ⟨fun hs => ⟨h, Except.ok.inj hs⟩, fun hs => congrArg Except.ok hs.2⟩
    · next h => exact ⟨nofun, fun hs => absurd hs.1 h⟩

theorem spell_of_spellable {d : Document} (h : d.spellable = true) : d.spell = .ok d.plain :=
  spell_eq_ok.mpr ⟨h, rfl⟩

theorem spell_of_not_spellable {d : Document} (h : d.spellable = false) :
    d.spell = .error .badNumber := by
  unfold spell
  split
  · exact nomatch h
  · exact if_neg (Bool.eq_false_iff.mp h)

/-- **The text of a value that counts as present is not empty.** -/
theorem spell_ne_empty {d : Document} (h : d.truthy = true) {s : String} (hs : d.spell = .ok s) :
    s ≠ "" :=
  (spell_eq_ok.mp hs).2 ▸ plain_ne_empty h

/-- An integer can be written if it has no more digits than are read. -/
theorem spellable_int_iff {n : Int} :
    (Document.int n).spellable = true ↔ (digitsOf n.natAbs).length ≤ maxIntDigits := by
  -- the power must not be evaluated, so the bound on the digits is a variable here
  have hbound {k : Nat} (hk : 0 < k) : (digitsOf n.natAbs).length ≤ k ↔ n.natAbs < Nat.pow 10 k :=
    Nat.length_toDigits_le_iff (by decide) hk
  have hmost : 0 < maxIntDigits := by decide
  rw [spellable, decide_eq_true_iff, hbound hmost]

/-- A number that is no greater than one that can be written can be. -/
theorem spellable_of_le {n m : Nat} (h : n ≤ m) (hm : (int m).spellable = true) :
    (int n).spellable = true := by
  rw [spellable, decide_eq_true_iff] at hm ⊢
  exact Nat.lt_of_le_of_lt h hm

/-- What counts as an integer is written or not as the integer that it counts as. -/
theorem spellable_of_key {d : Document} (h : d.IsInteger) {n : Int} (hn : d.key? = some (.int n)) :
    d.spellable = (int n).spellable := by
  obtain ⟨m, rfl⟩ | ⟨b, rfl⟩ := h
  · obtain rfl : m = n := Key.int.inj (Option.some.inj hn)
    rfl
  · obtain rfl : (if b then 1 else 0) = n := Key.int.inj (Option.some.inj hn)
    have hdigit : (int (if b then 1 else 0)).spellable = true :=
      spellable_int_iff.mpr (by cases b <;> decide)
    rw [hdigit]
    rfl

theorem spellable_list_iff {items : List Document} :
    (Document.list items).spellable = true ↔ ∀ d ∈ items, d.spellable = true := by
  show spellableItems items = true ↔ _
  induction items with
  | nil => simp [spellableItems]
  | cons d rest ih => rw [spellableItems, Bool.and_eq_true, ih, List.forall_mem_cons]

theorem spellable_map_iff {entries : List (Document × Document)} :
    (Document.map entries).spellable = true ↔
      ∀ e ∈ entries, e.1.spellable = true ∧ e.2.spellable = true := by
  show spellableEntries entries = true ↔ _
  induction entries with
  | nil => simp [spellableEntries]
  | cons e rest ih =>
      rw [spellableEntries, Bool.and_eq_true, Bool.and_eq_true, ih, List.forall_mem_cons]

/-- What stands under a name can be written if the whole can. -/
theorem spellable_of_lookup {name : String} {entries : List (Document × Document)} {d : Document}
    (h : (Document.map entries).spellable = true) (hlookup : lookup name entries = some d) :
    d.spellable = true := by
  obtain ⟨e, he, rfl⟩ := Option.map_eq_some_iff.mp hlookup
  exact (spellable_map_iff.mp h e (List.mem_of_find?_eq_some he)).2

end ReviewGate.Document
