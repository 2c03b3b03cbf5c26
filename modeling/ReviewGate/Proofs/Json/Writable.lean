import ReviewGate.Proofs.Json.RoundTrip

/-!
# `ReviewGate.Proofs.Json.Writable` — which documents have a text

JSON has no dates, times, bytes and sets, and an integer that is too long to be read is not written
either. Whatever is made without them has a text (`exists_indentedAt_iff`). That is not enough to be
read back, because every key is written as a text: it takes keys that are texts already, and no two
of them the same (`Normal`).

## Contents
- `Atomic`, `Writable`: the keys and the documents that have a text.
- `exists_memberName?_iff`, `exists_indentedAt_iff`: they are the ones that are written.
- `Normal.writable`: what JSON can hold has a text.
- `writable_list_iff`, `writable_ofFields_iff`: lists, and documents under names.
-/

namespace ReviewGate.Json

open Number

/-- The values without parts that have a text. -/
inductive Atomic : Document → Prop
  | null : Atomic .null
  | bool (b : Bool) : Atomic (.bool b)
  | int {n : Int} (hlength : (digitsOf n.natAbs).length ≤ maxIntDigits) : Atomic (.int n)
  | float (x : Binary64) : Atomic (.float x)
  | text (s : String) : Atomic (.text s)

/-- The documents that have a text. -/
inductive Writable : Document → Prop
  | atomic {d : Document} (h : Atomic d) : Writable d
  | list {items : List Document} (hitems : ∀ d ∈ items, Writable d) : Writable (.list items)
  | map {entries : List (Document × Document)} (hkeys : ∀ e ∈ entries, Atomic e.1)
      (hvalues : ∀ e ∈ entries, Writable e.2) : Writable (.map entries)

theorem exists_intText_iff {n : Int} :
    (∃ text, intText n = .ok text) ↔ (digitsOf n.natAbs).length ≤ maxIntDigits := by
  constructor
  · rintro ⟨text, htext⟩
    unfold intText at htext
    split at htext
    next h => exact Document.spellable_int_iff.mp h
    next => cases htext
  · exact fun h => ⟨_, intText_eq_ok h⟩

/-- **A key has a name exactly if it is a value without parts that has a text.** -/
theorem exists_memberName?_iff {k : Document} :
    (∃ name, memberName? k = .ok name) ↔ Atomic k := by
  constructor
  · rintro ⟨name, hname⟩
    cases k with
    | null => exact .null
    | bool b => exact .bool b
    | int n => exact .int (exists_intText_iff.mp ⟨name, hname⟩)
    | float x => exact .float x
    | text s => exact .text s
    | _ => cases hname
  · intro h
    cases h with
    | int hlength => exact exists_intText_iff.mpr hlength
    | _ => exact ⟨_, rfl⟩

/-! ## Parts -/

theorem exists_itemsAt_iff {depth : Nat} {items : List Document} :
    (∃ text, itemsAt depth items = .ok text) ↔
      ∀ d ∈ items, ∃ text, indentedAt depth d = .ok text := by
  induction items with
  | nil => exact iff_of_true ⟨"", rfl⟩ (List.forall_mem_nil _)
  | cons d rest ih =>
      rw [List.forall_mem_cons, ← ih]
      cases rest with
      | nil =>
          rw [itemsAt]
          exact (and_iff_left ⟨"", rfl⟩).symm
      | cons d' rest =>
          rw [itemsAt.eq_3 _ _ _ (List.cons_ne_nil _ _)]
          exact exists_bind_iff fun _ => exists_bind_pure_iff

theorem exists_membersAt_iff {depth : Nat} {entries : List (Document × Document)} :
    (∃ text, membersAt depth entries = .ok text) ↔
      ∀ e ∈ entries, Atomic e.1 ∧ ∃ text, indentedAt depth e.2 = .ok text := by
  induction entries with
  | nil => exact iff_of_true ⟨"", rfl⟩ (List.forall_mem_nil _)
  | cons e rest ih =>
      obtain ⟨k, v⟩ := e
      rw [List.forall_mem_cons, ← ih, ← exists_memberName?_iff]
      cases rest with
      | nil =>
          rw [membersAt]
          exact (exists_bind_iff fun _ => exists_bind_pure_iff).trans (and_iff_left ⟨"", rfl⟩).symm
      | cons e' rest =>
          rw [membersAt.eq_3 _ _ _ _ (List.cons_ne_nil _ _), and_assoc]
          exact exists_bind_iff fun _ => exists_bind_iff fun _ => exists_bind_pure_iff

theorem exists_indentedAt_list_iff {depth : Nat} {items : List Document} :
    (∃ text, indentedAt depth (.list items) = .ok text) ↔
      ∀ d ∈ items, ∃ text, indentedAt (depth + 1) d = .ok text := by
  rw [← exists_itemsAt_iff]
  by_cases hne : items = []
  · subst hne
    exact iff_of_true ⟨_, rfl⟩ ⟨_, rfl⟩
  · rw [indentedAt.eq_7 _ _ hne]
    exact exists_bind_pure_iff

theorem exists_indentedAt_map_iff {depth : Nat} {entries : List (Document × Document)} :
    (∃ text, indentedAt depth (.map entries) = .ok text) ↔
      ∀ e ∈ entries, Atomic e.1 ∧ ∃ text, indentedAt (depth + 1) e.2 = .ok text := by
  rw [← exists_membersAt_iff]
  by_cases hne : entries = []
  · subst hne
    exact iff_of_true ⟨_, rfl⟩ ⟨_, rfl⟩
  · rw [indentedAt.eq_9 _ _ hne]
    exact exists_bind_pure_iff

/-! ## Documents -/

theorem Writable.exists_indentedAt {d : Document} (h : Writable d) (depth : Nat) :
    ∃ text, indentedAt depth d = .ok text := by
  induction h generalizing depth with
  | atomic h =>
      cases h with
      | int hlength => exact exists_intText_iff.mpr hlength
      | _ => exact ⟨_, rfl⟩
  | list hitems ih => exact exists_indentedAt_list_iff.mpr fun d hd => ih d hd (depth + 1)
  | map hkeys hvalues ih =>
      exact exists_indentedAt_map_iff.mpr fun e he => ⟨hkeys e he, ih e he (depth + 1)⟩

/-- What has been written has only such parts. The recursion is the one of the document. -/
theorem writable_of_indentedAt (d : Document) (depth : Nat)
    (h : ∃ text, indentedAt depth d = .ok text) : Writable d := by
  cases d with
  | null => exact .atomic .null
  | bool b => exact .atomic (.bool b)
  | int n =>
      rw [indentedAt] at h
      exact .atomic (.int (exists_intText_iff.mp h))
  | float x => exact .atomic (.float x)
  | text s => exact .atomic (.text s)
  | list items =>
      have hitems := exists_indentedAt_list_iff.mp h
      exact .list fun d hd => writable_of_indentedAt d (depth + 1) (hitems d hd)
  | map entries =>
      have hentries := exists_indentedAt_map_iff.mp h
      exact .map (fun e he => (hentries e he).1)
        fun e he => writable_of_indentedAt e.2 (depth + 1) (hentries e he).2
  | _ =>
      obtain ⟨text, htext⟩ := h
      cases htext
termination_by d
decreasing_by
  -- an item or value is smaller than the list or mapping that it stands in
  all_goals subst_vars
  · have hsmaller := List.sizeOf_lt_of_mem hd
    rw [Document.list.sizeOf_spec]
    omega
  · have hsmaller := List.sizeOf_lt_of_mem he
    have hvalue : sizeOf e.2 < sizeOf e := by
      obtain ⟨k, v⟩ := e
      show sizeOf v < _
      rw [Prod.mk.sizeOf_spec]
      omega
    rw [Document.map.sizeOf_spec]
    omega

/-- **A document has a text exactly if it is made of values that have one.** -/
theorem exists_indentedAt_iff {d : Document} {depth : Nat} :
    (∃ text, indentedAt depth d = .ok text) ↔ Writable d :=
  ⟨writable_of_indentedAt d depth, fun h => h.exists_indentedAt depth⟩

/-- What JSON can hold has a text. -/
theorem Normal.writable {d : Document} (h : Normal d) : Writable d := by
  obtain ⟨text, htext, -⟩ := exists_written h 0
  exact exists_indentedAt_iff.mp ⟨text, htext⟩

theorem writable_list_iff {items : List Document} :
    Writable (.list items) ↔ ∀ d ∈ items, Writable d := by
  constructor
  · intro h
    cases h with
    | atomic h => cases h
    | list hitems => exact hitems
  · exact .list

theorem writable_ofFields_iff {fields : List (String × Document)} :
    Writable (.ofFields fields) ↔ ∀ f ∈ fields, Writable f.2 := by
  constructor
  · intro h f hf
    cases h with
    | atomic h => cases h
    | map hkeys hvalues => exact hvalues _ (List.mem_map_of_mem hf)
  · intro h
    refine .map ?_ ?_
    · intro e he
      obtain ⟨f, -, rfl⟩ := List.mem_map.mp he
      exact .text f.1
    · intro e he
      obtain ⟨f, hf, rfl⟩ := List.mem_map.mp he
      exact h f hf

end ReviewGate.Json
