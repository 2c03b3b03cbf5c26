import ReviewGate.Proofs.Store.Keeping
import ReviewGate.Proofs.Workspace.SideBySide

/-!
# `ReviewGate.Proofs.Store.Sharing` — a store that several runs write to

A run that comes after another one has to be able to write to the store as the first one was. For a
gist this is a question of access alone. For a file it is one of the tree, in which the first write
has made directories and a file; none of them is where the second one goes.

## Contents
- `Store.Shows`: the learned rules that are read, also where there is no document.
- `Shows.learnedRules_of_reads`, `shows_saveLearned`: what is read and what is written.
- `Writable.saveLearned`: a store can be written to again.
-/

namespace ReviewGate.Store

/-- The rules are read with free access. -/
def Shows (store : Store) (s : Shelf) (rules : List Document) : Prop :=
  store.learnedRules (s.under .free) = .ok rules

section

variable {store : Store} {s : Shelf} {rules : List Document}

theorem Holds.shows (h : store.Holds s rules) : store.Shows s rules := by
  obtain ⟨d, hread, rfl⟩ := h
  unfold Shows learnedRules
  rw [hread]
  rfl

/-- What is shown does not depend on how the gist can be accessed. -/
theorem shows_under_iff (a : Access) : store.Shows (s.under a) rules ↔ store.Shows s rules :=
  Iff.rfl

theorem writable_under_iff {a : Access} (b : Access) :
    store.Writable (s.under b) a ↔ store.Writable s a := by
  cases store <;> exact Iff.rfl

variable (h : store.Shows s rules)
include h

theorem Shows.unique {rules' : List Document} (h' : store.Shows s rules') : rules = rules' :=
  Except.ok.inj (h.symm.trans h')

/-- A read that gets through gives the rules that are shown. -/
theorem Shows.learnedRules_of_reads {a : Access} (ha : store.ReadsUnder a) :
    store.learnedRules (s.under a) = .ok rules := by
  have hread : store.read (s.under a) .learned = store.read (s.under .free) .learned := by
    cases store with
    | files learned snapshot => rfl
    | gist => exact Shelf.gistDocument_of_reads (ha rfl) _
    | nowhere => rfl
  unfold learnedRules
  rw [hread]
  exact h

/-- Rules that are read can be stored. -/
theorem Shows.normal : ∀ d ∈ rules, Json.Normal d := by
  unfold Shows learnedRules at h
  cases hread : store.read (s.under .free) .learned with
  | error fault =>
      rw [hread] at h
      cases h
  | ok doc =>
      rw [hread] at h
      obtain rfl : rulesIn doc = rules := Except.ok.inj h
      cases doc with
      | none => exact List.forall_mem_nil _
      | some d => exact normal_of_mem_rulesIn (normal_of_read hread)

end

section

variable {store : Store} {s : Shelf} {a : Access} (hwrite : store.Writable s a)
  {rules : List Document} (hrules : ∀ d ∈ rules, Json.Normal d) (inWorkflow : Bool) (stamp : String)
include hwrite hrules

/-- A write that gets through is shown. -/
theorem shows_saveLearned :
    store.Shows (store.saveLearned inWorkflow stamp (s.under a) (.list rules)).2 rules :=
  (holds_saveLearned_of_writable inWorkflow stamp hwrite hrules).shows

/-- **What can be written to can be written to again.** -/
theorem Writable.saveLearned {b : Access} (hagain : store.Writable s b) :
    store.Writable (store.saveLearned inWorkflow stamp (s.under a) (.list rules)).2 b := by
  cases store with
  | gist => exact hagain
  | nowhere => exact hwrite
  | files learned snapshot =>
      obtain ⟨t, place, hmake, hlocate, hplace⟩ := hwrite
      -- a single path is side by side with itself
      have hside : s.tree.SideBySide (fun _ : Unit => learned) (fun _ => t) fun _ => place :=
        ⟨fun _ => hmake, fun _ => hlocate, fun _ _ => hplace, fun _ _ _ => rfl⟩
      obtain ⟨text, htext, -⟩ := exists_text (normal_learnedEnvelope hrules stamp)
      obtain ⟨u, w, hmake', hput, hbeside, -⟩ := (Tree.beside_self s.tree _ _).exists_save hside ()
        (Text.Utf8.encode (text ++ "\n"))
      have hsaved : (s.under a).putInFile learned (learnedEnvelope (.list rules) stamp)
          = (.ok (), { s.under a with tree := w }) := Shelf.putInFile_of_write hmake' htext hput
      obtain ⟨u', hmake'', hjoins, hbeside'⟩ := hbeside.exists_makeDirectories hside ()
      rw [saveLearned_files, hsaved]
      exact ⟨u', place, hmake'', Tree.locate_of_below hjoins.gains hlocate,
        hbeside'.hasDirectory_place hside ()⟩

end

end ReviewGate.Store
