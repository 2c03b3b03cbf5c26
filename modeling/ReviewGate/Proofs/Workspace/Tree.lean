import Mathlib.Data.List.Basic
import ReviewGate.Proofs.Sequence
import ReviewGate.Workspace.Tree

/-!
# `ReviewGate.Proofs.Workspace.Tree` — files that are written and files that stay

A path is followed through directories only, so it leads to the same place as long as no directory
of the tree is lost (`Below`). Neither operation loses one. Making directories adds entries behind
those that are there, and a file is not put where there is a directory, while everything on the way
to its place stays a directory because the file itself is below it.

## Contents
- `locate_eq_ok`: where a path leads.
- `Below`, `locate_of_below`: a tree that has all directories of another.
- `read_of_write`, `exists_write`: what has been written is read, and what can be written.
- `read_of_makeDirectories`: making directories takes no file away.
-/

namespace ReviewGate.Tree

/-- Every directory of the one tree is a directory of the other. -/
def Below (t t' : Tree) : Prop :=
  ∀ place, t.hasDirectory place = true → t'.hasDirectory place = true

theorem Below.trans {t t' t'' : Tree} (h : t.Below t') (h' : t'.Below t'') : t.Below t'' :=
  fun place hplace => h' place (h place hplace)

/-- A path below the working directory leads where its names lead, one after the other. -/
theorem locate_eq_ok {t : Tree} {path : String} {place : Place} :
    t.locate path = .ok place ↔ ¬(path.toList.head? == some '/') = true ∧
      (namesOf path).foldlM t.follow [] = .ok place.reverse := by
  unfold locate
  split
  next hroot => exact ⟨nofun, fun h => absurd hroot h.1⟩
  next hroot =>
    cases (namesOf path).foldlM t.follow [] with
    | error fault => exact ⟨nofun, nofun⟩
    | ok last =>
        constructor
        · intro h
          obtain rfl : last.reverse = place := Except.ok.inj h
          exact ⟨hroot, by rw [List.reverse_reverse]⟩
        · rintro ⟨-, h⟩
          obtain rfl := Except.ok.inj h
          exact congrArg Except.ok (List.reverse_reverse place)

section

variable {t t' : Tree} (h : t.Below t')
include h

theorem follow_of_below {place next : Place} {name : List Char}
    (hfollow : t.follow place name = .ok next) : t'.follow place name = .ok next := by
  unfold follow at hfollow ⊢
  by_cases hdirectory : t.hasDirectory place.reverse = true
  · rw [h _ hdirectory]
    rw [hdirectory] at hfollow
    exact hfollow
  · rw [Bool.not_eq_true] at hdirectory
    rw [hdirectory] at hfollow
    cases hfollow

theorem foldlM_follow_of_below (names : List (List Char)) {place last : Place}
    (hfold : names.foldlM t.follow place = .ok last) :
    names.foldlM t'.follow place = .ok last := by
  induction names generalizing place with
  | nil => exact hfold
  | cons name names ih =>
      rw [List.foldlM_cons] at hfold ⊢
      obtain ⟨next, hnext, hfold⟩ := bind_eq_ok.mp hfold
      rw [follow_of_below h hnext]
      exact ih hfold

/-- **A path leads to the same place in a tree that has all directories.** -/
theorem locate_of_below {path : String} {place : Place} (hlocate : t.locate path = .ok place) :
    t'.locate path = .ok place := by
  obtain ⟨hroot, hfold⟩ := locate_eq_ok.mp hlocate
  exact locate_eq_ok.mpr ⟨hroot, foldlM_follow_of_below h _ hfold⟩

end

/-! ## One entry put in -/

theorem lookup_putEntry (place : Place) (e : Entry) (entries : List (Place × Entry)) :
    (putEntry place e entries).lookup place = some e := by
  induction entries with
  | nil => simp [putEntry]
  | cons entry rest ih =>
      obtain ⟨p, old⟩ := entry
      rw [putEntry]
      by_cases hp : p = place
      · rw [if_pos hp, hp]
        simp
      · rw [if_neg hp, List.lookup_cons, beq_eq_false_iff_ne.mpr (Ne.symm hp)]
        exact ih

theorem fileAt?_putFile (t : Tree) (place : Place) (data : List UInt8) :
    (t.putFile place data).fileAt? place = some data := by
  unfold fileAt? putFile
  rw [lookup_putEntry]

/-- An entry is put in without effect on a question that it answers as the old one does. -/
theorem any_putEntry {place : Place} {e : Entry} {entries : List (Place × Entry)}
    {q : Place × Entry → Bool} (hq : ∀ old, q (place, old) = q (place, e))
    (h : entries.any q = true) : (putEntry place e entries).any q = true := by
  induction entries with
  | nil => cases h
  | cons entry rest ih =>
      obtain ⟨p, old⟩ := entry
      rw [List.any_cons, Bool.or_eq_true] at h
      rw [putEntry]
      by_cases hp : p = place
      · subst hp
        rw [if_pos rfl, List.any_cons, Bool.or_eq_true, ← hq old]
        exact h
      · rw [if_neg hp, List.any_cons, Bool.or_eq_true]
        exact h.imp_right ih

/-- **No directory is lost where a file is put in a place that is none.** -/
theorem below_putFile {t : Tree} {place : Place} (hplace : t.hasDirectory place = false)
    (data : List UInt8) : t.Below (t.putFile place data) := by
  intro p hp
  -- the place of the file is not one of the directories, so their entries are not touched
  have hne : place ≠ p := by
    rintro rfl
    rw [hplace] at hp
    cases hp
  unfold hasDirectory putFile at *
  rw [Bool.or_eq_true] at hp ⊢
  refine hp.imp_right (any_putEntry fun old => ?_)
  dsimp only
  rw [if_neg hne, if_neg hne]

/-! ## Files -/

/-- **What has been written is read.** -/
theorem read_of_write {t t' : Tree} {path : String} {data : List UInt8}
    (h : t.write path data = .ok t') : t'.read path = .ok data := by
  obtain ⟨place, hlocate, h⟩ := bind_eq_ok.mp h
  split at h
  · cases h
  next hdirectory =>
    rw [Bool.not_eq_true] at hdirectory
    obtain rfl : t.putFile place data = t' := Except.ok.inj h
    have hlocate' := locate_of_below (below_putFile hdirectory data) hlocate
    unfold read
    rw [hlocate', ok_bind, fileAt?_putFile]
    rfl

/-- A file can be written to a place that is no directory. -/
theorem exists_write {t : Tree} {path : String} {place : Place}
    (hlocate : t.locate path = .ok place) (hplace : t.hasDirectory place = false)
    (data : List UInt8) : ∃ t', t.write path data = .ok t' := by
  refine ⟨t.putFile place data, ?_⟩
  unfold write
  rw [hlocate, ok_bind, hplace]
  rfl

/-- A file that is in its place is read in any tree that has it there and all directories. -/
theorem read_of_below {t t' : Tree} (h : t.Below t')
    (hfiles : ∀ place data, t.fileAt? place = some data → t'.fileAt? place = some data)
    {path : String} {data : List UInt8} (hread : t.read path = .ok data) :
    t'.read path = .ok data := by
  obtain ⟨place, hlocate, hread⟩ := bind_eq_ok.mp hread
  unfold read
  rw [locate_of_below h hlocate, ok_bind]
  cases hfile : t.fileAt? place with
  | none =>
      rw [hfile] at hread
      cases hread
  | some old =>
      rw [hfile] at hread
      rw [hfiles place old hfile]
      exact hread

/-! ## Directories -/

/-- A directory is added behind all entries. -/
theorem below_append (t : Tree) (place : Place) : t.Below ⟨t.entries ++ [(place, .directory)]⟩ := by
  intro p hp
  unfold hasDirectory at *
  rw [List.any_append, ← Bool.or_assoc, hp, Bool.true_or]

/-- A directory that is added takes no file away and adds none. -/
theorem fileAt?_append (t : Tree) (place p : Place) :
    (Tree.mk (t.entries ++ [(place, .directory)])).fileAt? p = t.fileAt? p := by
  unfold fileAt?
  rw [List.lookup_append]
  cases t.entries.lookup p with
  | some e => rfl
  | none =>
      rw [Option.none_or, List.lookup_cons]
      cases p == place <;> rfl

theorem makePlaces_keeps {names : List (List Char)} {done : Place} {t t' : Tree}
    (h : makePlaces done t names = .ok t') :
    t.Below t' ∧ ∀ place data, t.fileAt? place = some data → t'.fileAt? place = some data := by
  induction names generalizing done t with
  | nil =>
      obtain rfl : t = t' := Except.ok.inj h
      exact ⟨fun _ => id, fun _ _ => id⟩
  | cons name names ih =>
      rw [makePlaces] at h
      -- which place the name leads to does not matter
      generalize (if (name == ['.', '.']) = true then done.dropLast else done ++ [name])
        = place at h
      split at h
      · cases h
      · split at h
        · exact ih h
        · split at h
          · cases h
          · obtain ⟨hbelow, hfiles⟩ := ih h
            exact ⟨(below_append t _).trans hbelow,
              fun place data hfile => hfiles place data ((fileAt?_append ..).trans hfile)⟩

theorem makeDirectories_keeps {t t' : Tree} {directory : String}
    (h : t.makeDirectories directory = .ok t') :
    t.Below t' ∧ ∀ place data, t.fileAt? place = some data → t'.fileAt? place = some data := by
  unfold makeDirectories at h
  split at h
  · cases h
  · exact makePlaces_keeps h

/-- **Making directories takes no file away.** -/
theorem read_of_makeDirectories {t t' : Tree} {directory : String}
    (h : t.makeDirectories directory = .ok t') {path : String} {data : List UInt8}
    (hread : t.read path = .ok data) : t'.read path = .ok data := by
  obtain ⟨hbelow, hfiles⟩ := makeDirectories_keeps h
  exact read_of_below hbelow hfiles hread

end ReviewGate.Tree
