import ReviewGate.Proofs.Workspace.Tree

/-!
# `ReviewGate.Proofs.Workspace.SideBySide` — several files that are written again and again

A file is written in two steps: the directories on the way are made, and then the bytes are put in
the place that the path leads to. The second step makes no directory, since everything above the
place is one by then (`led_of_locate`). So all directories that writes can ever make are
known from the tree at the start, and if none of them is where one of the files goes, a write to any
of the files gets through at any time, and touches no other file (`Beside.exists_save`).

## Contents
- `hasDirectory_append`, `hasDirectory_of_isPrefix`: directories and the places above them.
- `Led`, `led_of_locate`: a path leads through directories.
- `Joins`, `makeDirectories_of_below`: directories made once more in a tree that has others.
- `SideBySide`: paths that do not get in each other's way.
- `Beside`, `Beside.exists_save`: the invariant and its step.
- `SideBySide.read_of_written`, `Beside.read_of_absent`: what is read.
-/

namespace ReviewGate.Tree

/-! ## Directories -/

/-- A place is a directory if it is said to be one or if something is below it. -/
theorem hasDirectory_iff {t : Tree} {p : Place} :
    t.hasDirectory p = true ↔ p = [] ∨ ∃ entry ∈ t.entries,
      if entry.1 = p then entry.2 = .directory else p <+: entry.1 := by
  unfold hasDirectory
  rw [Bool.or_eq_true, List.isEmpty_iff, List.any_eq_true]
  refine or_congr_right (exists_congr fun entry => and_congr_right fun _ => ?_)
  dsimp only
  by_cases hplace : entry.1 = p
  · rw [if_pos hplace, if_pos hplace]
    exact beq_iff_eq
  · rw [if_neg hplace, if_neg hplace]
    exact List.isPrefixOf_iff_prefix

/-- **Above a directory there are directories only.** -/
theorem hasDirectory_of_isPrefix {t : Tree} {p q : Place} (hp : t.hasDirectory p = true)
    (hq : q <+: p) : t.hasDirectory q = true := by
  rw [hasDirectory_iff] at hp ⊢
  by_cases hsame : q = p
  · rwa [hsame]
  obtain rfl | ⟨entry, hentry, hbelow⟩ := hp
  · exact Or.inl (List.prefix_nil.mp hq)
  refine Or.inr ⟨entry, hentry, ?_⟩
  have habove : p <+: entry.1 := by
    split at hbelow
    next heq => exact heq ▸ List.prefix_rfl
    next => exact hbelow
  have hne : entry.1 ≠ q := by
    rintro rfl
    exact hsame (hq.eq_of_length_le habove.length_le)
  rw [if_neg hne]
  exact hq.trans habove

theorem hasDirectory_append {t : Tree} {p place : Place} :
    (Tree.mk (t.entries ++ [(place, .directory)])).hasDirectory p = true ↔
      t.hasDirectory p = true ∨ p <+: place := by
  rw [hasDirectory_iff, hasDirectory_iff, or_assoc]
  refine or_congr_right ?_
  constructor
  · rintro ⟨entry, hentry, hbelow⟩
    obtain hold | hnew := List.mem_append.mp hentry
    · exact Or.inl ⟨entry, hold, hbelow⟩
    · obtain rfl := List.mem_singleton.mp hnew
      refine Or.inr ?_
      split at hbelow
      next heq => exact heq ▸ List.prefix_rfl
      next => exact hbelow
  · rintro (⟨entry, hentry, hbelow⟩ | habove)
    · exact ⟨entry, List.mem_append_left _ hentry, hbelow⟩
    · refine ⟨(place, .directory), List.mem_append_right _ (List.mem_singleton.mpr rfl), ?_⟩
      split
      · rfl
      · exact habove

/-! ## The place of a file -/

theorem lookup_putEntry_of_ne {place p : Place} (hne : p ≠ place) (e : Entry)
    (entries : List (Place × Entry)) : (putEntry place e entries).lookup p = entries.lookup p := by
  induction entries with
  | nil =>
      rw [putEntry, List.lookup_cons, beq_eq_false_iff_ne.mpr hne]
  | cons entry rest ih =>
      obtain ⟨q, old⟩ := entry
      rw [putEntry]
      by_cases hq : q = place
      · rw [if_pos hq, List.lookup_cons, List.lookup_cons, hq, beq_eq_false_iff_ne.mpr hne]
      · rw [if_neg hq, List.lookup_cons, List.lookup_cons, ih]

theorem fileAt?_putFile_of_ne (t : Tree) {place p : Place} (hne : p ≠ place) (data : List UInt8) :
    (t.putFile place data).fileAt? p = t.fileAt? p := by
  unfold fileAt? putFile
  rw [lookup_putEntry_of_ne hne]

theorem mem_putEntry {place : Place} {e : Entry} {entries : List (Place × Entry)}
    {entry : Place × Entry} (h : entry ∈ putEntry place e entries) :
    entry ∈ entries ∨ entry = (place, e) := by
  induction entries with
  | nil => exact Or.inr (List.mem_singleton.mp h)
  | cons first rest ih =>
      obtain ⟨q, old⟩ := first
      rw [putEntry] at h
      by_cases hq : q = place
      · rw [if_pos hq, List.mem_cons, hq] at h
        exact h.symm.imp_left (List.mem_cons_of_mem _)
      · rw [if_neg hq, List.mem_cons] at h
        obtain rfl | hrest := h
        · exact Or.inl (List.mem_cons_self ..)
        · exact (ih hrest).imp_left (List.mem_cons_of_mem _)

/-- Everything above the place is a directory. -/
def Led (t : Tree) (place : Place) : Prop :=
  ∀ q, q <+: place → q ≠ place → t.hasDirectory q = true

/-- One more name leads out of a directory or into one. -/
theorem led_of_follow {t : Tree} {place next : Place} {name : List Char}
    (h : t.follow place name = .ok next) : t.Led next.reverse := by
  intro q hq hne
  unfold follow at h
  by_cases hdirectory : t.hasDirectory place.reverse = true
  · rw [hdirectory] at h
    refine hasDirectory_of_isPrefix hdirectory ?_
    by_cases hup : (name == ['.', '.']) = true
    · rw [if_pos hup] at h
      cases place with
      | nil => cases h
      | cons last rest =>
          obtain rfl : rest = next := Except.ok.inj h
          rw [List.reverse_cons]
          exact hq.trans (List.prefix_append ..)
    · rw [if_neg hup] at h
      obtain rfl : name :: place = next := Except.ok.inj h
      rw [List.reverse_cons] at hq hne
      exact (List.prefix_concat_iff.mp hq).resolve_left hne
  · rw [Bool.not_eq_true] at hdirectory
    rw [hdirectory] at h
    cases h

theorem led_of_foldlM_follow {t : Tree} (names : List (List Char)) {place last : Place}
    (hplace : t.Led place.reverse) (h : names.foldlM t.follow place = .ok last) :
    t.Led last.reverse := by
  induction names generalizing place with
  | nil =>
      obtain rfl : place = last := Except.ok.inj h
      exact hplace
  | cons name names ih =>
      rw [List.foldlM_cons] at h
      obtain ⟨next, hnext, h⟩ := bind_eq_ok.mp h
      exact ih (led_of_follow hnext) h

/-- **A path leads through directories.** -/
theorem led_of_locate {t : Tree} {path : String} {place : Place}
    (h : t.locate path = .ok place) : t.Led place := by
  obtain ⟨-, hlast⟩ := locate_eq_ok.mp h
  have hled := led_of_foldlM_follow _ (fun q hq hne => absurd (List.prefix_nil.mp hq) hne) hlast
  rwa [List.reverse_reverse] at hled

theorem exists_fault_of_follow {t : Tree} {place : Place} {name : List Char} {fault : Fault}
    (h : t.follow place name = .error fault) : ∃ cause, fault = .tree cause := by
  unfold follow at h
  split at h
  · exact ⟨_, (Except.error.inj h).symm⟩
  · split at h
    · cases place with
      | nil => exact ⟨_, (Except.error.inj h).symm⟩
      | cons last rest => cases h
    · cases h

theorem exists_fault_of_foldlM_follow {t : Tree} (names : List (List Char)) {place : Place}
    {fault : Fault} (h : names.foldlM t.follow place = .error fault) :
    ∃ cause, fault = .tree cause := by
  induction names generalizing place with
  | nil => cases h
  | cons name names ih =>
      rw [List.foldlM_cons] at h
      cases hnext : t.follow place name with
      | error cause =>
          rw [hnext] at h
          cases h
          exact exists_fault_of_follow hnext
      | ok next =>
          rw [hnext] at h
          exact ih h

/-- A path that leads nowhere does so for a reason of the tree. -/
theorem exists_fault_of_locate {t : Tree} {path : String} {fault : Fault}
    (h : t.locate path = .error fault) : ∃ cause, fault = .tree cause := by
  unfold locate at h
  split at h
  · exact ⟨_, (Except.error.inj h).symm⟩
  · cases hlast : (namesOf path).foldlM t.follow [] with
    | error cause =>
        rw [hlast] at h
        cases h
        exact exists_fault_of_foldlM_follow _ hlast
    | ok last =>
        rw [hlast] at h
        cases h

/-- A file that is put where a path leads adds no directory. -/
theorem hasDirectory_of_putFile {t : Tree} {place p : Place} {data : List UInt8}
    (hled : t.Led place) (hp : (t.putFile place data).hasDirectory p = true) :
    t.hasDirectory p = true := by
  obtain rfl | ⟨entry, hentry, hbelow⟩ := hasDirectory_iff.mp hp
  · exact hasDirectory_iff.mpr (Or.inl rfl)
  obtain hold | rfl := mem_putEntry hentry
  · exact hasDirectory_iff.mpr (Or.inr ⟨entry, hold, hbelow⟩)
  · split at hbelow
    · cases hbelow
    next hne => exact hled p hbelow (Ne.symm hne)

/-! ## Directories made once more -/

/-- The last tree is the second one with the directories of the first. -/
structure Joins (t u u' : Tree) : Prop where
  keeps : u.Below u'
  gains : t.Below u'
  directories : ∀ p, u'.hasDirectory p = true → u.hasDirectory p = true ∨ t.hasDirectory p = true
  files : ∀ p, u'.fileAt? p = u.fileAt? p

/-- What is joined to a tree with one directory more is joined to the tree. -/
theorem Joins.of_append {t u u' : Tree} {place : Place}
    (h : Joins t ⟨u.entries ++ [(place, .directory)]⟩ u') (hplace : t.hasDirectory place = true) :
    Joins t u u' where
  keeps := (below_append u place).trans h.keeps
  gains := h.gains
  directories p hp := by
    obtain hadded | hmade := h.directories p hp
    · exact (hasDirectory_append.mp hadded).imp_right (hasDirectory_of_isPrefix hplace)
    · exact Or.inr hmade
  files p := by rw [h.files, fileAt?_append]

/-- **Directories that can be made in a tree can be made in one that has more**, if what it has more
is no file in the place of one of them. -/
theorem makePlaces_of_below {names : List (List Char)} {done : Place} {t t' u : Tree}
    (h : makePlaces done t names = .ok t') (hbelow : t.Below u)
    (hfiles : ∀ p, (u.fileAt? p).isSome → t'.hasDirectory p = true → (t.fileAt? p).isSome) :
    ∃ u', makePlaces done u names = .ok u' ∧ Joins t' u u' := by
  induction names generalizing done t u with
  | nil =>
      obtain rfl : t = t' := Except.ok.inj h
      exact ⟨u, rfl, fun _ => id, hbelow, fun _ => Or.inl, fun _ => rfl⟩
  | cons name names ih =>
      rw [makePlaces] at h ⊢
      -- which place the name leads to does not matter
      generalize (if (name == ['.', '.']) = true then done.dropLast else done ++ [name])
        = place at h ⊢
      split at h
      · cases h
      next hroot =>
        rw [if_neg hroot]
        split at h
        -- the tree has the directory, and so has the other one
        next hplace =>
          rw [if_pos (hbelow _ hplace)]
          exact ih h hbelow hfiles
        next hplace =>
          split at h
          · cases h
          next hnone =>
            have hmade : t'.hasDirectory place = true :=
              (makePlaces_keeps h).1 _ (hasDirectory_append.mpr (Or.inr List.prefix_rfl))
            by_cases hother : u.hasDirectory place = true
            · have hbelow' : Below ⟨t.entries ++ [(place, .directory)]⟩ u := fun p hp =>
                (hasDirectory_append.mp hp).elim (hbelow p) (hasDirectory_of_isPrefix hother)
              rw [if_pos hother]
              refine ih h hbelow' fun p hp hp' => ?_
              rw [fileAt?_append]
              exact hfiles p hp hp'
            · have hfresh : ¬(u.fileAt? place).isSome = true := fun hsome =>
                hnone (hfiles place hsome hmade)
              have hbelow' : Below ⟨t.entries ++ [(place, .directory)]⟩
                  ⟨u.entries ++ [(place, .directory)]⟩ := fun p hp =>
                hasDirectory_append.mpr ((hasDirectory_append.mp hp).imp_left (hbelow p))
              rw [if_neg hother, if_neg hfresh]
              have hrest := ih h hbelow' fun p hp hp' => by
                rw [fileAt?_append] at hp ⊢
                exact hfiles p hp hp'
              exact hrest.imp fun u' hu' => ⟨hu'.1, hu'.2.of_append hmade⟩

theorem makeDirectories_of_below {t t' u : Tree} {directory : String}
    (h : t.makeDirectories directory = .ok t') (hbelow : t.Below u)
    (hfiles : ∀ p, (u.fileAt? p).isSome → t'.hasDirectory p = true → (t.fileAt? p).isSome) :
    ∃ u', u.makeDirectories directory = .ok u' ∧ Joins t' u u' := by
  unfold makeDirectories at h ⊢
  split at h
  · cases h
  next hroot =>
    rw [if_neg hroot]
    exact makePlaces_of_below h hbelow hfiles

/-! ## Files side by side -/

/-- Files can be written to the paths side by side. Making the directories on the way to a path
gives the tree that belongs to it, in which it leads to a place; the places are different, and none
of them is a directory in any of the trees. -/
structure SideBySide {ι : Type} (t : Tree) (path : ι → String) (made : ι → Tree)
    (place : ι → Place) : Prop where
  makes : ∀ i, t.makeDirectories (parentOf (path i)) = .ok (made i)
  leads : ∀ i, (made i).locate (path i) = .ok (place i)
  free : ∀ i j, (made i).hasDirectory (place j) = false
  apart : ∀ i j, place i = place j → i = j

/-- The tree comes from another one by writes to the paths: it has more directories only where they
are made for a path, and more files only in the places. -/
structure Beside {ι : Type} (t : Tree) (made : ι → Tree) (place : ι → Place) (u : Tree) : Prop where
  below : t.Below u
  directories : ∀ p, u.hasDirectory p = true →
    t.hasDirectory p = true ∨ ∃ i, (made i).hasDirectory p = true
  files : ∀ p, (u.fileAt? p).isSome → (t.fileAt? p).isSome ∨ ∃ i, p = place i

theorem beside_self {ι : Type} (t : Tree) (made : ι → Tree) (place : ι → Place) :
    Beside t made place t :=
  ⟨fun _ => id, fun _ => Or.inl, fun _ => Or.inl⟩

section

variable {ι : Type} {t u : Tree} {path : ι → String} {made : ι → Tree} {place : ι → Place}
  (h : SideBySide t path made place) (hu : Beside t made place u)
include h hu

/-- The directories on the way to a path can be made again. -/
theorem Beside.exists_makeDirectories (i : ι) :
    ∃ u', u.makeDirectories (parentOf (path i)) = .ok u' ∧ Joins (made i) u u' ∧
      Beside t made place u' := by
  have hfiles : ∀ p, (u.fileAt? p).isSome → (made i).hasDirectory p = true →
      (t.fileAt? p).isSome := by
    intro p hp hdirectory
    refine (hu.files p hp).resolve_right ?_
    rintro ⟨j, rfl⟩
    rw [h.free i j] at hdirectory
    cases hdirectory
  obtain ⟨u', hmake, hjoins⟩ := makeDirectories_of_below (h.makes i) hu.below hfiles
  refine ⟨u', hmake, hjoins, hu.below.trans hjoins.keeps, fun p hp => ?_, fun p hp => ?_⟩
  · exact (hjoins.directories p hp).elim (hu.directories p) fun hp' => Or.inr ⟨i, hp'⟩
  · rw [hjoins.files] at hp
    exact hu.files p hp

/-- The places of the files are free. -/
theorem Beside.hasDirectory_place (i : ι) : u.hasDirectory (place i) = false := by
  have hnone (j : ι) : ¬(made j).hasDirectory (place i) = true :=
    Bool.not_eq_true _ ▸ h.free j i
  rw [← Bool.not_eq_true]
  intro hp
  obtain hold | ⟨j, hj⟩ := hu.directories _ hp
  · exact hnone i ((makeDirectories_keeps (h.makes i)).1 _ hold)
  · exact hnone j hj

/-- **A write to one of the paths gets through, and touches no other file.** -/
theorem Beside.exists_save (i : ι) (data : List UInt8) :
    ∃ u' w, u.makeDirectories (parentOf (path i)) = .ok u' ∧ u'.write (path i) data = .ok w ∧
      Beside t made place w ∧ u.Below w ∧ (made i).Below w ∧
      w.fileAt? (place i) = some data ∧ ∀ p, p ≠ place i → w.fileAt? p = u.fileAt? p := by
  obtain ⟨u', hmake, hjoins, hbeside⟩ := hu.exists_makeDirectories h i
  have hfree := hbeside.hasDirectory_place h i
  have hleads := locate_of_below hjoins.gains (h.leads i)
  have hput := below_putFile hfree data
  have hother : ∀ p, p ≠ place i → (u'.putFile (place i) data).fileAt? p = u.fileAt? p := by
    intro p hp
    rw [fileAt?_putFile_of_ne u' hp, hjoins.files]
  refine ⟨u', u'.putFile (place i) data, hmake, ?_, ?_, hjoins.keeps.trans hput,
    hjoins.gains.trans hput, fileAt?_putFile .., hother⟩
  · unfold write
    rw [hleads, ok_bind, hfree]
    rfl
  · refine ⟨hbeside.below.trans hput, fun p hp => ?_, fun p hp => ?_⟩
    · exact hbeside.directories p (hasDirectory_of_putFile (led_of_locate hleads) hp)
    · by_cases hplace : p = place i
      · exact Or.inr ⟨i, hplace⟩
      · rw [hother p hplace] at hp
        exact hu.files p hp

/-- A file that is in none of the trees is not read. -/
theorem Beside.read_of_absent {i : ι} (hnone : u.fileAt? (place i) = none) :
    ∃ fault, u.read (path i) = .error (.tree fault) := by
  unfold read
  cases hlocate : u.locate (path i) with
  | error fault =>
      obtain ⟨cause, rfl⟩ := exists_fault_of_locate hlocate
      exact ⟨cause, rfl⟩
  | ok p =>
      -- with the directories on the way the path would lead to its place, and it already does
      obtain ⟨u', -, hjoins, -⟩ := hu.exists_makeDirectories h i
      have hsame := locate_of_below hjoins.keeps hlocate
      rw [locate_of_below hjoins.gains (h.leads i)] at hsame
      obtain rfl := Except.ok.inj hsame
      rw [ok_bind, hnone]
      exact ⟨_, rfl⟩

omit hu in
/-- A file that has been written is read. -/
theorem SideBySide.read_of_written {i : ι} {data : List UInt8} (hbelow : (made i).Below u)
    (hfile : u.fileAt? (place i) = some data) : u.read (path i) = .ok data := by
  unfold read
  rw [locate_of_below hbelow (h.leads i), ok_bind, hfile]
  rfl

end

end ReviewGate.Tree
