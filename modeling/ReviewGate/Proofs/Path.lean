import ReviewGate.Path
import ReviewGate.Proofs.Text.Lines

/-!
# `ReviewGate.Proofs.Path` — where a path leads

Walking the names of a path keeps a list of names: how far up it leads above where it started, and
which names down from there. Nothing leads above the root, so an absolute path keeps no `..`. A
normalised path is the names kept, behind its root, and one that keeps no names is `.` or the root.

A path from the root of a repository is an inner one if all its names lead down. Seen from any
directory it leads below that directory.

## Contents
- `IsName`, `Inner`, `inner_iff`: paths from the root of a repository.
- `resolved`, `Walked`, `walked_foldl`: the names that a path keeps.
- `mem_ofComponents`, `dropWhile_normalize`: a path and a normalised one without its root.
- `Inner.append_cons`, `Inner.append`: longer inner paths.
- `Inner.resolved_join`, `Inner.rootOf_join`: an inner path seen from a directory.
-/

namespace ReviewGate.Path

open Text

/-! ## Inner paths -/

/-- Does the name lead to something in the directory that it is looked up in? -/
def IsName (name : List Char) : Prop := name ≠ [] ∧ name ≠ ['.'] ∧ name ≠ ['.', '.']

instance (name : List Char) : Decidable (IsName name) :=
  inferInstanceAs (Decidable (_ ∧ _))

/-- A normalised path from the root of a repository: it is neither empty nor absolute, and none of
its names is empty, `.` or `..`. -/
structure Inner (path : List Char) : Prop where
  ne_nil : path ≠ []
  relative : path.head? ≠ some '/'
  names : ∀ name ∈ components path, IsName name

/-- The names alone decide: an empty path and an absolute one have an empty name. -/
theorem inner_iff {path : List Char} : Inner path ↔ ∀ name ∈ components path, IsName name := by
  refine ⟨Inner.names, fun h => ⟨?_, fun hslash => ?_, h⟩⟩
  · rintro rfl
    exact (h [] (List.mem_singleton_self _)).1 rfl
  · obtain ⟨rest, rfl⟩ := List.head?_eq_some_iff.mp hslash
    have hempty : [] ∈ components ('/' :: rest) := by
      rw [components, List.splitOn_cons_eq_if_modifyHead]
      exact List.mem_cons_self ..
    exact (h [] hempty).1 rfl

instance (path : List Char) : Decidable (Inner path) := decidable_of_iff _ inner_iff.symm

theorem components_append_cons (front path : List Char) :
    components (front ++ '/' :: path) = components front ++ components path :=
  List.splitOn_append_cons_self front path

/-- Behind an inner path and a slash an inner path may follow. -/
theorem Inner.append_cons {front path : List Char} (hfront : Inner front) (h : Inner path) :
    Inner (front ++ '/' :: path) := by
  rw [inner_iff, components_append_cons]
  intro name hname
  rcases List.mem_append.mp hname with hold | hnew
  · exact hfront.names name hold
  · exact h.names name hnew

/-- What has no slash is read into the last name. -/
theorem components_append (path : List Char) {finish : List Char} (h : '/' ∉ finish) :
    ∃ front last, components path = front ++ [last] ∧
      components (path ++ finish) = front ++ [last ++ finish] := by
  induction path with
  | nil => exact ⟨[], [], rfl, List.splitOn_eq_singleton h⟩
  | cons c path ih =>
      obtain ⟨front, last, hpath, hlonger⟩ := ih
      unfold components at hpath hlonger ⊢
      rw [List.cons_append, List.splitOn_cons_eq_if_modifyHead, List.splitOn_cons_eq_if_modifyHead,
        hpath, hlonger]
      split
      · exact ⟨[] :: front, last, rfl, rfl⟩
      cases front with
      | nil => exact ⟨[], c :: last, rfl, rfl⟩
      | cons first front => exact ⟨(c :: first) :: front, last, rfl, rfl⟩

/-- An ending of two characters or more makes the last name longer, and it stays a name. -/
theorem Inner.append {path finish : List Char} (h : Inner path) (hone : '/' ∉ finish)
    (hlong : 2 ≤ finish.length) : Inner (path ++ finish) := by
  obtain ⟨front, last, hpath, hlonger⟩ := components_append path hone
  have hnames : ∀ name ∈ front ++ [last], IsName name := hpath ▸ h.names
  have hlength : 0 < last.length :=
    List.length_pos_iff.mpr (hnames last (List.mem_append_right _ (List.mem_singleton_self _))).1
  rw [inner_iff, hlonger]
  intro name hname
  rcases List.mem_append.mp hname with hold | hnew
  · exact hnames name (List.mem_append_left _ hold)
  · -- no name of three characters is empty, one dot or two
    have hthree : 3 ≤ name.length := by
      rw [List.mem_singleton.mp hnew, List.length_append]
      omega
    refine ⟨?_, ?_, ?_⟩ <;> rintro rfl <;> exact absurd hthree (by decide)

/-! ## The names that a path keeps -/

/-- The names that a path keeps when it is walked. -/
def resolved (path : List Char) : List (List Char) :=
  ((components path).foldl (pushName !(rootOf path).isEmpty) []).reverse

theorem normalize_eq (path : List Char) :
    normalize path = match rootOf path ++ ofComponents (resolved path) with
      | [] => ['.']
      | cs => cs := rfl

/-- Names kept, in reverse: names that lead down, below as many `..` as the path leads up. An
absolute path does not lead up. -/
def Walked (absolute : Bool) (kept : List (List Char)) : Prop :=
  ∃ down up, kept = down ++ List.replicate up ['.', '.'] ∧
    (∀ name ∈ down, IsName name ∧ '/' ∉ name) ∧ (absolute = true → up = 0)

/-- **One more name keeps the form.** -/
theorem Walked.pushName {absolute : Bool} {kept : List (List Char)} (h : Walked absolute kept)
    {name : List Char} (hname : '/' ∉ name) : Walked absolute (pushName absolute kept name) := by
  obtain ⟨down, up, rfl, hdown, hroot⟩ := h
  unfold Path.pushName
  split
  · exact ⟨down, up, rfl, hdown, hroot⟩
  next hkept =>
  split
  next hdots =>
    obtain rfl := beq_iff_eq.mp hdots
    cases down with
    | nil =>
        cases up with
        | zero =>
            cases absolute with
            | true => exact ⟨[], 0, rfl, hdown, fun _ => rfl⟩
            | false => exact ⟨[], 1, rfl, hdown, nofun⟩
        | succ up =>
            -- the path leads up already, and now one step further
            exact ⟨[], up + 2, rfl, hdown, fun h => absurd (hroot h) (Nat.succ_ne_zero up)⟩
    | cons last down =>
        have hlast : (last == ['.', '.']) = false :=
          beq_false_of_ne (hdown last (List.mem_cons_self ..)).1.2.2
        simp only [List.cons_append, hlast, Bool.false_eq_true, if_false]
        exact ⟨down, up, rfl, fun n hn => hdown n (List.mem_cons_of_mem _ hn), hroot⟩
  next hdots =>
    have hnew : IsName name := by
      simp only [Bool.or_eq_true, List.isEmpty_iff, beq_iff_eq, not_or] at hkept hdots
      exact ⟨hkept.1, hkept.2, hdots⟩
    refine ⟨name :: down, up, rfl, fun n hn => ?_, hroot⟩
    rcases List.mem_cons.mp hn with rfl | hold
    · exact ⟨hnew, hname⟩
    · exact hdown n hold

/-- **What is kept of a path has the form.** -/
theorem walked_foldl {absolute : Bool} {kept : List (List Char)} (h : Walked absolute kept)
    {names : List (List Char)} (hnames : ∀ name ∈ names, '/' ∉ name) :
    Walked absolute (names.foldl (Path.pushName absolute) kept) :=
  List.foldlRecOn _ _ h fun _ hk name hname => hk.pushName (hnames name hname)

theorem walked_resolved (path : List Char) :
    Walked (!(rootOf path).isEmpty) (resolved path).reverse := by
  rw [resolved, List.reverse_reverse]
  exact walked_foldl ⟨[], 0, rfl, fun _ h => absurd h List.not_mem_nil, fun _ => rfl⟩
    fun _ hname => not_mem_of_mem_splitOn hname

theorem rootOf_cases (path : List Char) :
    rootOf path = [] ∨ rootOf path = ['/'] ∨ rootOf path = ['/', '/'] := by
  unfold rootOf
  split <;> simp

/-- The slashes in front of a normalised path are those of its root. -/
theorem dropWhile_rootOf_append (path rest : List Char) :
    (rootOf path ++ rest).dropWhile (· == '/') = rest.dropWhile (· == '/') := by
  obtain hroot | hroot | hroot := rootOf_cases path <;> rw [hroot] <;> rfl

/-- The first of names without slashes is in front of all slashes between them. -/
theorem dropWhile_ofComponents {names : List (List Char)} (h : ∀ name ∈ names, '/' ∉ name)
    (hsome : ∀ name ∈ names.head?, name ≠ []) :
    (ofComponents names).dropWhile (· == '/') = ofComponents names := by
  cases names with
  | nil => rfl
  | cons name rest =>
      obtain ⟨c, cs, rfl⟩ := List.exists_cons_of_ne_nil (hsome name rfl)
      have hc : (c == '/') = false := by
        refine beq_false_of_ne fun hslash => ?_
        exact h (c :: cs) (List.mem_cons_self ..) (hslash ▸ List.mem_cons_self ..)
      obtain ⟨more, hmore⟩ : ∃ more, ofComponents ((c :: cs) :: rest) = c :: more := by
        cases rest <;> exact ⟨_, by simp [ofComponents, List.intercalate_cons_cons]; rfl⟩
      rw [hmore, List.dropWhile_cons_of_neg (by simp [hc])]

theorem slash_not_mem_resolved {path name : List Char} (h : name ∈ resolved path) :
    '/' ∉ name ∧ name ≠ [] := by
  obtain ⟨down, up, hkept, hdown, -⟩ := walked_resolved path
  have hmem : name ∈ down ++ List.replicate up ['.', '.'] := hkept ▸ List.mem_reverse.mpr h
  rcases List.mem_append.mp hmem with hname | hdots
  · exact ⟨(hdown name hname).2, (hdown name hname).1.1⟩
  · rw [List.eq_of_mem_replicate hdots]
    decide

/-- A character of a path is a slash or stands in one of its names. -/
theorem mem_ofComponents {names : List (List Char)} {c : Char} (h : c ∈ ofComponents names) :
    c = '/' ∨ ∃ name ∈ names, c ∈ name := by
  unfold ofComponents at h
  induction names with
  | nil => exact absurd h List.not_mem_nil
  | cons name rest ih =>
      by_cases hrest : rest = []
      · rw [hrest, List.intercalate_singleton] at h
        exact Or.inr ⟨name, List.mem_cons_self .., h⟩
      · rw [intercalate_cons _ _ hrest, List.mem_append, List.mem_cons] at h
        rcases h with hname | hslash | hmore
        · exact Or.inr ⟨name, List.mem_cons_self .., hname⟩
        · exact Or.inl hslash
        · exact (ih hmore).imp_right fun ⟨n, hn, hc⟩ => ⟨n, List.mem_cons_of_mem _ hn, hc⟩

theorem ofComponents_ne_nil {names : List (List Char)} (hne : names ≠ [])
    (hsome : ∀ name ∈ names.head?, name ≠ []) : ofComponents names ≠ [] := by
  obtain ⟨name, rest, rfl⟩ := List.exists_cons_of_ne_nil hne
  have hname : name ≠ [] := hsome name rfl
  cases rest <;> simp [ofComponents, List.intercalate_cons_cons, hname]

/-- A normalised path without its root is the names kept; without names, a dot is left or, of the
root, nothing. -/
theorem dropWhile_normalize (path : List Char) :
    (normalize path).dropWhile (· == '/') =
      if resolved path = [] then if (rootOf path).isEmpty then ['.'] else []
      else ofComponents (resolved path) := by
  rw [normalize_eq]
  by_cases hnames : resolved path = []
  · rw [if_pos hnames, hnames]
    obtain hroot | hroot | hroot := rootOf_cases path <;> rw [hroot] <;> rfl
  · have hsome : ∀ name ∈ (resolved path).head?, name ≠ [] := fun name hname =>
      (slash_not_mem_resolved (List.mem_of_mem_head? hname)).2
    obtain ⟨c, cs, hcs⟩ := List.exists_cons_of_ne_nil
      (List.append_ne_nil_of_right_ne_nil (rootOf path) (ofComponents_ne_nil hnames hsome))
    rw [if_neg hnames, hcs]
    show (c :: cs).dropWhile (· == '/') = _
    rw [← hcs, dropWhile_rootOf_append,
      dropWhile_ofComponents (fun _ h => (slash_not_mem_resolved h).1) hsome]

theorem inner_ofComponents {names : List (List Char)} (hne : names ≠ [])
    (h : ∀ name ∈ names, IsName name ∧ '/' ∉ name) : Inner (ofComponents names) := by
  rw [inner_iff, components, ofComponents,
    List.splitOn_intercalate '/' (fun name hname => (h name hname).2) hne]
  exact fun name hname => (h name hname).1

/-- A path that keeps names does not lead up, or it does so with its first name. -/
theorem resolved_cases (path : List Char) :
    (∀ name ∈ resolved path, IsName name) ∨ (resolved path).head? = some ['.', '.'] := by
  obtain ⟨down, up, hkept, hdown, -⟩ := walked_resolved path
  have hresolved : resolved path = List.replicate up ['.', '.'] ++ down.reverse := by
    rw [← List.reverse_reverse (resolved path), hkept, List.reverse_append, List.reverse_replicate]
  cases up with
  | zero =>
      refine Or.inl fun name hname => (hdown name ?_).1
      rw [hresolved] at hname
      exact List.mem_reverse.mp hname
  | succ up => exact Or.inr (by rw [hresolved]; rfl)

/-! ## Inner paths seen from a directory -/

/-- Names that lead down are all kept. -/
theorem foldl_pushName_of_names {absolute : Bool} {names : List (List Char)}
    (h : ∀ name ∈ names, IsName name) (kept : List (List Char)) :
    names.foldl (pushName absolute) kept = names.reverse ++ kept := by
  induction names generalizing kept with
  | nil => rfl
  | cons name rest ih =>
      obtain ⟨hne, hdot, hdots⟩ := h name (List.mem_cons_self ..)
      have hpush : pushName absolute kept name = name :: kept := by
        simp [pushName, hne, hdot, hdots]
      rw [List.foldl_cons, hpush, ih fun n hn => h n (List.mem_cons_of_mem _ hn),
        List.reverse_cons, List.append_assoc]
      rfl

/-- Seen from a directory, a path that is not absolute is behind the directory and one slash. -/
theorem join_cases {path : List Char} (h : path.head? ≠ some '/') (directory : List Char) :
    directory = [] ∧ join directory path = path ∨
      (∃ front, directory = front ++ ['/'] ∧ join directory path = front ++ '/' :: path) ∨
      directory ≠ [] ∧ directory.getLast? ≠ some '/' ∧
        join directory path = directory ++ '/' :: path := by
  have hrelative : (path.head? == some '/') = false := beq_false_of_ne h
  by_cases hempty : directory = []
  · exact Or.inl ⟨hempty, by simp [join, hrelative, hempty]⟩
  by_cases hslash : directory.getLast? = some '/'
  · obtain ⟨front, rfl⟩ := List.getLast?_eq_some_iff.mp hslash
    exact Or.inr (Or.inl ⟨front, rfl, by simp [join, hrelative]⟩)
  · exact Or.inr (Or.inr ⟨hempty, hslash, by simp [join, hrelative, hempty, hslash]⟩)

/-- The names of the path come behind those of the directory. The empty name of a directory that is
empty or ends in a slash is not kept. -/
theorem Inner.foldl_components_join {path : List Char} (h : Inner path) (absolute : Bool)
    (directory : List Char) :
    (components (join directory path)).foldl (pushName absolute) []
      = (components path).reverse ++ (components directory).foldl (pushName absolute) [] := by
  have hempty : ∀ kept, (components []).foldl (pushName absolute) kept = kept := fun _ => rfl
  obtain ⟨rfl, hjoin⟩ | ⟨front, rfl, hjoin⟩ | ⟨-, -, hjoin⟩ := join_cases h.relative directory
  · rw [hjoin, hempty, foldl_pushName_of_names h.names]
  · rw [hjoin, components_append_cons, components_append_cons, List.foldl_append,
      List.foldl_append, hempty, foldl_pushName_of_names h.names]
  · rw [hjoin, components_append_cons, List.foldl_append, foldl_pushName_of_names h.names]

/-- The root is told by the number of slashes in front. -/
theorem rootOf_eq (path : List Char) :
    rootOf path = match (path.takeWhile (· == '/')).length with
      | 0 => []
      | 2 => ['/', '/']
      | _ => ['/'] := by
  have hnone : ∀ cs : List Char, (∀ tail, cs ≠ '/' :: tail) → cs.takeWhile (· == '/') = [] := by
    intro cs hcs
    cases cs with
    | nil => rfl
    | cons c cs =>
        have hc : c ≠ '/' := fun hslash => hcs cs (hslash ▸ rfl)
        simp [hc]
  unfold rootOf
  split
  · simp
  · next htwo => simp [hnone _ fun tail => htwo tail]
  · next _ hone => simp [hnone _ fun tail => hone tail]
  · next hother => rw [hnone _ fun tail => hother tail]; rfl

/-- An inner path is absolute exactly where its directory is. -/
theorem Inner.rootOf_join {path : List Char} (h : Inner path) (directory : List Char) :
    rootOf (join directory path) = rootOf directory := by
  have hpath : path.takeWhile (· == '/') = [] := by
    cases path with
    | nil => rfl
    | cons c cs =>
        have hc : c ≠ '/' := fun hslash => h.relative (hslash ▸ rfl)
        simp [hc]
  have hslashes : (join directory path).takeWhile (· == '/') = directory.takeWhile (· == '/') := by
    obtain ⟨rfl, hjoin⟩ | ⟨front, rfl, hjoin⟩ | ⟨hne, hlast, hjoin⟩ :=
      join_cases h.relative directory
    · rw [hjoin, hpath]
      rfl
    · rw [hjoin, List.takeWhile_append, List.takeWhile_append]
      simp [hpath]
    · -- the directory has more than slashes, so its slashes end in front of the path
      have hmore : (directory.takeWhile (· == '/')).length ≠ directory.length := by
        intro hall
        have hprefix : directory.takeWhile (· == '/') = directory :=
          (List.takeWhile_prefix _).eq_of_length hall
        obtain ⟨last, hmem⟩ := List.getLast?_isSome.mpr hne |> Option.isSome_iff_exists.mp
        have hslash : (last == '/') = true := by
          rw [← hprefix] at hmem
          exact List.all_eq_true.mp List.all_takeWhile last (List.mem_of_getLast? hmem)
        exact hlast (beq_iff_eq.mp hslash ▸ hmem)
      rw [hjoin, List.takeWhile_append, if_neg hmore]
  rw [rootOf_eq, rootOf_eq, hslashes]

/-- **Seen from a directory, an inner path leads below it.** -/
theorem Inner.resolved_join {path : List Char} (h : Inner path) (directory : List Char) :
    resolved (join directory path) = resolved directory ++ components path := by
  rw [resolved, h.rootOf_join, h.foldl_components_join, List.reverse_append, List.reverse_reverse]
  rfl

end ReviewGate.Path
