import Mathlib.Data.List.Nodup
import ReviewGate.Routing.Specialist

/-!
# `ReviewGate.Proofs.Routing.Specialist` — who sees which files

Files are routed in one pass, and each one is put into several buckets at once. The specialists for
a kind are distinct, so the turns over them put a file into a bucket once or not at all
(`bucket_foldl_place`). What one file adds to a bucket does not depend on the others, and so every
bucket is what is left of the changed files when those that are not for the specialist are taken out
(`bucket_route`).

## Contents
- `Specialist.mem_all`, `Specialist.ofName?_name`: the specialists and their names.
- `nodup_specialists`, `security_mem_specialists`: the specialists for a kind.
- `Routing.bucket_foldl_place`, `Routing.bucket_add`, `Routing.bucket_foldl_add`: a bucket after the
  turns for one file, after one file, and after all files; and the same for the generated files.
- `bucket_route`, `mem_bucket`, `nodup_bucket`: the files that a specialist sees.
- `files_routed_exactly`: what becomes of all files.
-/

namespace ReviewGate

open Diff

/-! ## Specialists -/

theorem Specialist.mem_all (s : Specialist) : s ∈ Specialist.all := by
  cases s <;> decide

theorem Specialist.ofName?_name (s : Specialist) : Specialist.ofName? s.name = some s := by
  cases s <;> rfl

theorem nodup_specialists (kind : FileKind) : kind.specialists.Nodup := by
  cases kind <;> decide

/-- Every kind of file goes to the specialist for security. -/
theorem security_mem_specialists (kind : FileKind) : .security ∈ kind.specialists := by
  cases kind <;> decide

/-! ## One file -/

theorem Routed.ofFile_file (f : ChangedFile) : (Routed.ofFile f).file = f := rfl

theorem Routed.ofFile_kind (f : ChangedFile) :
    (Routed.ofFile f).kind = classifyPath f.path := by
  simp only [Routed.ofFile]

namespace Routing

variable {s : Specialist}

theorem bucket_place_self (r : Routed) (routing : Routing) :
    (place r routing s).bucket s = routing.bucket s ++ [r] :=
  if_pos rfl

theorem bucket_place_of_ne {t : Specialist} (h : s ≠ t) (r : Routed) (routing : Routing) :
    (place r routing t).bucket s = routing.bucket s :=
  if_neg h

/-- **A file comes once into the bucket of a specialist for its kind, and into no other.** -/
theorem bucket_foldl_place {specialists : List Specialist} (hnodup : specialists.Nodup)
    (r : Routed) (routing : Routing) :
    (specialists.foldl (place r) routing).bucket s =
      routing.bucket s ++ if s ∈ specialists then [r] else [] := by
  induction specialists generalizing routing with
  | nil => exact (List.append_nil _).symm
  | cons t rest ih =>
      obtain ⟨hfresh, hrest⟩ := List.nodup_cons.mp hnodup
      rw [List.foldl_cons, ih hrest]
      by_cases hst : s = t
      -- the turn of the specialist is this one, and it does not come again
      · subst hst
        rw [bucket_place_self, if_neg hfresh, if_pos List.mem_cons_self, List.append_nil]
      · have hmem : s ∈ t :: rest ↔ s ∈ rest := List.mem_cons.trans (or_iff_right hst)
        simp only [bucket_place_of_ne hst, hmem]

theorem generated_foldl_place (specialists : List Specialist) (r : Routed) (routing : Routing) :
    (specialists.foldl (place r) routing).generated = routing.generated := by
  induction specialists generalizing routing with
  | nil => rfl
  | cons t rest ih =>
      rw [List.foldl_cons, ih]
      rfl

/-- **What one file adds to a bucket.** -/
theorem bucket_add (routing : Routing) (f : ChangedFile) :
    (routing.add f).bucket s =
      routing.bucket s ++
        if s ∈ (classifyPath f.path).specialists then [Routed.ofFile f] else [] := by
  have hplaced :=
    bucket_foldl_place (s := s) (nodup_specialists (Routed.ofFile f).kind) (Routed.ofFile f) routing
  rw [Routed.ofFile_kind] at hplaced
  rw [← hplaced, add, Routed.ofFile_kind]
  split <;> rfl

/-- What one file adds to the generated ones. -/
theorem generated_add (routing : Routing) (f : ChangedFile) :
    (routing.add f).generated =
      routing.generated ++ if classifyPath f.path = .generated then [Routed.ofFile f] else [] := by
  rw [add, Routed.ofFile_kind]
  by_cases hkind : classifyPath f.path = .generated
  · rw [if_pos (beq_iff_eq.mpr hkind), if_pos hkind, generated_foldl_place]
  · rw [if_neg (mt beq_iff_eq.mp hkind), if_neg hkind, generated_foldl_place, List.append_nil]

/-! ## All files -/

/-- A list that grows by what each element adds holds what was there and all that is added. -/
theorem eq_append_of_add (view : Routing → List Routed) {p : ChangedFile → Prop} [DecidablePred p]
    (hadd : ∀ routing f, view (routing.add f) = view routing ++ if p f then [Routed.ofFile f] else [])
    (files : List ChangedFile) (routing : Routing) :
    view (files.foldl add routing) =
      view routing ++ (files.filter fun f => p f).map Routed.ofFile := by
  induction files generalizing routing with
  | nil => exact (List.append_nil _).symm
  | cons f rest ih =>
      rw [List.foldl_cons, ih, hadd, List.append_assoc, List.filter_cons]
      by_cases hf : p f
      · rw [if_pos hf, if_pos (decide_eq_true hf)]
        rfl
      · rw [if_neg hf, if_neg (by rw [decide_eq_true_iff]; exact hf)]
        rfl

end Routing

/-- **The files that a specialist sees**, in their order and each as often as it was changed. -/
theorem bucket_route (files : List ChangedFile) (s : Specialist) :
    (route files).bucket s =
      (files.filter fun f => s ∈ (classifyPath f.path).specialists).map Routed.ofFile :=
  Routing.eq_append_of_add (·.bucket s) Routing.bucket_add files .empty

theorem generated_route (files : List ChangedFile) :
    (route files).generated =
      (files.filter fun f => classifyPath f.path = .generated).map Routed.ofFile :=
  Routing.eq_append_of_add (·.generated) Routing.generated_add files .empty

theorem mem_bucket {files : List ChangedFile} {s : Specialist} {r : Routed} :
    r ∈ (route files).bucket s ↔
      ∃ f ∈ files, r = Routed.ofFile f ∧ s ∈ (classifyPath f.path).specialists := by
  simp only [bucket_route, List.mem_map, List.mem_filter, decide_eq_true_iff]
  constructor
  · rintro ⟨f, ⟨hf, hs⟩, hr⟩
    exact ⟨f, hf, hr.symm, hs⟩
  · rintro ⟨f, hf, hr, hs⟩
    exact ⟨f, ⟨hf, hs⟩, hr.symm⟩

theorem file_mem_of_mem_bucket {files : List ChangedFile} {s : Specialist} {r : Routed}
    (h : r ∈ (route files).bucket s) : r.file ∈ files := by
  obtain ⟨f, hf, rfl, _⟩ := mem_bucket.mp h
  exact hf

/-- The files of a specialist are distinct if their paths are. -/
theorem nodup_bucket {files : List ChangedFile} (hpaths : (files.map (·.path)).Nodup)
    (s : Specialist) : ((route files).bucket s).Nodup := by
  rw [bucket_route]
  refine List.Nodup.of_map (fun r => r.file.path) ?_
  rw [List.map_map]
  exact (List.filter_sublist.map _).nodup hpaths

/-- **Routing loses no file and doubles none.** The bucket of each specialist holds exactly the
changed files of a kind that the specialist looks at, in their order and each as often as it was
changed, with its kind. So the specialist for security sees all files. The generated files are
collected in the same way. -/
theorem files_routed_exactly (files : List ChangedFile) :
    (∀ s, (route files).bucket s =
      (files.filter fun f => s ∈ (classifyPath f.path).specialists).map
        fun f => ⟨f, classifyPath f.path⟩) ∧
      ((route files).bucket .security = files.map fun f => ⟨f, classifyPath f.path⟩) ∧
      (route files).generated =
        (files.filter fun f => classifyPath f.path = .generated).map fun f => ⟨f, .generated⟩ := by
  refine ⟨bucket_route files, ?_, ?_⟩
  · have hall : (files.filter fun f => .security ∈ (classifyPath f.path).specialists) = files :=
      List.filter_eq_self.mpr fun f _ => decide_eq_true (security_mem_specialists _)
    rw [bucket_route, hall]
    rfl
  · rw [generated_route]
    refine List.map_congr_left fun f hf => ?_
    rw [Routed.ofFile, of_decide_eq_true (List.mem_filter.mp hf).2]

end ReviewGate
