import ReviewGate.Diff.ChangedFile
import ReviewGate.Proofs.Sequence

/-!
# `ReviewGate.Proofs.Diff.Record` — files read from records

A record is read if its globs, its patch and its status can be. A glob fails only by standing for
too many texts, whatever path it is tried on; a patch fails only by a header number with too many
digits; a status that is a text or absent never fails. And a record gives exactly the file that is
what the record says (`ofRecord_eq_some_iff`).

## Contents
- `Glob.Bounded`, `Glob.Bounded.exists_matchesPath`: globs that can be tried.
- `HeaderDigits.Fits`, `exists_parseHunks`: patches that can be read.
- `IsRecord`, `exists_parseFiles`: records that can be read.
- `ChangedFile.IsOf`, `ofRecord_eq_some_iff`: the file of a record.
- `exists_isOf_of_mem`, `parseHunks_patch_of_mem`: the files of records, with the hunks of their
  patches.
-/

namespace ReviewGate

/-! ## Globs -/

/-- The glob stands for no more texts than are tried. -/
def Glob.Bounded (pattern : String) : Prop := (Glob.expand pattern.toList).isSome = true

instance (pattern : String) : Decidable (Glob.Bounded pattern) :=
  inferInstanceAs (Decidable ((Glob.expand pattern.toList).isSome = true))

namespace Glob.Bounded

variable {pattern : String}

theorem exists_matchesGlob (h : Glob.Bounded pattern) (path : String) :
    ∃ b, Glob.matchesGlob path pattern = .ok b := by
  obtain ⟨texts, htexts⟩ := Option.isSome_iff_exists.mp h
  exact ⟨_, by rw [Glob.matchesGlob, htexts]⟩

theorem exists_matchesPath (h : Glob.Bounded pattern) (path : String) :
    ∃ b, Glob.matchesPath path pattern = .ok b := by
  obtain ⟨b, hb⟩ := h.exists_matchesGlob path
  exact ⟨b, by rw [Glob.matchesPath, hb]⟩

theorem exists_matchesDocument (h : Glob.Bounded pattern) (path : String) :
    ∃ b, Glob.matchesDocument (.text path) (.text pattern) = .ok b := by
  obtain ⟨texts, htexts⟩ := Option.isSome_iff_exists.mp h
  obtain ⟨b, hb⟩ := h.exists_matchesGlob path
  exact ⟨b, by simp only [Glob.matchesDocument, htexts, hb]⟩

end Glob.Bounded

namespace Diff

open Number

theorem exists_coveredByAny (path : String) {globs : List String}
    (h : ∀ g ∈ globs, Glob.Bounded g) : ∃ b, coveredByAny (.text path) (globs.map .text) = .ok b := by
  induction globs with
  | nil => exact ⟨false, rfl⟩
  | cons g rest ih =>
      obtain ⟨c, hc⟩ := (h g (List.mem_cons_self ..)).exists_matchesDocument path
      obtain ⟨b, hb⟩ := ih fun k hk => h k (List.mem_cons_of_mem _ hk)
      rw [List.map_cons, coveredByAny, hc, hb]
      cases c with
      | true => exact ⟨true, rfl⟩
      | false => exact ⟨b, rfl⟩

theorem bounded_defaultIgnore : ∀ g ∈ defaultIgnore, Glob.Bounded g := by decide +kernel

theorem exists_isIgnored (path : String) {globs : List String} (h : ∀ g ∈ globs, Glob.Bounded g) :
    ∃ b, isIgnored (.text path) (globs.map .text) = .ok b := by
  rw [isIgnored, ← List.map_append]
  refine exists_coveredByAny path fun g hg => ?_
  rcases List.mem_append.mp hg with hdefault | hgiven
  · exact bounded_defaultIgnore g hdefault
  · exact h g hgiven

/-! ## Patches -/

/-- The numbers of a header have no more digits than are read. -/
structure HeaderDigits.Fits (ds : HeaderDigits) : Prop where
  oldStart : ds.oldStart.length ≤ maxIntDigits
  oldLines : ∀ n ∈ ds.oldLines, n.length ≤ maxIntDigits
  newStart : ds.newStart.length ≤ maxIntDigits
  newLines : ∀ n ∈ ds.newLines, n.length ≤ maxIntDigits

instance (ds : HeaderDigits) : Decidable ds.Fits :=
  decidable_of_iff
    (ds.oldStart.length ≤ maxIntDigits ∧ (∀ n ∈ ds.oldLines, n.length ≤ maxIntDigits) ∧
      ds.newStart.length ≤ maxIntDigits ∧ ∀ n ∈ ds.newLines, n.length ≤ maxIntDigits)
    ⟨fun ⟨a, b, c, d⟩ => ⟨a, b, c, d⟩, fun ⟨a, b, c, d⟩ => ⟨a, b, c, d⟩⟩

theorem headerNumber_of_length_le {ds : List Nat} (h : ds.length ≤ maxIntDigits) :
    headerNumber ds = .ok (ofDigits ds) :=
  if_neg (Nat.not_lt.mpr h)

theorem exists_headerCount {count : Option (List Nat)}
    (h : ∀ n ∈ count, n.length ≤ maxIntDigits) : ∃ n, headerCount count = .ok n := by
  cases count with
  | none => exact ⟨1, rfl⟩
  | some ds => exact ⟨_, headerNumber_of_length_le (h ds rfl)⟩

theorem HeaderDigits.Fits.exists_ofHeader {ds : HeaderDigits} (h : ds.Fits) (line : String)
    (body : List String) : ∃ hunk, Hunk.ofHeader line ds body = .ok hunk := by
  obtain ⟨oldLines, hold⟩ := exists_headerCount h.oldLines
  obtain ⟨newLines, hnew⟩ := exists_headerCount h.newLines
  rw [Hunk.ofHeader, headerNumber_of_length_le h.oldStart, hold,
    headerNumber_of_length_le h.newStart, hnew]
  exact ⟨_, rfl⟩

/-- Lines are gathered into hunks if the numbers of all headers among them can be read. -/
theorem exists_gather {ls : List String}
    (h : ∀ l ∈ ls, ∀ ds ∈ readHeader l, ds.Fits) : ∃ r, gather ls = .ok r := by
  induction ls with
  | nil => exact ⟨_, rfl⟩
  | cons l rest ih =>
      obtain ⟨⟨body, hunks⟩, hrest⟩ := ih fun k hk => h k (List.mem_cons_of_mem _ hk)
      rw [gather, hrest]
      cases hl : readHeader l with
      | none => exact ⟨_, rfl⟩
      | some ds =>
          obtain ⟨hunk, hhunk⟩ := (h l (List.mem_cons_self ..) ds hl).exists_ofHeader l body
          refine ⟨([], hunk :: hunks), ?_⟩
          show (do return ([], (← Hunk.ofHeader l ds body) :: hunks)) = _
          rw [hhunk]
          rfl

theorem exists_parseHunks {patch : String}
    (h : ∀ l ∈ patchLines patch, ∀ ds ∈ readHeader l, ds.Fits) :
    ∃ hunks, parseHunks patch = .ok hunks := by
  obtain ⟨r, hr⟩ := exists_gather h
  exact ⟨_, by rw [parseHunks, hr]; rfl⟩

/-! ## Records -/

theorem FileStatus.exists_ofDocument (s : Option String) :
    ∃ status, FileStatus.ofDocument (.ofText? s) = .ok status := by
  cases s with
  | none => exact ⟨.modified, rfl⟩
  | some t =>
      unfold FileStatus.ofDocument Document.ofText? Document.key?
      split <;> first | exact ⟨_, rfl⟩ | contradiction

/-- The name, status and patch of a record are texts or absent, and the numbers of the patch's
headers can be read. -/
structure IsRecord (record : Document) : Prop where
  fields : ∀ name ∈ ["filename", "status", "patch"], ∃ s : Option String,
    record.field name = .ok (.ofText? s)
  numbers : ∀ patch, record.field "patch" = .ok (.text patch) →
    ∀ l ∈ patchLines patch, ∀ ds ∈ readHeader l, ds.Fits

theorem exists_ofParts (path : String) {patch : String} (status : Option String)
    (h : ∀ l ∈ patchLines patch, ∀ ds ∈ readHeader l, ds.Fits) :
    ∃ f, ChangedFile.ofParts path (.text patch) (.ofText? status) = .ok f := by
  obtain ⟨hunks, hhunks⟩ := exists_parseHunks h
  obtain ⟨s, hs⟩ := FileStatus.exists_ofDocument status
  exact ⟨_, by rw [ChangedFile.ofParts, hhunks, ok_bind, hs]; rfl⟩

/-- A record is read if the globs can be tried. -/
theorem IsRecord.exists_ofRecord {record : Document} (h : IsRecord record) {ignore : List String}
    (hignore : ∀ g ∈ ignore, Glob.Bounded g) :
    ∃ f?, ChangedFile.ofRecord (ignore.map .text) record = .ok f? := by
  obtain ⟨path, hpath⟩ := h.fields "filename" (by decide)
  obtain ⟨status, hstatus⟩ := h.fields "status" (by decide)
  obtain ⟨patch, hpatch⟩ := h.fields "patch" (by decide)
  rw [ChangedFile.ofRecord, hpath, ok_bind, hpatch, ok_bind]
  cases path with
  | none => exact ⟨none, rfl⟩
  | some path =>
      obtain ⟨ignored, hignored⟩ := exists_isIgnored path hignore
      rw [Document.ofText?, hignored, ok_bind]
      -- a record without a name or a patch, and one that is ignored, gives no file
      split
      · exact ⟨none, rfl⟩
      split
      · exact ⟨none, rfl⟩
      cases patch with
      | none => exact ⟨none, rfl⟩
      | some patch =>
          split
          · exact ⟨none, rfl⟩
          obtain ⟨f, hf⟩ := exists_ofParts path status (h.numbers patch hpatch)
          refine ⟨some f, ?_⟩
          show (do return some (← ChangedFile.ofParts path (.text patch) (← record.field "status")))
            = _
          rw [hstatus, ok_bind, hf]
          rfl

/-- **Records are read** if the globs can be tried. -/
theorem exists_parseFiles {records : List Document} (h : ∀ r ∈ records, IsRecord r)
    {ignore : List String} (hignore : ∀ g ∈ ignore, Glob.Bounded g) :
    ∃ files, parseFiles (ignore.map .text) records = .ok files := by
  obtain ⟨found, hfound⟩ := exists_mapM_eq_ok fun r hr => (h r hr).exists_ofRecord hignore
  exact ⟨_, by rw [parseFiles, hfound]; rfl⟩

end Diff

/-! ## Files of records -/

open Diff

/-- The file is what the record says: it has the record's name and patch, neither of them empty, the
hunks of the patch and the status, and no glob ignores it. -/
structure Diff.ChangedFile.IsOf (f : ChangedFile) (ignore : List Document) (record : Document) :
    Prop where
  filename : record.field "filename" = .ok (.text f.path)
  patch : record.field "patch" = .ok (.text f.patch)
  status : ∃ d, record.field "status" = .ok d ∧ FileStatus.ofDocument d = .ok f.status
  path_ne_empty : f.path ≠ ""
  patch_ne_empty : f.patch ≠ ""
  kept : isIgnored (.text f.path) ignore = .ok false
  hunks : parseHunks f.patch = .ok f.hunks

theorem truthy_text_eq_true {s : String} : (Document.text s).truthy = true ↔ s ≠ "" :=
  bne_iff_ne

/-- The parts of a file make it up. -/
theorem ofParts_eq_ok {path : String} {patch status : Document} {f : ChangedFile} :
    ChangedFile.ofParts path patch status = .ok f ↔
      patch = .text f.patch ∧ path = f.path ∧ parseHunks f.patch = .ok f.hunks ∧
        FileStatus.ofDocument status = .ok f.status := by
  cases patch with
  | text patch =>
      unfold ChangedFile.ofParts
      constructor
      · intro h
        obtain ⟨hunks, hhunks, h⟩ := bind_eq_ok.mp h
        obtain ⟨read, hread, h⟩ := bind_eq_ok.mp h
        obtain rfl := Except.ok.inj h
        exact ⟨rfl, rfl, hhunks, hread⟩
      · rintro ⟨hpatch, rfl, hhunks, hstatus⟩
        obtain rfl := Document.text.inj hpatch
        simp only [hhunks, ok_bind, hstatus]
        rfl
  | _ => exact ⟨nofun, fun h => nomatch h.1⟩

/-- **A record gives exactly the file that is what it says.** -/
theorem ofRecord_eq_some_iff {ignore : List Document} {record : Document} {f : ChangedFile} :
    ChangedFile.ofRecord ignore record = .ok (some f) ↔ f.IsOf ignore record := by
  unfold ChangedFile.ofRecord
  constructor
  · intro h
    obtain ⟨path, hpath, h⟩ := bind_eq_ok.mp h
    obtain ⟨patch, hpatch, h⟩ := bind_eq_ok.mp h
    split at h
    · exact nomatch h
    next hname =>
    obtain ⟨ignored, hignored, h⟩ := bind_eq_ok.mp h
    split at h
    · exact nomatch h
    next hkept =>
    split at h
    · exact nomatch h
    next hsome =>
    cases path with
    | text path =>
        obtain ⟨status, hstatus, h⟩ := bind_eq_ok.mp h
        obtain ⟨g, hg, h⟩ := bind_eq_ok.mp h
        obtain rfl := Option.some.inj (Except.ok.inj h)
        obtain ⟨rfl, rfl, hhunks, hread⟩ := ofParts_eq_ok.mp hg
        exact ⟨hpath, hpatch, ⟨status, hstatus, hread⟩,
          truthy_text_eq_true.mp (by simpa using hname),
          truthy_text_eq_true.mp (by simpa using hsome), by simpa [hignored] using hkept, hhunks⟩
    | _ => exact nomatch h
  · intro h
    obtain ⟨status, hstatus, hread⟩ := h.status
    have hparts := ofParts_eq_ok.mpr ⟨rfl, rfl, h.hunks, hread⟩
    simp only [h.filename, h.patch, ok_bind, truthy_text_eq_true.mpr h.path_ne_empty, h.kept,
      truthy_text_eq_true.mpr h.patch_ne_empty, hstatus, hparts]
    rfl

/-- Every file of records is what one of them says. -/
theorem exists_isOf_of_mem {ignore records : List Document} {files : List ChangedFile}
    (hfiles : parseFiles ignore records = .ok files) {f : ChangedFile} (hf : f ∈ files) :
    ∃ record ∈ records, f.IsOf ignore record := by
  obtain ⟨read, hread, h⟩ := bind_eq_ok.mp hfiles
  rw [← Except.ok.inj h] at hf
  obtain ⟨f?, hmem, rfl⟩ := List.mem_filterMap.mp hf
  obtain ⟨record, hrecord, hof⟩ := exists_of_mapM_eq_ok hread hmem
  exact ⟨record, hrecord, ofRecord_eq_some_iff.mp hof⟩

/-- The hunks of a file are those of its patch. -/
theorem parseHunks_patch_of_mem {ignore records : List Document} {files : List ChangedFile}
    (hfiles : parseFiles ignore records = .ok files) {f : ChangedFile} (hf : f ∈ files) :
    parseHunks f.patch = .ok f.hunks := by
  obtain ⟨_, _, h⟩ := exists_isOf_of_mem hfiles hf
  exact h.hunks

end ReviewGate
