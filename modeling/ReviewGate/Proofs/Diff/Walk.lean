import Mathlib.Data.List.Nodup
import ReviewGate.Diff.Position
import ReviewGate.Proofs.Diff.Record

/-!
# `ReviewGate.Proofs.Diff.Walk` — two walks over a patch agree

The added lines of a file and its diff positions come from two walks over the same hunks, each with
counters of its own. Neither looks at the counts of a header, and neither asks whether hunks overlap
or follow one another, so they agree on every patch that can be read. Below a header both counters
of the new file move with the same lines (`added_spotsFrom`). Positions only grow along the walk
(`pairwise_position_spots`), so no position is given twice, whatever the numbers in the headers are.

A line of the new file may be shown more than once, if hunks overlap. The first spot counts, for
each of the three questions that can be asked about a line: the table of all positions keeps the
first entry of a line (`mem_positions_iff`), as the search for one position does, and the text is
that of the same spot.

## Contents
- `Marker.shows`, `spotsFrom_cons`, `getElem?_of_mem_spotsFrom`: the spots below a header.
- `Spot.changedLine`, `ChangedFile.added_spots`: the added lines among the spots.
- `ChangedFile.pairwise_position_spots`: positions grow.
- `Spot.record`, `ChangedFile.sublist_positions`, `ChangedFile.mem_positions_iff`: the table.
- `Spot.source`, `ChangedFile.lineText_of_spotOf?`: the text of a line.
- `extractor_agrees_with_walk`: both walks, for every patch; `extractor_agrees_with_walk_sample`: a
  patch with overlapping hunks.
-/

namespace ReviewGate.Diff

open Text

/-! ## Spots below a header -/

/-- Does a patch line with the marker show a line of the new file? -/
def Marker.shows : Marker → Bool
  | .added | .context => true
  | .removed | .note => false

/-- Each line takes a position; those of the new file take a number as well. -/
theorem spotsFrom_cons (position n : Nat) (line : String) (rest : List String) :
    spotsFrom position n (line :: rest)
      = (if (markerOf line).shows then [⟨position, n, line⟩] else []) ++
        spotsFrom (position + 1) (n + if (markerOf line).shows then 1 else 0) rest := by
  rw [spotsFrom]
  cases markerOf line <;> rfl

theorem addedFrom_cons (n : Nat) (line : String) (rest : List String) :
    addedFrom n (line :: rest)
      = (if markerOf line = .added then [⟨n, unmarked line⟩] else []) ++
        addedFrom (n + if (markerOf line).shows then 1 else 0) rest := by
  rw [addedFrom]
  cases markerOf line <;> rfl

/-- A spot lies where its line lies among the lines below the header. -/
theorem getElem?_of_mem_spotsFrom {position n : Nat} {ls : List String} {s : Spot}
    (h : s ∈ spotsFrom position n ls) :
    ∃ i, ls[i]? = some s.text ∧ s.position = position + i ∧ (markerOf s.text).shows = true := by
  induction ls generalizing position n with
  | nil => exact absurd h List.not_mem_nil
  | cons line rest ih =>
      rw [spotsFrom_cons, List.mem_append] at h
      rcases h with hfirst | hrest
      · by_cases hshows : (markerOf line).shows = true
        · rw [if_pos hshows, List.mem_singleton] at hfirst
          subst hfirst
          exact ⟨0, rfl, rfl, hshows⟩
        · rw [if_neg hshows] at hfirst
          exact absurd hfirst List.not_mem_nil
      · obtain ⟨i, hline, hposition, hshows⟩ := ih hrest
        exact ⟨i + 1, hline, by omega, hshows⟩

/-! ## Added lines -/

/-- The line that a spot shows, without its mark. -/
def Spot.changedLine (s : Spot) : ChangedLine := ⟨s.line, unmarked s.text⟩

theorem startsWith_plus (line : String) : startsWith line "+" = true ↔ markerOf line = .added := by
  unfold startsWith markerOf
  show ['+'].isPrefixOf line.toList = true ↔ _
  split
  · next cs hline => simp [hline]
  · next cs hline => simp [hline]
  · next cs hline => simp [hline]
  · next hplus _ _ =>
      cases hline : line.toList with
      | nil => simp
      | cons c cs =>
          have hc : c ≠ '+' := fun h => hplus cs (h ▸ hline)
          simp [hc.symm]

/-- **Below a header, the added lines are the spots with a plus**, with the same numbers. -/
theorem added_spotsFrom (position n : Nat) (ls : List String) :
    ((spotsFrom position n ls).filter fun s => startsWith s.text "+").map Spot.changedLine
      = addedFrom n ls := by
  induction ls generalizing position n with
  | nil => rfl
  | cons line rest ih =>
      rw [spotsFrom_cons, addedFrom_cons, List.filter_append, List.map_append, ih]
      refine congrArg (· ++ _) ?_
      by_cases hadded : markerOf line = .added
      · have hplus : startsWith line "+" = true := (startsWith_plus line).mpr hadded
        simp [hadded, hplus, Marker.shows, Spot.changedLine]
      · have hplus : ¬ startsWith line "+" = true := mt (startsWith_plus line).mp hadded
        simp only [hadded, if_false]
        split <;> simp [hplus]

theorem added_spotsOfHunks (position : Nat) (hunks : List Hunk) :
    ((spotsOfHunks position hunks).filter fun s => startsWith s.text "+").map Spot.changedLine
      = hunks.flatMap Hunk.added := by
  induction hunks generalizing position with
  | nil => rfl
  | cons h rest ih =>
      rw [spotsOfHunks, List.filter_append, List.map_append, added_spotsFrom, ih, List.flatMap_cons,
        Hunk.added]

/-! ## Positions grow -/

theorem pairwise_position_spotsFrom (position n : Nat) (ls : List String) :
    (spotsFrom position n ls).Pairwise fun s t => s.position < t.position := by
  induction ls generalizing position n with
  | nil => exact List.Pairwise.nil
  | cons line rest ih =>
      rw [spotsFrom_cons, List.pairwise_append]
      refine ⟨?_, ih _ _, fun s hs t ht => ?_⟩
      · split
        · exact List.pairwise_singleton _ _
        · exact List.Pairwise.nil
      · obtain ⟨i, -, ht, -⟩ := getElem?_of_mem_spotsFrom ht
        split at hs
        · rw [List.mem_singleton.mp hs, ht]
          show position < position + 1 + i
          omega
        · exact absurd hs List.not_mem_nil

theorem lt_position_of_mem_spotsOfHunks {position : Nat} {hunks : List Hunk} {s : Spot}
    (h : s ∈ spotsOfHunks position hunks) : position < s.position := by
  induction hunks generalizing position with
  | nil => exact absurd h List.not_mem_nil
  | cons k rest ih =>
      rw [spotsOfHunks, List.mem_append] at h
      rcases h with hfirst | hrest
      · obtain ⟨i, -, hs, -⟩ := getElem?_of_mem_spotsFrom hfirst
        omega
      · exact Nat.lt_of_le_of_lt (by omega) (ih hrest)

theorem pairwise_position_spotsOfHunks (position : Nat) (hunks : List Hunk) :
    (spotsOfHunks position hunks).Pairwise fun s t => s.position < t.position := by
  induction hunks generalizing position with
  | nil => exact List.Pairwise.nil
  | cons h rest ih =>
      rw [spotsOfHunks, List.pairwise_append]
      refine ⟨pairwise_position_spotsFrom _ _ _, ih _, fun s hs t ht => ?_⟩
      -- the next header lies between the two
      obtain ⟨i, hline, hs, -⟩ := getElem?_of_mem_spotsFrom hs
      have hi : i < h.lines.length := (List.getElem?_eq_some_iff.mp hline).1
      have ht := lt_position_of_mem_spotsOfHunks ht
      omega

/-! ## The table of positions -/

/-- The table after one more spot; a line that is there already keeps its entry. -/
def Spot.record (found : List (Nat × Nat)) (s : Spot) : List (Nat × Nat) :=
  if found.any (·.1 == s.line) then found else found ++ [(s.line, s.position)]

theorem any_line_iff {found : List (Nat × Nat)} {n : Nat} :
    found.any (·.1 == n) = true ↔ n ∈ found.map (·.1) := by
  rw [List.any_eq_true, List.mem_map]
  exact exists_congr fun e => and_congr_right fun _ => beq_iff_eq

/-- The entries of a table are those that it began with and those of some of the spots, in order. -/
theorem exists_sublist_foldl_record (found : List (Nat × Nat)) (spots : List Spot) :
    ∃ more, spots.foldl Spot.record found = found ++ more ∧
      more.Sublist (spots.map fun s => (s.line, s.position)) := by
  induction spots generalizing found with
  | nil => exact ⟨[], (List.append_nil found).symm, List.Sublist.slnil⟩
  | cons s rest ih =>
      rw [List.foldl_cons, Spot.record, List.map_cons]
      split
      · obtain ⟨more, hmore, hsub⟩ := ih found
        exact ⟨more, hmore, hsub.cons _⟩
      · obtain ⟨more, hmore, hsub⟩ := ih (found ++ [(s.line, s.position)])
        refine ⟨(s.line, s.position) :: more, ?_, hsub.cons_cons _⟩
        rw [hmore, List.append_assoc, List.singleton_append]

/-- No line has two entries. -/
theorem nodup_line_foldl_record (found : List (Nat × Nat)) (h : (found.map (·.1)).Nodup)
    (spots : List Spot) : ((spots.foldl Spot.record found).map (·.1)).Nodup := by
  induction spots generalizing found with
  | nil => exact h
  | cons s rest ih =>
      rw [List.foldl_cons]
      refine ih _ ?_
      unfold Spot.record
      split
      · exact h
      · next hnew =>
        rw [List.map_append, List.map_singleton]
        exact List.Nodup.append h (List.nodup_singleton _)
          (List.disjoint_singleton.mpr (mt any_line_iff.mpr hnew))

/-- An entry was there before, or it is that of the first spot of a line without an entry. -/
theorem mem_foldl_record {found : List (Nat × Nat)} {spots : List Spot} {n position : Nat} :
    (n, position) ∈ spots.foldl Spot.record found ↔
      (n, position) ∈ found ∨ n ∉ found.map (·.1) ∧
        ∃ s, spots.find? (·.line == n) = some s ∧ s.position = position := by
  induction spots generalizing found with
  | nil => simp
  | cons s rest ih =>
      rw [List.foldl_cons, ih, List.find?_cons]
      by_cases hknown : s.line ∈ found.map (·.1)
      · -- the spot changes nothing, and a line without an entry is another one
        rw [Spot.record, if_pos (any_line_iff.mpr hknown)]
        refine or_congr_right (and_congr_right fun hn => ?_)
        have hne : (s.line == n) = false := beq_false_of_ne fun h => hn (h ▸ hknown)
        rw [hne]
      · rw [Spot.record, if_neg (mt any_line_iff.mp hknown), List.mem_append, List.map_append,
          List.mem_append, List.mem_singleton, Prod.mk.injEq, List.map_singleton,
          List.mem_singleton]
        by_cases hn : s.line = n
        · subst hn
          simp [hknown, eq_comm]
        · rw [beq_false_of_ne hn]
          simp [Ne.symm hn]

namespace ChangedFile

variable (f : ChangedFile)

/-- **The spots with a plus are the added lines of the file.** -/
theorem added_spots :
    (f.spots.filter fun s => startsWith s.text "+").map Spot.changedLine = f.addedLines :=
  added_spotsOfHunks 1 f.hunks

/-- **Positions grow along the walk.** -/
theorem pairwise_position_spots : f.spots.Pairwise fun s t => s.position < t.position :=
  pairwise_position_spotsOfHunks 1 f.hunks

theorem positions_eq : f.positions = f.spots.foldl Spot.record [] := rfl

/-- The table has a part of the spots, in their order. -/
theorem sublist_positions :
    f.positions.Sublist (f.spots.map fun s => (s.line, s.position)) := by
  obtain ⟨more, hmore, hsub⟩ := exists_sublist_foldl_record [] f.spots
  rw [positions_eq, hmore]
  exact hsub

theorem nodup_line_positions : (f.positions.map (·.1)).Nodup :=
  nodup_line_foldl_record [] List.nodup_nil f.spots

/-- **No position is that of two lines.** -/
theorem nodup_position_positions : (f.positions.map (·.2)).Nodup := by
  refine (f.sublist_positions.map (·.2)).nodup ?_
  rw [List.map_map]
  exact List.pairwise_map.mpr (f.pairwise_position_spots.imp Nat.ne_of_lt)

variable {f}

/-- **The entry of a line is that of its first spot.** -/
theorem mem_positions_iff {n position : Nat} :
    (n, position) ∈ f.positions ↔ ∃ s, f.spotOf? n = some s ∧ s.position = position := by
  have hfind : f.spotOf? n = f.spots.find? (·.line == n) := by
    unfold spotOf?
    refine congrArg (List.find? · f.spots) (funext fun s => ?_)
    rw [Bool.eq_iff_iff, beq_iff_eq, beq_iff_eq, Int.ofNat_inj]
  rw [hfind, positions_eq, mem_foldl_record]
  simp

/-- The first spot of a line has the line and its position. -/
theorem exists_spotOf?_of_positionOf? {n : Int} {position : Nat}
    (h : f.positionOf? n = some position) :
    ∃ s ∈ f.spots, f.spotOf? n = some s ∧ s.position = position ∧ (s.line : Int) = n := by
  obtain ⟨s, hs, hposition⟩ := Option.map_eq_some_iff.mp h
  have hfind : f.spots.find? (fun s => (s.line : Int) == n) = some s := hs
  have hline := List.find?_some hfind
  exact ⟨s, List.mem_of_find?_eq_some hfind, hs, hposition, beq_iff_eq.mp hline⟩

end ChangedFile

/-! ## The text of a line -/

/-- The text that a spot shows: the patch line behind the mark of an added line or of context, or
all of a patch line that has neither. -/
def Spot.source (s : Spot) : String :=
  match s.text.toList with
  | '+' :: cs => String.ofList cs
  | ' ' :: cs => String.ofList cs
  | _ => s.text

theorem ChangedFile.lineText_of_spotOf? {f : ChangedFile} {n : Int} {s : Spot}
    (h : f.spotOf? n = some s) : f.lineText n = s.source := by
  unfold lineText Spot.source unmarked startsWith
  rw [h]
  show (if (['+'].isPrefixOf s.text.toList || [' '].isPrefixOf s.text.toList) = true then _ else _)
    = _
  split
  · next hmark =>
    split
    · next cs hline => rw [hline]; rfl
    · next cs hline => rw [hline]; rfl
    · next hplus hblank =>
      -- a line with a mark is one of the first two kinds
      cases hline : s.text.toList with
      | nil => simp [hline] at hmark
      | cons c cs =>
          simp only [hline, List.isPrefixOf, Bool.and_true, Bool.or_eq_true, beq_iff_eq] at hmark
          rcases hmark with rfl | rfl
          · exact absurd hline (hplus cs)
          · exact absurd hline (hblank cs)
  · next hmark =>
    split
    · next cs hline => simp [hline] at hmark
    · next cs hline => simp [hline] at hmark
    · rfl

/-! ## Both walks -/

/-- The two walks over the hunks of a file agree. -/
structure ChangedFile.WalksAgree (f : ChangedFile) : Prop where
  /-- The spots with a plus are the added lines, with the same numbers and texts. -/
  added : (f.spots.filter fun s => startsWith s.text "+").map Spot.changedLine = f.addedLines
  line_once : (f.positions.map (·.1)).Nodup
  position_once : (f.positions.map (·.2)).Nodup
  /-- Asked for one line, the change answers with the entry of the table. -/
  lookup : ∀ files, fileAt? files (.text f.path) = some f → ∀ (n : Int) (position : Nat),
    lineToPosition files (.text f.path) (.int n) = some position ↔
      ∃ m : Nat, (m : Int) = n ∧ (m, position) ∈ f.positions
  /-- The text of a line is that of the patch line at its position. -/
  text : ∀ files, fileAt? files (.text f.path) = some f → ∀ (n : Int) (position : Nat),
    lineToPosition files (.text f.path) (.int n) = some position →
      ∃ s ∈ f.spots, s.position = position ∧ (s.line : Int) = n ∧ f.lineText n = s.source
  added_shown : ∀ line ∈ f.addedLines, ∃ position, (line.number, position) ∈ f.positions

/-- The walks agree whatever the hunks of the file are. -/
theorem ChangedFile.walksAgree (f : ChangedFile) : f.WalksAgree := by
  have hposition : ∀ files, fileAt? files (.text f.path) = some f → ∀ n : Int,
      lineToPosition files (.text f.path) (.int n) = f.positionOf? n := by
    intro files hfile n
    rw [lineToPosition, hfile]
    rfl
  refine ⟨f.added_spots, f.nodup_line_positions, f.nodup_position_positions, ?_, ?_, ?_⟩
  · intro files hfile n position
    rw [hposition files hfile]
    constructor
    · intro h
      obtain ⟨s, -, hs, hp, hline⟩ := exists_spotOf?_of_positionOf? h
      exact ⟨s.line, hline, mem_positions_iff.mpr ⟨s, hline ▸ hs, hp⟩⟩
    · rintro ⟨m, rfl, hentry⟩
      exact Option.map_eq_some_iff.mpr (mem_positions_iff.mp hentry)
  · intro files hfile n position h
    rw [hposition files hfile] at h
    obtain ⟨s, hmem, hs, hp, hline⟩ := exists_spotOf?_of_positionOf? h
    exact ⟨s, hmem, hp, hline, lineText_of_spotOf? hs⟩
  · intro line hline
    -- the line has a spot, so it has a first one
    rw [← f.added_spots] at hline
    obtain ⟨s, hs, rfl⟩ := List.mem_map.mp hline
    have hmem : s ∈ f.spots := (List.mem_filter.mp hs).1
    have hsome : (f.spotOf? s.line).isSome = true :=
      List.find?_isSome.mpr ⟨s, hmem, beq_self_eq_true _⟩
    obtain ⟨t, ht⟩ := Option.isSome_iff_exists.mp hsome
    exact ⟨t.position, mem_positions_iff.mpr ⟨t, ht, rfl⟩⟩

/-- **The extractor of added lines and the walk over positions agree on every patch.** A record with
a name that no glob ignores and a patch that is not empty, whose header numbers can be read, gives a
file. Its added lines are the spots with a plus; no line and no position is in its table of
positions twice; and a change in which it is the first file with its path has the table's entry as
the position of any line, with the text of the patch line that is there. So every added line has a
position. -/
theorem extractor_agrees_with_walk {ignore : List Document} {record : Document}
    {path patch : String} {status : Option String}
    (hfilename : record.field "filename" = .ok (.text path))
    (hstatus : record.field "status" = .ok (.ofText? status))
    (hpatch : record.field "patch" = .ok (.text patch))
    (hname : path ≠ "") (hkept : isIgnored (.text path) ignore = .ok false) (hsome : patch ≠ "")
    (hnumbers : ∀ l ∈ patchLines patch, ∀ ds ∈ readHeader l, ds.Fits) :
    ∃ f, parseFiles ignore [record] = .ok [f] ∧ f.path = path ∧ f.patch = patch ∧ f.WalksAgree := by
  obtain ⟨hunks, hhunks⟩ := exists_parseHunks hnumbers
  obtain ⟨s, hs⟩ := FileStatus.exists_ofDocument status
  have hof : ChangedFile.IsOf ⟨path, s, hunks, patch⟩ ignore record :=
    ⟨hfilename, hpatch, ⟨_, hstatus, hs⟩, hname, hsome, hkept, hhunks⟩
  refine ⟨⟨path, s, hunks, patch⟩, ?_, rfl, rfl, ChangedFile.walksAgree _⟩
  rw [parseFiles, List.mapM_cons, ofRecord_eq_some_iff.mpr hof]
  rfl

/-! ## Hunks that overlap -/

/-- A patch with a line that looks like a header, a hunk that shows a line again, and a hunk without
lines. -/
def overlapPatch : String :=
  "@@ -1,9 +3,9 @@\n a\n+b\n-c\n\\ No newline at end of file\n@@ f @@\n@@ -1 +4 @@\n+d\n@@ -7 +9 @@"

/-- The record of a file with this patch. -/
def overlapRecord : Document :=
  .ofFields [("filename", .text "a.py"), ("patch", .text overlapPatch)]

/-- Line 4 is added twice, and its position is that of the first time. -/
theorem extractor_agrees_with_walk_sample :
    ∃ f, parseFiles [] [overlapRecord] = .ok [f] ∧ f.WalksAgree ∧
      f.addedLines = [⟨4, "b"⟩, ⟨4, "d"⟩] ∧
      f.positions = [(3, 2), (4, 3), (5, 6), (9, 10)] := by
  have hkept : isIgnored (.text "a.py") [] = .ok false := eq_ok_of_toOption (by decide +kernel)
  have hfilename : overlapRecord.field "filename" = .ok (.text "a.py") := rfl
  have hstatus : overlapRecord.field "status" = .ok (.ofText? none) := rfl
  have hpatch : overlapRecord.field "patch" = .ok (.text overlapPatch) := rfl
  obtain ⟨f, hfiles, -, -, hagree⟩ := extractor_agrees_with_walk hfilename hstatus hpatch
    (by decide) hkept (by decide) (by decide +kernel)
  have hread : (parseFiles [] [overlapRecord]).toOption.map (·.map fun f =>
      (f.addedLines, f.positions))
      = some [([⟨4, "b"⟩, ⟨4, "d"⟩], [(3, 2), (4, 3), (5, 6), (9, 10)])] := by decide +kernel
  rw [hfiles] at hread
  obtain ⟨hadded, hpositions⟩ := Prod.mk.inj (List.cons.inj (Option.some.inj hread)).1
  exact ⟨f, hfiles, hagree, hadded, hpositions⟩

end ReviewGate.Diff
