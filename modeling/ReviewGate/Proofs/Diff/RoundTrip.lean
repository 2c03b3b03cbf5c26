import ReviewGate.Proofs.Diff.Numbering

/-!
# `ReviewGate.Proofs.Diff.RoundTrip` — a written patch is read back

The lines of the text are the lines that were joined, and of these exactly the headers are headers.
So `gather` puts the lines in front aside, starts a hunk at each header and gives it the lines up to
the next one.

## Contents
- `gather_append`, `gather_render`: hunks from lines.
- `patchLines_text`, `parseHunks_text`: hunks from the text.
- `diff_round_trip`: hunks, changed lines and positions.
-/

namespace ReviewGate.Diff

open Text

/-! ## Hunks from lines -/

/-- Lines that are no headers belong to what is in front of the first header behind them. -/
theorem gather_append {front rest : List String} (hfront : ∀ l ∈ front, readHeader l = none)
    {body : List String} {hunks : List Hunk} (hrest : gather rest = .ok (body, hunks)) :
    gather (front ++ rest) = .ok (front ++ body, hunks) := by
  induction front with
  | nil => exact hrest
  | cons l front ih =>
      have hl : readHeader l = none := hfront l (List.mem_cons_self ..)
      rw [List.cons_append, gather, ih fun k hk => hfront k (List.mem_cons_of_mem _ hk), hl]
      rfl

theorem gather_of_noHeader {ls : List String} (h : ∀ l ∈ ls, readHeader l = none) :
    gather ls = .ok (ls, []) := by
  have hnil : gather [] = .ok ([], []) := rfl
  have happend := gather_append h hnil
  rw [List.append_nil] at happend
  exact happend

/-- **Each header starts its hunk.** -/
theorem gather_render (hs : List HunkSource) :
    gather (hs.flatMap HunkSource.render) = .ok ([], hs.map HunkSource.hunk) := by
  induction hs with
  | nil => rfl
  | cons h rest ih =>
      -- the lines below the header are gathered with the rest, in front of its first header
      have hbody := gather_append (fun l hl => readHeader_body (h := h) hl) ih
      rw [List.append_nil] at hbody
      rw [List.flatMap_cons, HunkSource.render, List.cons_append, gather, hbody,
        readHeader_header]
      show (do return ([], (← Hunk.ofHeader h.header h.digits h.body) :: _)) = _
      rw [ofHeader_header]
      rfl

/-! ## Lines of the text -/

variable (d : PatchSource)

/-- A newline at the end adds an empty line. -/
theorem lines_append_newline (s : String) : lines (s ++ "\n") = lines s ++ [""] := by
  have hsplit : (s ++ "\n").toList = s.toList ++ '\n' :: [] := by
    rw [String.toList_append]
    rfl
  rw [lines, hsplit, List.splitOn_append_cons_self, List.splitOn_nil, List.map_append]
  rfl

theorem mem_lines_of_mem_patchLines {s line : String} (h : line ∈ patchLines s) :
    line ∈ lines s := by
  change line ∈ (if (lines s).getLast? = some "" then (lines s).dropLast else lines s) at h
  split at h
  · exact List.dropLast_subset _ h
  · exact h

/-- A line of a hunk, the header or one below it, is not empty. -/
theorem ne_empty_of_mem_render {h : HunkSource} {line : String} (hline : line ∈ h.render) :
    line ≠ "" := by
  rintro rfl
  rcases List.mem_cons.mp hline with hheader | hbody
  · have hnone := readHeader_header h
    rw [← hheader] at hnone
    exact absurd hnone (by rw [show readHeader "" = none by decide]; nofun)
  · rcases mem_body hbody with ⟨l, hl⟩ | hnote
    · have htoList := l.toList_marked
      rw [← hl] at htoList
      exact absurd htoList (List.cons_ne_nil _ _).symm
    · exact absurd hnote (by decide)

theorem newline_not_mem_lines {line : String} (hline : line ∈ d.lines) : '\n' ∉ line.toList := by
  rcases List.mem_append.mp hline with hpre | hhunks
  · exact d.oneLine line hpre
  · obtain ⟨h, _, hmem⟩ := List.mem_flatMap.mp hhunks
    rcases List.mem_cons.mp hmem with rfl | hbody
    · exact newline_not_mem_header h
    · exact newline_not_mem_body hbody

/-- Without hunks, only lines from in front of the hunks and empty lines are there. -/
theorem mem_patchLines_text (hnil : d.hunks = []) {line : String}
    (hline : line ∈ patchLines d.text) : line ∈ d.preamble ∨ line = "" := by
  have hlines : d.lines = d.preamble := by
    rw [PatchSource.lines, hnil]
    exact List.append_nil _
  have hjoined : ∀ l ∈ lines (joinLines d.lines), l ∈ d.preamble ∨ l = "" := by
    intro l hl
    by_cases hne : d.lines = []
    · rw [hne] at hl
      exact Or.inr (List.mem_singleton.mp hl)
    · rw [lines_joinLines hne fun k hk => newline_not_mem_lines d hk, hlines] at hl
      exact Or.inl hl
  have htext : ∀ l ∈ lines d.text, l ∈ d.preamble ∨ l = "" := by
    intro l hl
    rw [PatchSource.text] at hl
    cases hend : d.finalNewline with
    | false =>
        rw [hend, if_neg Bool.false_ne_true, String.append_empty] at hl
        exact hjoined l hl
    | true =>
        rw [hend, if_pos rfl, lines_append_newline, List.mem_append] at hl
        rcases hl with hl | hl
        · exact hjoined l hl
        · exact Or.inr (List.mem_singleton.mp hl)
  exact htext line (mem_lines_of_mem_patchLines hline)

/-- With hunks, the lines of the text are the lines of the patch. -/
theorem patchLines_text (hne : d.hunks ≠ []) : patchLines d.text = d.lines := by
  have hmem : ∀ l ∈ d.hunks.flatMap HunkSource.render, l ≠ "" := by
    intro l hl
    obtain ⟨h, _, hh⟩ := List.mem_flatMap.mp hl
    exact ne_empty_of_mem_render hh
  have hhunks : d.hunks.flatMap HunkSource.render ≠ [] := by
    obtain ⟨h, rest, hsplit⟩ := List.exists_cons_of_ne_nil hne
    rw [hsplit, List.flatMap_cons]
    exact List.cons_ne_nil _ _
  -- the last line belongs to a hunk, so it is not taken for the end of the text
  have hlast : d.lines.getLast? ≠ some "" := by
    intro h
    rw [PatchSource.lines, List.getLast?_append_of_ne_nil _ hhunks] at h
    exact hmem "" (List.mem_of_getLast? h) rfl
  have hlines : lines (joinLines d.lines) = d.lines :=
    lines_joinLines (List.append_ne_nil_of_right_ne_nil _ hhunks) fun l hl =>
      newline_not_mem_lines d hl
  unfold patchLines PatchSource.text
  cases d.finalNewline with
  | false =>
      rw [if_neg Bool.false_ne_true, String.append_empty, hlines]
      exact if_neg hlast
  | true =>
      rw [if_pos rfl, lines_append_newline, hlines]
      show (if (d.lines ++ [""]).getLast? = some "" then (d.lines ++ [""]).dropLast else _) = _
      rw [if_pos List.getLast?_concat, List.dropLast_concat]

/-- **The hunks of a written patch are read back.** -/
theorem parseHunks_text : parseHunks d.text = .ok (d.hunks.map HunkSource.hunk) := by
  by_cases hnil : d.hunks = []
  · have hnone : ∀ l ∈ patchLines d.text, readHeader l = none := by
      intro l hl
      rcases mem_patchLines_text d hnil hl with hpre | rfl
      · exact d.noHeader l hpre
      · decide
    rw [parseHunks, gather_of_noHeader hnone, hnil]
    rfl
  · rw [parseHunks, patchLines_text d hnil, PatchSource.lines,
      gather_append d.noHeader (gather_render d.hunks)]
    rfl

/-! ## The round trip -/

/-- **Reading a patch undoes writing it.** The hunks are those that were written. For a file with
these hunks
* the changed lines are those that the hunks add and remove, with their numbers;
* a line of the new file has the position at which the hunks show it, and none if they do not. -/
theorem diff_round_trip :
    parseHunks d.text = .ok (d.hunks.map HunkSource.hunk) ∧
      ∀ f : ChangedFile, f.hunks = d.hunks.map HunkSource.hunk →
        f.addedLines = d.hunks.flatMap HunkSource.addedLines ∧
        f.removedLines = d.hunks.flatMap HunkSource.removedLines ∧
        ∀ files, fileAt? files (.text f.path) = some f → ∀ m : Int,
          (∀ i, lineToPosition files (.text f.path) (.int m) = some i ↔ Shows d.hunks i m) ∧
          (lineToPosition files (.text f.path) (.int m) = none ↔ ∀ i, ¬ Shows d.hunks i m) := by
  refine ⟨parseHunks_text d, fun f hf => ⟨?_, ?_, fun files hfile m => ?_⟩⟩
  · rw [ChangedFile.addedLines, hf, List.flatMap_map]
    refine List.flatMap_congr fun h _ => ?_
    rw [Hunk.added, h.lines_hunk]
    exact addedFrom_body h.newStart h.lines
  · rw [ChangedFile.removedLines, hf, List.flatMap_map]
    refine List.flatMap_congr fun h _ => ?_
    rw [Hunk.removed, h.lines_hunk]
    exact removedFrom_body h.oldStart h.lines
  · have hspots : f.spots = spotsOfHunks 1 (d.hunks.map HunkSource.hunk) := by
      rw [ChangedFile.spots, hf]
    have hnd : (f.spots.map (·.line)).Nodup := by
      rw [hspots]
      exact nodup_line_spotsOfHunks d.apart
    have hposition : lineToPosition files (.text f.path) (.int m) = f.positionOf? m := by
      rw [lineToPosition, hfile]
      rfl
    have hsome : ∀ i, lineToPosition files (.text f.path) (.int m) = some i ↔ Shows d.hunks i m := by
      intro i
      rw [hposition, ChangedFile.positionOf?_eq_some hnd, hspots, shows_iff]
    refine ⟨hsome, ?_⟩
    rw [Option.eq_none_iff_forall_ne_some]
    exact forall_congr' fun i => not_congr (hsome i)

/-- A patch whose added line looks like a header. -/
def samplePatch : PatchSource where
  preamble := ["diff --git a/f b/f"]
  hunks :=
    [{ oldStart := 1, newStart := 1, oldBrief := true, newBrief := true, heading := " f()"
       lines :=
        [⟨.context, "a", false, by decide⟩, ⟨.removed, "b", true, by decide⟩,
          ⟨.added, "@@ -9 +9 @@", false, by decide⟩]
       oneLine := by decide
       nonempty := nofun
       oldStart_readable := by decide
       oldCount_readable := by decide
       newStart_readable := by decide
       newCount_readable := by decide }]
  finalNewline := true
  oneLine := by decide
  noHeader := by decide
  apart := List.pairwise_singleton _ _

/-- The patch has one hunk, and its added line, the second of the new file, is the fifth. -/
theorem diff_round_trip_sample :
    ∃ hunk, parseHunks ("diff --git a/f b/f\n@@ -1,2 +1,2 @@ f()\n a\n-b\n" ++
        "\\ No newline at end of file\n+@@ -9 +9 @@\n") = .ok [hunk] ∧
      lineToPosition [⟨"f", .modified, [hunk], ""⟩] (.text "f") (.int 2) = some 5 := by
  obtain ⟨hparse, hfile⟩ := diff_round_trip samplePatch
  have htext : samplePatch.text = "diff --git a/f b/f\n@@ -1,2 +1,2 @@ f()\n a\n-b\n" ++
      "\\ No newline at end of file\n+@@ -9 +9 @@\n" := by decide +kernel
  rw [htext] at hparse
  refine ⟨_, hparse, ?_⟩
  refine ((((hfile ⟨"f", .modified, _, ""⟩ rfl).2.2 _ rfl 2).1 5).mpr ?_)
  exact ⟨[], _, [], rfl, [_, _], _, [], rfl, rfl, rfl, rfl⟩

end ReviewGate.Diff
