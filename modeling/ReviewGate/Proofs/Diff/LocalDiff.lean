import ReviewGate.Proofs.Diff.Displacement
import ReviewGate.Proofs.Diff.GitRoundTrip

/-!
# `ReviewGate.Proofs.Diff.LocalDiff` — one patch, in a git diff and on its own

The patch of a file arrives on its own, as the text of a record, or in a git diff. On its own it is
cut at newlines. In a git diff it is cut at line breaks of every kind, put together with newlines,
and cut at those. The two are the same if every break is a newline; a form feed, a return or another
break inside a line of the file makes two lines of one, the second of which has no mark and counts
as context.

So the git diff gives the record of the patch exactly if no line of the patch has a break. From any
git diff no changed line with a break is read, so a patch with one is never read as it is on its own.

## Contents
- `forall_mem_patch`, `onlyNewlines_patch`, `unbroken_changes`: what is read from any git diff.
- `LocalDiff`, `LocalDiff.text`, `LocalDiff.record`: a patch in a git diff, and on its own.
- `LocalDiff.readLines`, `LocalDiff.splitGitDiff_text`: the lines that are read.
- `changes`, `local_diff_read`: when both give the same; `local_diff_read_sample`,
  `form_feed_shifts_lines`: patches without and with a break.
-/

namespace ReviewGate.Diff

open Text

/-! ## What is read from any git diff -/

theorem patch_readMetadata {s t : Section} {line : String} (h : readMetadata s line = some t) :
    t.patch = s.patch := by
  unfold readMetadata at h
  dsimp only at h
  split_ifs at h <;> obtain rfl := Option.some.inj h <;> rfl

/-- A section has the patch lines that it had, and maybe the new one. -/
theorem patch_push (s : Section) (line : String) :
    (s.push line).patch = s.patch ∨ (s.push line).patch = line :: s.patch := by
  unfold Section.push
  split
  · next t hread =>
    split at hread
    · exact Or.inl (patch_readMetadata hread)
    · exact nomatch hread
  · exact Or.inr rfl

theorem patch_ofTitle {line : String} {s : Section} (h : Section.ofTitle line = some s) :
    s.patch = [] := by
  unfold Section.ofTitle at h
  split_ifs at h
  obtain rfl := Option.some.inj h
  rfl

/-- What holds of all lines holds of the patch lines of the sections. -/
theorem forall_mem_patch {P : String → Prop} {ls : List String} (hls : ∀ l ∈ ls, P l)
    {current : Option Section} (hcurrent : ∀ s ∈ current, ∀ l ∈ s.patch, P l) :
    ∀ s ∈ sectionsFrom current ls, ∀ l ∈ s.patch, P l := by
  induction ls generalizing current with
  | nil => exact fun s hs => hcurrent s (Option.mem_toList.mp hs)
  | cons line rest ih =>
      obtain ⟨hline, hrest⟩ := List.forall_mem_cons.mp hls
      rw [sectionsFrom]
      cases htitle : Section.ofTitle line with
      | some opened =>
          intro s hs
          rcases List.mem_append.mp hs with hold | hnew
          · exact hcurrent s (Option.mem_toList.mp hold)
          · refine ih hrest (fun t ht => ?_) s hnew
            rw [← Option.some.inj ht, patch_ofTitle htitle]
            exact fun l hl => absurd hl List.not_mem_nil
      | none =>
          refine ih hrest fun t ht => ?_
          obtain ⟨s, hs, rfl⟩ := Option.map_eq_some_iff.mp ht
          rcases patch_push s line with hsame | hmore
          · rw [hsame]
            exact hcurrent s hs
          · rw [hmore]
            exact List.forall_mem_cons.mpr ⟨hline, hcurrent s hs⟩

/-- **Every break in a patch from a git diff is a newline.** -/
theorem onlyNewlines_patch {diff : String} {record : Document} (h : record ∈ splitGitDiff diff) :
    ∃ patch, record.field "patch" = .ok (.text patch) ∧ OnlyNewlines patch := by
  obtain ⟨s, hs, rfl⟩ := List.mem_map.mp h
  have hlines : ∀ l ∈ s.patch.reverse, Unbroken l := fun l hl =>
    forall_mem_patch (fun _ hm => unbroken_of_mem_breakLines hm)
      (fun t ht => absurd ht (Option.not_mem_none t)) s hs l (List.mem_reverse.mp hl)
  exact ⟨joinLines s.patch.reverse, rfl,
    (onlyNewlines_joinLines fun l hl => (hlines l hl).newline_not_mem).mpr hlines⟩

/-! ## Changed lines -/

/-- The changed lines of the files of records, those added and those removed. -/
def changes (ignore records : List Document) :
    Except Fault (List (List ChangedLine × List ChangedLine)) := do
  return (← parseFiles ignore records).map fun f => (f.addedLines, f.removedLines)

/-- A changed line is a line below a header without its mark. -/
theorem exists_of_mem_changed {n : Nat} {ls : List String} {line : ChangedLine}
    (h : line ∈ addedFrom n ls ∨ line ∈ removedFrom n ls) : ∃ l ∈ ls, line.text = unmarked l := by
  induction ls generalizing n with
  | nil => exact absurd h (by simp [addedFrom, removedFrom])
  | cons l rest ih =>
      suffices hsplit : line.text = unmarked l ∨
          ∃ m, line ∈ addedFrom m rest ∨ line ∈ removedFrom m rest by
        rcases hsplit with hfirst | ⟨m, hrest⟩
        · exact ⟨l, List.mem_cons_self, hfirst⟩
        · obtain ⟨k, hk, htext⟩ := ih hrest
          exact ⟨k, List.mem_cons_of_mem _ hk, htext⟩
      rw [addedFrom, removedFrom] at h
      cases hmark : markerOf l with
      | added =>
          simp only [hmark, List.mem_cons] at h
          rcases h with (rfl | hadded) | hremoved
          · exact Or.inl rfl
          · exact Or.inr ⟨n + 1, Or.inl hadded⟩
          · exact Or.inr ⟨n, Or.inr hremoved⟩
      | removed =>
          simp only [hmark, List.mem_cons] at h
          rcases h with hadded | rfl | hremoved
          · exact Or.inr ⟨n, Or.inl hadded⟩
          · exact Or.inl rfl
          · exact Or.inr ⟨n + 1, Or.inr hremoved⟩
      | note =>
          simp only [hmark] at h
          exact Or.inr ⟨n, h⟩
      | context =>
          simp only [hmark] at h
          exact Or.inr ⟨n + 1, h⟩

/-- The lines of the hunks are lines of the patch, or empty. -/
theorem mem_lines_of_parseHunks {patch : String} {hunks : List Hunk}
    (h : parseHunks patch = .ok hunks) {hunk : Hunk} (hhunk : hunk ∈ hunks) {l : String}
    (hl : l ∈ hunk.lines) : l ∈ lines patch ∨ l = "" := by
  have hfront := patchLines_front patch
  obtain ⟨⟨body, read⟩, hgather, hread⟩ := bind_eq_ok.mp h
  obtain rfl := Except.ok.inj hread
  have hg := gathered_of_gather (fun k hk => newline_not_mem_of_mem_lines (hfront.subset hk)) hgather
  have hpadded : l ∈ padded (patchLines patch) := by
    rw [hg.padded]
    exact List.mem_append_right _
      (List.mem_flatMap.mpr ⟨hunk, hhunk, List.mem_cons_of_mem _ hl⟩)
  obtain ⟨i, hi⟩ := List.mem_iff_getElem?.mp hpadded
  rcases exists_of_getElem?_padded hi with ⟨k, hk, -⟩ | ⟨hempty, -⟩
  · exact Or.inl (hfront.subset (List.mem_of_getElem? hk))
  · exact Or.inr hempty

/-- **No changed line from a git diff has a break.** -/
theorem unbroken_changes {diff : String} {ignore : List Document}
    {found : List (List ChangedLine × List ChangedLine)}
    (hfound : changes ignore (splitGitDiff diff) = .ok found)
    {c : List ChangedLine × List ChangedLine} (hc : c ∈ found) {line : ChangedLine}
    (hline : line ∈ c.1 ++ c.2) : Unbroken line.text := by
  obtain ⟨files, hfiles, hmap⟩ := bind_eq_ok.mp hfound
  obtain rfl := Except.ok.inj hmap
  obtain ⟨f, hf, rfl⟩ := List.mem_map.mp hc
  obtain ⟨record, hrecord, hof⟩ := exists_isOf_of_mem hfiles hf
  obtain ⟨patch, hpatch, honly⟩ := onlyNewlines_patch hrecord
  obtain rfl : f.patch = patch := Document.text.inj (Except.ok.inj (hof.patch.symm.trans hpatch))
  obtain ⟨hunk, hhunk, hchanged⟩ : ∃ hunk ∈ f.hunks, line ∈ hunk.added ∨ line ∈ hunk.removed := by
    rcases List.mem_append.mp hline with hadded | hremoved
    · obtain ⟨hunk, hhunk, h⟩ := List.mem_flatMap.mp hadded
      exact ⟨hunk, hhunk, Or.inl h⟩
    · obtain ⟨hunk, hhunk, h⟩ := List.mem_flatMap.mp hremoved
      exact ⟨hunk, hhunk, Or.inr h⟩
  obtain ⟨l, hl, htext⟩ : ∃ l ∈ hunk.lines, line.text = unmarked l := by
    rcases hchanged with hadded | hremoved
    · exact exists_of_mem_changed (Or.inl hadded)
    · exact exists_of_mem_changed (Or.inr hremoved)
  have hunbroken : Unbroken l := by
    rcases mem_lines_of_parseHunks hof.hunks hhunk hl with hmem | rfl
    · exact honly.unbroken l hmem
    · decide
  intro c hc
  rw [htext, unmarked, String.toList_ofList] at hc
  exact hunbroken c (List.mem_of_mem_drop hc)

/-! ## One patch, twice -/

/-- A file in a git diff. The lines of its patch are those of the file behind their marks, whatever
the file has in them: only newlines are not. -/
structure LocalDiff where
  change : Change
  objects : Option LineText
  sides : Sides
  header : String
  below : List String
  headed : startsWith header "@@" = true
  marked : ∀ l ∈ below, ∃ mark ∈ patchMarks, startsWith l mark = true
  oneLine : ∀ l ∈ header :: below, '\n' ∉ l.toList

namespace LocalDiff

variable (d : LocalDiff)

/-- What stands in front of the patch. -/
def front : FileDiff where
  change := d.change
  objects := d.objects
  sides := d.sides
  patch := []
  unbroken := unbroken_nil
  marked := marked_nil
  headed := headed_nil

/-- The lines of the patch. -/
def lines : List String := d.header :: d.below

/-- The patch on its own. -/
def patch : String := joinLines d.lines

/-- The git diff. -/
def text : String := d.front.text ++ (d.patch ++ "\n")

/-- The record of the file with a patch. -/
def recordWith (patch : String) : Document :=
  .ofFields [("filename", .text d.change.path.text), ("status", .text d.change.status.name),
    ("patch", .text patch)]

/-- The record of the file and its patch, as it arrives without a git diff. -/
def record : Document := d.recordWith d.patch

/-- The lines of the patch as they are read in the git diff: each is cut at its breaks. -/
def readLines : List String := breakLines (d.patch ++ "\n")

/-! ### The lines that are read -/

theorem patch_append_newline : d.patch ++ "\n" = String.join (d.lines.map (· ++ "\n")) :=
  joinLines_append_newline (List.cons_ne_nil _ _)

theorem sections_text : sections d.text = sectionsFrom (some d.front.section) d.readLines := by
  have hfront : ∀ l ∈ d.front.lines, Unbroken l := fun _ hl => FileDiff.unbroken_of_mem_lines hl
  rw [sections, text, FileDiff.text, breakLines_join_ended_append hfront, sectionsFrom_lines,
    readLines, Option.toList_none, List.nil_append]

/-- The first line that is read is a header like that of the patch. -/
theorem head?_readLines : ∀ l ∈ d.readLines.head?, startsWith l "@@" = true := by
  obtain ⟨more, hheader⟩ := startsWith_iff_exists.mp d.headed
  obtain ⟨later, hpatch⟩ : ∃ later, d.patch ++ "\n" = "@@" ++ later := by
    rw [patch_append_newline, lines, List.map_cons, String.join_cons, hheader]
    exact ⟨more ++ "\n" ++ String.join (d.below.map (· ++ "\n")), by
      rw [String.append_assoc, String.append_assoc, String.append_assoc]⟩
  obtain ⟨rest, below, hread⟩ :=
    exists_breakLines_append (show Unbroken "@@" by decide) (by decide) later
  intro l hl
  rw [readLines, hpatch, hread] at hl
  obtain rfl := Option.some.inj hl
  exact startsWith_iff_exists.mpr ⟨rest, rfl⟩

/-- **The patch that is read has the lines that are read**, unless one of them is taken for the title
of another file. -/
theorem splitGitDiff_text (h : ∀ l ∈ d.readLines, Section.ofTitle l = none) :
    splitGitDiff d.text = [d.recordWith (joinLines d.readLines)] := by
  have hsection : sections d.text = [{ d.front.section with patch := d.readLines.reverse }] := by
    have hall := sectionsFrom_append h d.front.section []
    rw [List.append_nil] at hall
    rw [sections_text, hall, foldl_push_patch d.head?_readLines rfl]
    rfl
  rw [splitGitDiff, hsection, List.map_singleton, Section.record, List.reverse_reverse]
  rfl

theorem readLines_eq (h : ∀ l ∈ d.lines, Unbroken l) : d.readLines = d.lines := by
  rw [readLines, patch_append_newline, breakLines_join_ended h]

theorem ofTitle_of_mem_lines {l : String} (h : l ∈ d.lines) : Section.ofTitle l = none := by
  rcases List.mem_cons.mp h with rfl | hbelow
  · exact ofTitle_of_marked ⟨"@@", by decide, d.headed⟩
  · exact ofTitle_of_marked (d.marked l hbelow)

/-- **A git diff gives the record of the patch exactly if no line of the patch has a break.** -/
theorem splitGitDiff_text_iff :
    splitGitDiff d.text = [d.record] ↔ ∀ l ∈ d.lines, Unbroken l := by
  constructor
  · intro h
    have hmem : d.record ∈ splitGitDiff d.text := h ▸ List.mem_singleton_self _
    obtain ⟨patch, hpatch, honly⟩ := onlyNewlines_patch hmem
    obtain rfl : d.patch = patch := Document.text.inj (Except.ok.inj hpatch)
    exact (onlyNewlines_joinLines d.oneLine).mp honly
  · intro h
    have hlines := d.readLines_eq h
    rw [d.splitGitDiff_text fun l hl => d.ofTitle_of_mem_lines (hlines ▸ hl), hlines]
    rfl

end LocalDiff

/-- **A patch is read from a git diff as it is on its own if no line of it has a break.** That is
when the git diff gives the record of the patch. Else each line is cut at its breaks: the patch that
is read has the pieces for its lines, unless a piece looks like the title of another file. The
changed lines are not the same then if one of them has a break. -/
theorem local_diff_read (d : LocalDiff) (ignore : List Document) :
    (splitGitDiff d.text = [d.record] ↔ ∀ l ∈ d.lines, Unbroken l) ∧
    ((∀ l ∈ d.lines, Unbroken l) →
      changes ignore (splitGitDiff d.text) = changes ignore [d.record]) ∧
    ((∀ l ∈ d.readLines, Section.ofTitle l = none) →
      splitGitDiff d.text = [d.recordWith (joinLines d.readLines)]) ∧
    (changes ignore (splitGitDiff d.text) = changes ignore [d.record] →
      ∀ found, changes ignore [d.record] = .ok found → ∀ c ∈ found, ∀ line ∈ c.1 ++ c.2,
        Unbroken line.text) := by
  refine ⟨d.splitGitDiff_text_iff, fun h => ?_, d.splitGitDiff_text, ?_⟩
  · rw [d.splitGitDiff_text_iff.mpr h]
  · intro hsame found hfound c hc line hline
    exact unbroken_changes (hsame.trans hfound) hc hline

/-- A file without breaks in its lines. -/
def plainLines : LocalDiff where
  change := .modified none ⟨"f.py", by decide⟩
  objects := some ⟨"5c1bd10..0d7a6e2 100644", by decide⟩
  sides := .named
  header := "@@ -1 +1,3 @@"
  below := [" import os", "+", "+def f():"]
  headed := by decide
  marked := by decide
  oneLine := by decide

/-- A file in which a form feed stands between an import and a function. -/
def formFeed : LocalDiff :=
  { plainLines with
    below := [" import os", "+\x0c", "+def f():"]
    marked := by decide
    oneLine := by decide }

theorem readLines_formFeed :
    formFeed.readLines = ["@@ -1 +1,3 @@", " import os", "+", "", "+def f():"] := by
  decide +kernel

theorem untitled_formFeed : ∀ l ∈ formFeed.readLines, Section.ofTitle l = none := by
  rw [readLines_formFeed]
  decide

/-- Without breaks the git diff gives the record of the patch, with its changed lines. With the form
feed, a line of the patch is read as two. -/
theorem local_diff_read_sample :
    splitGitDiff plainLines.text = [plainLines.record] ∧
    changes [] (splitGitDiff plainLines.text) = changes [] [plainLines.record] ∧
    splitGitDiff formFeed.text = [formFeed.recordWith
      (joinLines ["@@ -1 +1,3 @@", " import os", "+", "", "+def f():"])] ∧
    ∀ line ∈ ([⟨2, ""⟩, ⟨3, "def f():"⟩] : List ChangedLine), Unbroken line.text := by
  have hlines : ∀ l ∈ plainLines.lines, Unbroken l := by decide
  have hfound : changes [] [plainLines.record] = .ok [([⟨2, ""⟩, ⟨3, "def f():"⟩], [])] :=
    eq_ok_of_toOption (by decide +kernel)
  obtain ⟨hrecord, hchanges, -, hunbroken⟩ := local_diff_read plainLines []
  obtain ⟨-, -, hcut, -⟩ := local_diff_read formFeed []
  have hsame := hchanges hlines
  refine ⟨hrecord.mpr hlines, hsame, readLines_formFeed ▸ hcut untitled_formFeed,
    fun line hline => ?_⟩
  exact hunbroken hsame _ hfound _ (List.mem_singleton_self _) line (List.mem_append_left _ hline)

/-- With the form feed, the function is on line 3 of the file, and on line 4 in the git diff. -/
theorem form_feed_shifts_lines :
    formFeed.text =
      "diff --git a/f.py b/f.py\nindex 5c1bd10..0d7a6e2 100644\n--- a/f.py\n+++ b/f.py\n" ++
      "@@ -1 +1,3 @@\n import os\n+\x0c\n+def f():\n" ∧
    (changes [] [formFeed.record]).toOption = some [([⟨2, "\x0c"⟩, ⟨3, "def f():"⟩], [])] ∧
    (changes [] (splitGitDiff formFeed.text)).toOption
      = some [([⟨2, ""⟩, ⟨4, "def f():"⟩], [])] := by
  refine ⟨by decide +kernel, by decide +kernel, ?_⟩
  rw [formFeed.splitGitDiff_text untitled_formFeed, readLines_formFeed]
  decide +kernel

end ReviewGate.Diff
