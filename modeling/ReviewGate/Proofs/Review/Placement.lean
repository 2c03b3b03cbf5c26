import ReviewGate.Proofs.Diff.Record
import ReviewGate.Proofs.Diff.RoundTrip
import ReviewGate.Proofs.Review.Comment

/-!
# `ReviewGate.Proofs.Review.Placement` — where comments land

A position in a patch counts the first header as one. The hub numbers the line below that header
one, so the header itself is number zero, and from there on both count alike. Hence the position
that a comment is posted with is the hub's number of the patch line below the one it is about.

## Contents
- `HubShows`: the hub's numbers of the lines of a patch; `hubShows_iff`: they are one less.
- `Finding.exists_of_inline?`: what a comment says about its finding.
- `comment_position_eq_succ`: the position of every comment.
- `comment_one_line_low`: a comment that lands on the line below its own.
-/

namespace ReviewGate

open Diff

/-! ## The hub's numbers -/

/-- At the hub's number `p`, the hunks show line `m` of the new file: so many patch lines stand
between the first header and that line, the header included. -/
def HubShows (hunks : List HunkSource) (p : Nat) (m : Int) : Prop :=
  ∃ before h after, hunks = before ++ h :: after ∧
    ∃ front l back, h.lines = front ++ l :: back ∧ l.kind.inNew = true ∧
      m = (h.newStart + newCount front : Nat) ∧
      p = (before.flatMap HunkSource.render ++
        h.header :: front.flatMap PatchLine.render).length

/-- **The hub's number is one less than the position.** -/
theorem hubShows_iff {hunks : List HunkSource} {p : Nat} {m : Int} :
    HubShows hunks p m ↔ Shows hunks (p + 1) m := by
  simp only [HubShows, Shows, Nat.add_right_cancel_iff]

/-- Hunks that are apart show a line at one position only. -/
theorem shows_unique {d : PatchSource} {i j : Nat} {m : Int} (hi : Shows d.hunks i m)
    (hj : Shows d.hunks j m) : i = j := by
  obtain ⟨s, hs, rfl, hsm⟩ := shows_iff.mp hi
  obtain ⟨t, ht, rfl, htm⟩ := shows_iff.mp hj
  have hline : s.line = t.line := Int.ofNat.inj (hsm.trans htm.symm)
  rw [List.inj_on_of_nodup_map (nodup_line_spotsOfHunks d.apart) hs ht hline]

/-! ## Comments -/

/-- A comment stands at the position of its finding's line, in the file of its finding. -/
theorem Finding.exists_of_inline? {files : List ChangedFile} {x : Finding} {c : InlineComment}
    (h : x.inline? files = some c) :
    ∃ f ∈ files, ∃ m, x.file.isText f.path = true ∧ x.line.lineNumber? = some m ∧
      f.positionOf? m = some c.position ∧ c.path = x.file := by
  obtain ⟨position, hposition, rfl⟩ := Option.map_eq_some_iff.mp h
  obtain ⟨f, hf, hposition⟩ := Option.bind_eq_some_iff.mp hposition
  obtain ⟨m, hm, hposition⟩ := Option.bind_eq_some_iff.mp hposition
  have hfind : files.find? (fun g => x.file.isText g.path) = some f := hf
  have hfile := List.find?_some hfind
  exact ⟨f, List.mem_of_find?_eq_some hfind, m, hfile, hm, hposition, rfl⟩

/-- The position of a line in a file is the one at which its patch shows it. -/
theorem positionOf?_eq_some_iff_shows {f : ChangedFile} {d : PatchSource}
    (hhunks : f.hunks = d.hunks.map HunkSource.hunk) {m : Int} {position : Nat} :
    f.positionOf? m = some position ↔ Shows d.hunks position m := by
  have hspots : f.spots = spotsOfHunks 1 (d.hunks.map HunkSource.hunk) := by
    rw [ChangedFile.spots, hhunks]
  rw [ChangedFile.positionOf?_eq_some (hspots ▸ nodup_line_spotsOfHunks d.apart), hspots,
    shows_iff]

/-- The comments of a review are those on the findings of its analysis. -/
theorem comments_ofAnalysis {a : Analysis} {files : List ChangedFile} {e : Enforcement}
    {review : Review} (h : Review.ofAnalysis a files e = .ok review) :
    review.comments = inlineComments files e.maxComments a.findings := by
  obtain ⟨body, _, h⟩ := bind_eq_ok.mp h
  rw [← Except.ok.inj h]

/-- **Every comment is posted one line too low.** Each comment of a review is about a line of a
file that its finding names, and if that file's patch is well-formed, then the comment's position
is by one more than the hub's number of the patch line that shows this line. -/
theorem comment_position_eq_succ {ignore records : List Document} {files : List ChangedFile}
    (hfiles : parseFiles ignore records = .ok files) {a : Analysis} {e : Enforcement}
    {review : Review} (hreview : Review.ofAnalysis a files e = .ok review) :
    ∀ c ∈ review.comments, ∃ x ∈ a.findings, ∃ f ∈ files, ∃ m,
      x.file.isText f.path = true ∧ c.path = x.file ∧ x.line.lineNumber? = some m ∧
      ∀ d : PatchSource, f.patch = d.text → ∀ p, HubShows d.hunks p m ↔ c.position = p + 1 := by
  intro c hc
  rw [comments_ofAnalysis hreview] at hc
  obtain ⟨x, hx, hinline⟩ := List.mem_filterMap.mp (List.mem_of_mem_take hc)
  obtain ⟨f, hf, m, hfile, hm, hposition, hpath⟩ := Finding.exists_of_inline? hinline
  refine ⟨x, hx, f, hf, m, hfile, hpath, hm, fun d hd p => ?_⟩
  have hhunks : f.hunks = d.hunks.map HunkSource.hunk := by
    have hpatch := parseHunks_patch_of_mem hfiles hf
    rw [hd, parseHunks_text] at hpatch
    exact (Except.ok.inj hpatch).symm
  have hshows := (positionOf?_eq_some_iff_shows hhunks).mp hposition
  rw [hubShows_iff]
  exact ⟨fun hp => shows_unique hshows hp, fun hp => hp ▸ hshows⟩

/-! ## A comment on an added line -/

/-- A patch that adds a line between two others. -/
def insertion : PatchSource where
  preamble := []
  hunks :=
    [{ oldStart := 4, newStart := 4, oldBrief := false, newBrief := false, heading := " def f():"
       lines :=
        [⟨.context, "top", false, by decide⟩, ⟨.added, "new", false, by decide⟩,
          ⟨.context, "end", false, by decide⟩]
       oneLine := by decide
       nonempty := nofun
       oldStart_readable := by decide
       oldCount_readable := by decide
       newStart_readable := by decide
       newCount_readable := by decide }]
  finalNewline := false
  oneLine := fun _ h => absurd h List.not_mem_nil
  noHeader := fun _ h => absurd h List.not_mem_nil
  apart := List.pairwise_singleton _ _

/-- The record of a file with this patch. -/
def insertionRecord : Document :=
  .ofFields [("filename", .text "a.py"), ("status", .text "modified"),
    ("patch", .text insertion.text)]

/-- The file. -/
def insertionFile : ChangedFile :=
  ⟨"a.py", .modified, insertion.hunks.map HunkSource.hunk, insertion.text⟩

theorem parseFiles_insertionRecord : parseFiles [] [insertionRecord] = .ok [insertionFile] :=
  eq_ok_of_toOption (by decide +kernel)

/-- A finding on the added line. -/
def insertionFinding : Finding :=
  ⟨.text "no-new", .warning, .text "a.py", .int 5, .text "New", .text "Nothing new.", .null, .null,
    .null, .null⟩

/-- The analysis with this finding. -/
def insertionAnalysis : Analysis := synthesize [insertionFinding] 6 ⟨0, 0⟩

theorem exists_ofAnalysis_insertion : ∃ review,
    Review.ofAnalysis insertionAnalysis [insertionFile] Enforcement.default = .ok review := by
  have htyped : ∀ x ∈ [insertionFinding], x.WellTyped :=
    List.forall_mem_singleton.mpr ⟨⟨_, rfl⟩, ⟨_, rfl⟩, Or.inl ⟨_, rfl⟩, ⟨_, rfl⟩, ⟨_, rfl⟩⟩
  obtain ⟨review, hreview, -⟩ :=
    exists_review_synthesize htyped (by decide +kernel) [insertionFile] .default 6 ⟨0, 0⟩
  exact ⟨review, hreview⟩

/-- The comment on the added line has position three. -/
theorem map_position_insertion : (inlineComments [insertionFile] Enforcement.default.maxComments
    insertionAnalysis.findings).map (·.position) = [3] := by
  cbv

theorem hubShows_insertion : HubShows insertion.hunks 2 5 :=
  ⟨[], _, [], rfl, [_], _, [_], rfl, rfl, rfl, rfl⟩

/-- The comment on the added line is posted with the position three, the hub's number of that line
being two. -/
theorem comment_position_eq_succ_sample :
    ∃ review, Review.ofAnalysis insertionAnalysis [insertionFile] Enforcement.default = .ok review ∧
      ∀ c ∈ review.comments, ∀ p, HubShows insertion.hunks p 5 ↔ c.position = p + 1 := by
  obtain ⟨review, hreview⟩ := exists_ofAnalysis_insertion
  refine ⟨review, hreview, fun c hc => ?_⟩
  obtain ⟨x, hx, f, hf, m, _, _, hm, h⟩ :=
    comment_position_eq_succ parseFiles_insertionRecord hreview c hc
  have hfindings : insertionAnalysis.findings = [insertionFinding] := by cbv
  have hx : x = insertionFinding := List.mem_singleton.mp (hfindings ▸ hx)
  have hm : m = 5 := by
    rw [hx] at hm
    exact (Option.some.inj hm).symm
  have hf : f = insertionFile := List.mem_singleton.mp hf
  exact hm ▸ h insertion (congrArg ChangedFile.patch hf)

/-- The comment on the added line, line 5, lands on line 6: its position is the hub's number of that
line, and not of the added one. -/
theorem comment_one_line_low :
    ∃ review, Review.ofAnalysis insertionAnalysis [insertionFile] Enforcement.default = .ok review ∧
      review.comments.map (·.position) = [3] ∧
      HubShows insertion.hunks 3 6 ∧ ¬ HubShows insertion.hunks 3 5 := by
  obtain ⟨review, hreview⟩ := exists_ofAnalysis_insertion
  refine ⟨review, hreview, ?_, ?_, fun h => ?_⟩
  · rw [comments_ofAnalysis hreview, map_position_insertion]
  · exact ⟨[], _, [], rfl, [_, _], _, [], rfl, rfl, rfl, rfl⟩
  · exact absurd (shows_unique (hubShows_iff.mp h) (hubShows_iff.mp hubShows_insertion)) (by decide)

end ReviewGate
