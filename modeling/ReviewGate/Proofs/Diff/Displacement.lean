import Mathlib.Data.List.Infix
import ReviewGate.Proofs.Diff.RoundTrip
import ReviewGate.Proofs.Diff.Walk
import ReviewGate.Proofs.Text.Lines

/-!
# `ReviewGate.Proofs.Diff.Displacement` — positions and lines of the patch

A position is meant to be the number of a patch line. The walk counts the lines below a header from
the text of the hunk, and a hunk with no lines has the empty text, which is one empty line. So below
a header that is bare, one that another header or the end of the patch follows at once, the walk
counts a line that the patch does not have, and every later position is one too large. `padded` is
the patch as the walk sees it, with an empty line below each bare header. Positions are line numbers
of that text, and each bare header displaces the lines of the patch that come after it.

## Contents
- `isBare`, `padded`, `bareBefore`, `EveryHeaderHasLines`: headers with nothing below them.
- `padded_eq_self`, `exists_of_getElem?_padded`: the lines of the patch in the padded text.
- `Gathered`, `gathered_of_gather`, `padded_patchLines`: the hunks make up the padded text.
- `getElem?_of_mem_spotsOfHunks`, `exists_getElem?_padded`: positions are line numbers of it.
- `ShownAt`, `position_eq_line_add_bare`: positions are line numbers, up to the bare headers;
  `position_eq_line_add_bare_sample`, `position_ne_line`: patches without and with one.
-/

namespace ReviewGate.Diff

open Text

/-! ## Headers with nothing below them -/

/-- Is there no line before the first header? -/
def headerFirst (ls : List String) : Bool := ls.head?.all fun l => (readHeader l).isSome

/-- Is the line a header, with no line before the next one? -/
def isBare (line : String) (rest : List String) : Bool :=
  (readHeader line).isSome && headerFirst rest

/-- The lines with an empty line below each bare header. -/
def padded : List String → List String
  | [] => []
  | line :: rest => if isBare line rest then line :: "" :: padded rest else line :: padded rest

theorem padded_cons (line : String) (rest : List String) :
    padded (line :: rest)
      = if isBare line rest then line :: "" :: padded rest else line :: padded rest := rfl

/-- How many of the first lines are bare headers. -/
def bareBefore : Nat → List String → Nat
  | n + 1, line :: rest => (if isBare line rest then 1 else 0) + bareBefore n rest
  | _, _ => 0

/-- Below each header is a line that is no header. -/
def EveryHeaderHasLines (ls : List String) : Prop :=
  ∀ line rest, line :: rest <:+ ls → isBare line rest = false

instance (ls : List String) : Decidable (EveryHeaderHasLines ls) :=
  decidable_of_iff (∀ t ∈ ls.tails, ∀ line ∈ t.head?, isBare line t.tail = false)
    ⟨fun h line rest hrest => h (line :: rest) ((List.mem_tails _ _).mpr hrest) line rfl,
      fun h t ht line hline => by
        obtain ⟨rest, rfl⟩ := List.head?_eq_some_iff.mp hline
        exact h line rest ((List.mem_tails _ _).mp ht)⟩

theorem padded_eq_self {ls : List String} (h : EveryHeaderHasLines ls) : padded ls = ls := by
  induction ls with
  | nil => rfl
  | cons line rest ih =>
      have hrest : EveryHeaderHasLines rest := fun l r hr =>
        h l r (hr.trans (List.suffix_cons line rest))
      rw [padded_cons, h line rest List.suffix_rfl, ih hrest]
      rfl

/-- **A line of the padded text is a line displaced by the bare headers before it**, or the empty
line below a bare header. -/
theorem exists_of_getElem?_padded {ls : List String} {i : Nat} {text : String}
    (h : (padded ls)[i]? = some text) :
    (∃ k, ls[k]? = some text ∧ i = k + bareBefore k ls) ∨
      text = "" ∧ ∃ k, bareBefore (k + 1) ls = bareBefore k ls + 1 ∧ i = k + bareBefore (k + 1) ls := by
  induction ls generalizing i with
  | nil => exact nomatch h
  | cons line rest ih =>
      by_cases hbare : isBare line rest = true
      · rw [padded_cons, if_pos hbare] at h
        have hshift : ∀ k, bareBefore (k + 1) (line :: rest) = 1 + bareBefore k rest := fun k => by
          rw [bareBefore, if_pos hbare]
        match i, h with
        | 0, h => exact Or.inl ⟨0, h, rfl⟩
        | 1, h =>
            refine Or.inr ⟨(Option.some.inj h).symm, 0, ?_, ?_⟩ <;> simp [bareBefore, hbare]
        | i + 2, h =>
            rcases ih h with ⟨k, hk, hi⟩ | ⟨hempty, k, hstep, hi⟩
            · exact Or.inl ⟨k + 1, hk, by rw [hshift]; omega⟩
            · exact Or.inr ⟨hempty, k + 1, by rw [hshift, hshift]; omega, by rw [hshift]; omega⟩
      · rw [padded_cons, if_neg hbare] at h
        have hshift : ∀ k, bareBefore (k + 1) (line :: rest) = bareBefore k rest := fun k => by
          rw [bareBefore, if_neg hbare, Nat.zero_add]
        match i, h with
        | 0, h => exact Or.inl ⟨0, h, rfl⟩
        | i + 1, h =>
            rcases ih h with ⟨k, hk, hi⟩ | ⟨hempty, k, hstep, hi⟩
            · exact Or.inl ⟨k + 1, hk, by rw [hshift]; omega⟩
            · exact Or.inr ⟨hempty, k + 1, by rw [hshift, hshift]; omega, by rw [hshift]; omega⟩

/-! ## The hunks make up the padded text -/

/-- A hunk as the walk sees it. -/
def Hunk.walked (h : Hunk) : List String := h.header :: h.lines

/-- The hunk of a header line has the lines below it, or one empty line. -/
theorem lines_ofHeader {line : String} {ds : HeaderDigits} {body : List String} {h : Hunk}
    (hh : Hunk.ofHeader line ds body = .ok h) (hlines : ∀ l ∈ body, '\n' ∉ l.toList) :
    h.header = line ∧ h.lines = if body = [] then [""] else body := by
  unfold Hunk.ofHeader at hh
  obtain ⟨_, -, hh⟩ := bind_eq_ok.mp hh
  obtain ⟨_, -, hh⟩ := bind_eq_ok.mp hh
  obtain ⟨_, -, hh⟩ := bind_eq_ok.mp hh
  obtain ⟨_, -, hh⟩ := bind_eq_ok.mp hh
  obtain rfl := Except.ok.inj hh
  refine ⟨rfl, ?_⟩
  show lines (joinLines body) = _
  split
  · next hnil => subst hnil; rfl
  · next hne => exact lines_joinLines hne hlines

/-- The lines before the first header and the hunks are those of the lines. -/
structure Gathered (ls body : List String) (hunks : List Hunk) : Prop where
  padded : padded ls = body ++ hunks.flatMap Hunk.walked
  body_front : body <+: ls
  body_eq_nil : body = [] ↔ headerFirst ls = true
  body_noHeader : ∀ l ∈ body, readHeader l = none
  lines_noHeader : ∀ h ∈ hunks, ∀ l ∈ h.lines, readHeader l = none

/-- **What is gathered makes up the padded text**, and no line below a header is a header. -/
theorem gathered_of_gather {ls : List String} (hls : ∀ l ∈ ls, '\n' ∉ l.toList) {body : List String}
    {hunks : List Hunk} (h : gather ls = .ok (body, hunks)) : Gathered ls body hunks := by
  induction ls generalizing body hunks with
  | nil =>
      obtain ⟨rfl, rfl⟩ := Prod.mk.inj (Except.ok.inj h)
      exact ⟨rfl, List.prefix_rfl, by decide, nofun, nofun⟩
  | cons line rest ih =>
      rw [gather] at h
      obtain ⟨⟨below, later⟩, hrest, h⟩ := bind_eq_ok.mp h
      have hg := ih (fun l hl => hls l (List.mem_cons_of_mem _ hl)) hrest
      cases hline : readHeader line with
      | none =>
          rw [hline] at h
          obtain ⟨rfl, rfl⟩ := Prod.mk.inj (Except.ok.inj h)
          refine ⟨?_, List.cons_prefix_cons.mpr ⟨rfl, hg.body_front⟩, ?_,
            List.forall_mem_cons.mpr ⟨hline, hg.body_noHeader⟩, hg.lines_noHeader⟩
          · rw [padded_cons, if_neg (by simp [isBare, hline]), hg.padded, List.cons_append]
          · simp [headerFirst, hline]
      | some ds =>
          rw [hline] at h
          obtain ⟨hunk, hhunk, h⟩ := bind_eq_ok.mp h
          obtain ⟨rfl, rfl⟩ := Prod.mk.inj (Except.ok.inj h)
          obtain ⟨hheader, hlines⟩ := lines_ofHeader hhunk fun l hl =>
            hls l (List.mem_cons_of_mem _ (hg.body_front.subset hl))
          have hnone : ∀ l ∈ hunk.lines, readHeader l = none := by
            intro l hl
            rw [hlines] at hl
            split at hl
            · rw [List.mem_singleton.mp hl]
              decide
            · exact hg.body_noHeader l hl
          refine ⟨?_, List.nil_prefix, by simp [headerFirst, hline], nofun,
            List.forall_mem_cons.mpr ⟨hnone, hg.lines_noHeader⟩⟩
          -- the header is bare exactly if nothing was gathered below it
          have hbare : isBare line rest = true ↔ below = [] := by
            rw [isBare, hline, hg.body_eq_nil]
            rfl
          rw [padded_cons, List.flatMap_cons, Hunk.walked, hheader, hlines, hg.padded]
          by_cases hnil : below = []
          · rw [if_pos (hbare.mpr hnil), if_pos hnil, hnil]
            rfl
          · rw [if_neg (mt hbare.mp hnil), if_neg hnil]
            rfl

/-- One more empty line at the end changes nothing before it: it is below a bare header, or it
comes last. -/
theorem padded_append_empty (ls : List String) : padded ls <+: padded (ls ++ [""]) := by
  induction ls with
  | nil => exact List.nil_prefix
  | cons line rest ih =>
      cases rest with
      | nil =>
          have hempty : isBare line [""] = false := by
            rw [isBare, show headerFirst [""] = false from by decide, Bool.and_false]
          rw [List.singleton_append, padded_cons line [], padded_cons line [""], hempty]
          split
          · exact List.prefix_rfl
          · exact ⟨[""], rfl⟩
      | cons next later =>
          have hsame : isBare line (next :: later ++ [""]) = isBare line (next :: later) := rfl
          rw [List.cons_append, padded_cons line, padded_cons line, hsame]
          split
          · exact List.cons_prefix_cons.mpr ⟨rfl, List.cons_prefix_cons.mpr ⟨rfl, ih⟩⟩
          · exact List.cons_prefix_cons.mpr ⟨rfl, ih⟩

theorem padded_patchLines (patch : String) :
    padded (patchLines patch) <+: padded (lines patch) := by
  show padded (if (lines patch).getLast? = some "" then (lines patch).dropLast else lines patch)
    <+: _
  split
  · next hlast =>
    obtain ⟨front, hfront⟩ := List.getLast?_eq_some_iff.mp hlast
    rw [hfront, List.dropLast_concat]
    exact padded_append_empty front
  · exact List.prefix_rfl

/-! ## Positions -/

/-- A position is a line number of the hunks. -/
theorem getElem?_of_mem_spotsOfHunks {position : Nat} {hunks : List Hunk} {s : Spot}
    (h : s ∈ spotsOfHunks position hunks) :
    ∃ i, (hunks.flatMap Hunk.walked)[i]? = some s.text ∧ s.position = position + i ∧
      (markerOf s.text).shows = true ∧ ∃ k ∈ hunks, s.text ∈ k.lines := by
  induction hunks generalizing position with
  | nil => exact absurd h List.not_mem_nil
  | cons k rest ih =>
      rw [spotsOfHunks, List.mem_append] at h
      rw [List.flatMap_cons, Hunk.walked]
      rcases h with hfirst | hrest
      · obtain ⟨i, hline, hposition, hshows⟩ := getElem?_of_mem_spotsFrom hfirst
        refine ⟨i + 1, ?_, by omega, hshows, k, List.mem_cons_self, List.mem_of_getElem? hline⟩
        rw [List.cons_append, List.getElem?_cons_succ, List.getElem?_append_left]
        · exact hline
        · exact (List.getElem?_eq_some_iff.mp hline).1
      · obtain ⟨i, hline, hposition, hshows, j, hj, hmem⟩ := ih hrest
        refine ⟨k.lines.length + i + 1, ?_, by omega, hshows, j, List.mem_cons_of_mem _ hj, hmem⟩
        rw [List.cons_append, List.getElem?_cons_succ, List.getElem?_append_right (by omega),
          Nat.add_sub_cancel_left]
        exact hline

theorem headerFirst_front {ls more : List String} (h : ls <+: more)
    (hmore : headerFirst more = true) : headerFirst ls = true := by
  obtain ⟨rest, rfl⟩ := h
  cases ls with
  | nil => rfl
  | cons line rest => exact hmore

theorem patchLines_front (patch : String) : patchLines patch <+: lines patch := by
  show (if (lines patch).getLast? = some "" then (lines patch).dropLast else lines patch) <+: _
  split
  · exact List.dropLast_prefix _
  · exact List.prefix_rfl

/-- The text is at the position: it is a line displaced by the bare headers before it, or the empty
line that the walk finds below a bare header. -/
def ShownAt (ls : List String) (position : Nat) (text : String) : Prop :=
  (∃ k, ls[k]? = some text ∧ position = k + 1 + bareBefore k ls) ∨
    text = "" ∧ ∃ k, bareBefore (k + 1) ls = bareBefore k ls + 1 ∧
      position = k + 1 + bareBefore (k + 1) ls

/-- Where the walk over a file shows a line of the new file. -/
theorem exists_getElem?_padded {f : ChangedFile} (hhunks : parseHunks f.patch = .ok f.hunks)
    (hfirst : headerFirst (lines f.patch) = true) {s : Spot} (hs : s ∈ f.spots) :
    ∃ i, (padded (lines f.patch))[i]? = some s.text ∧ s.position = i + 1 ∧
      readHeader s.text = none ∧ (markerOf s.text).shows = true := by
  obtain ⟨⟨body, hunks⟩, hgather, hread⟩ := bind_eq_ok.mp hhunks
  obtain rfl := Except.ok.inj hread
  have hfront := patchLines_front f.patch
  have hg := gathered_of_gather (fun l hl => newline_not_mem_of_mem_lines (hfront.subset hl)) hgather
  have hbody : body = [] := hg.body_eq_nil.mpr (headerFirst_front hfront hfirst)
  obtain ⟨i, hline, hposition, hshows, k, hk, hmem⟩ := getElem?_of_mem_spotsOfHunks hs
  refine ⟨i, ?_, by omega, hg.lines_noHeader k hk _ hmem, hshows⟩
  -- the hunks are all of the padded patch, less a last empty line
  obtain ⟨more, hmore⟩ := padded_patchLines f.patch
  rw [← hmore, hg.padded, hbody, List.nil_append,
    List.getElem?_append_left (List.getElem?_eq_some_iff.mp hline).1]
  exact hline

/-- **A position is the number of a patch line, plus the number of bare headers before it.** Let the
first line of a file's patch be a header. Then an entry of the table of positions is the first spot
of its line, which is no header and neither a removed line nor a note, and it lies at its place among
the lines of the patch, displaced by one for each bare header before it. If no header is bare, the
position is the number of the line. -/
theorem position_eq_line_add_bare {ignore records : List Document} {files : List ChangedFile}
    (hfiles : parseFiles ignore records = .ok files) {f : ChangedFile} (hf : f ∈ files)
    (hfirst : headerFirst (lines f.patch) = true) {n position : Nat}
    (hentry : (n, position) ∈ f.positions) :
    ∃ s, f.spotOf? n = some s ∧ s.position = position ∧ readHeader s.text = none ∧
      (markerOf s.text).shows = true ∧ ShownAt (lines f.patch) position s.text ∧
      (EveryHeaderHasLines (lines f.patch) →
        ∃ k, (lines f.patch)[k]? = some s.text ∧ position = k + 1) := by
  obtain ⟨s, hs, rfl⟩ := ChangedFile.mem_positions_iff.mp hentry
  obtain ⟨i, hline, hposition, hheader, hshows⟩ :=
    exists_getElem?_padded (parseHunks_patch_of_mem hfiles hf) hfirst (List.mem_of_find?_eq_some hs)
  refine ⟨s, hs, rfl, hheader, hshows, ?_, fun hall => ⟨i, ?_, hposition⟩⟩
  · rcases exists_of_getElem?_padded hline with ⟨k, hk, hi⟩ | ⟨hempty, k, hstep, hi⟩
    · exact Or.inl ⟨k, hk, by omega⟩
    · exact Or.inr ⟨hempty, k, hstep, by omega⟩
  · rwa [padded_eq_self hall] at hline

/-! ## Patches with and without a bare header -/

/-- The record of a file with the patch. -/
def patchRecord (patch : String) : Document :=
  .ofFields [("filename", .text "a.py"), ("patch", .text patch)]

/-- A file whose patch has a blank line above its second header and a newline at the end. -/
def headedFile : ChangedFile where
  path := "a.py"
  status := .modified
  patch := "@@ -1,2 +1,2 @@\n-a\n+b\n\\ No newline at end of file\n\n@@ -20 +20 @@\n"
  hunks := [⟨"@@ -1,2 +1,2 @@", 1, 2, 1, 2, "-a\n+b\n\\ No newline at end of file\n"⟩,
    ⟨"@@ -20 +20 @@", 20, 1, 20, 1, ""⟩]

/-- The empty line below the last header is line 7 of the patch. -/
theorem position_eq_line_add_bare_sample :
    parseFiles [] [patchRecord headedFile.patch] = .ok [headedFile] ∧
      (20, 7) ∈ headedFile.positions ∧
      ∃ s, headedFile.spotOf? 20 = some s ∧ ∃ k, (lines headedFile.patch)[k]? = some s.text ∧
        7 = k + 1 := by
  have hfiles : parseFiles [] [patchRecord headedFile.patch] = .ok [headedFile] :=
    eq_ok_of_toOption (by decide +kernel)
  have hentry : (20, 7) ∈ headedFile.positions := by decide +kernel
  have hall : EveryHeaderHasLines (lines headedFile.patch) := by decide +kernel
  obtain ⟨s, hs, -, -, -, -, hline⟩ := position_eq_line_add_bare hfiles (List.mem_singleton_self _)
    (by decide +kernel) hentry
  exact ⟨hfiles, hentry, s, hs, hline hall⟩

/-- A file whose first hunk has no lines. -/
def bareFile : ChangedFile where
  path := "a.py"
  status := .modified
  patch := "@@ -1 +1 @@\n@@ -5 +5 @@\n+x"
  hunks := [⟨"@@ -1 +1 @@", 1, 1, 1, 1, ""⟩, ⟨"@@ -5 +5 @@", 5, 1, 5, 1, "+x"⟩]

/-- Below a bare header, a position is not the number of a line: line 5 of the new file is given
position 4, and the patch, whose first line is a header, has only three lines; line 1, which the
patch does not show, is given position 2, which is a header. -/
theorem position_ne_line :
    parseFiles [] [patchRecord bareFile.patch] = .ok [bareFile] ∧
      headerFirst (lines bareFile.patch) = true ∧
      (5, 4) ∈ bareFile.positions ∧ (lines bareFile.patch)[4 - 1]? = none ∧
      (1, 2) ∈ bareFile.positions ∧
        ∃ l, (lines bareFile.patch)[2 - 1]? = some l ∧ (readHeader l).isSome = true :=
  ⟨eq_ok_of_toOption (by decide +kernel), by decide +kernel, by decide +kernel, by decide +kernel,
    by decide +kernel, "@@ -5 +5 @@", by decide +kernel, by decide +kernel⟩

end ReviewGate.Diff
