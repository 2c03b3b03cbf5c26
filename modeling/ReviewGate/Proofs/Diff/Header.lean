import Mathlib.Data.List.Basic
import ReviewGate.Proofs.Diff.Rendering
import ReviewGate.Proofs.Number.Digits

/-!
# `ReviewGate.Proofs.Diff.Header` — headers are read back

Each part of a header is read off the front of what is left of the line. A number ends where its
digits end, so what matters about the rest is only that it starts with no digit; behind both spans
of a header comes a blank.

Below a header every line has a mark in front, so it is no header, even if the file's own text looks
like one.

## Contents
- `digitValues`, `someDigits_repr`, `headerNumber_digitValues`: a number in a line.
- `readSpan_spanText`: a start number with a count or without one.
- `readHeader_header`, `ofHeader_header`: the header of a hunk.
- `readHeader_body`: a line below a header is no header.
- `lines_joinLines`, `HunkSource.lines_hunk`: the lines are got back.
-/

namespace ReviewGate.Diff

open Number Text

/-! ## Numbers -/

theorem digitValue?_of_isDigit {c : Char} (h : c.isDigit = true) :
    digitValue? c = some (c.toNat - 48) := by
  have hlt : c.toNat < 128 := Nat.lt_of_le_of_lt (toNat_of_isDigit h).2 (by decide)
  unfold digitValue?
  rw [if_pos hlt, if_pos h]

/-- The decimal digits of a number, as values. -/
def digitValues (n : Nat) : List Nat := (Nat.toDigits 10 n).map fun c => c.toNat - 48

theorem ofDigits_digitValues (n : Nat) : ofDigits (digitValues n) = n := by
  rw [digitValues, ofDigits_eq_ofDigitChars]
  exact Nat.ofDigitChars_ten_toDigits

theorem digitValue?_of_mem {n : Nat} {c : Char} (hc : c ∈ Nat.toDigits 10 n) :
    digitValue? c = some (c.toNat - 48) :=
  digitValue?_of_isDigit (Nat.isDigit_of_mem_toDigits (by decide) (by decide) hc)

/-- A number at the front is read up to a character that is no digit. -/
theorem someDigits_repr (n : Nat) {c : Char} (hc : isDigit c = false) (rest : List Char) :
    someDigits (n.repr.toList ++ c :: rest) = some (digitValues n, c :: rest) := by
  have hdigits : ∀ d ∈ Nat.toDigits 10 n, isDigit d = true := by
    intro d hd
    rw [isDigit, digitValue?_of_mem hd]
    rfl
  have htake : (Nat.toDigits 10 n ++ c :: rest).takeWhile isDigit = Nat.toDigits 10 n := by
    rw [List.takeWhile_append_of_pos hdigits, List.takeWhile_cons, hc]
    exact List.append_nil _
  have hvalues : (Nat.toDigits 10 n).filterMap digitValue? = digitValues n :=
    List.filterMap_eq_map_iff_forall_eq_some.mpr fun d hd => digitValue?_of_mem hd
  rw [Nat.toList_repr, someDigits, htake]
  split
  · next hnil => exact absurd hnil Nat.toDigits_ne_nil
  · rw [hvalues, List.drop_left]

theorem headerNumber_digitValues {n : Nat} (h : Readable n) : headerNumber (digitValues n) = .ok n := by
  have hlength : ¬ maxIntDigits < (digitValues n).length := by
    rw [digitValues, List.length_map]
    exact Nat.not_lt.mpr h
  rw [headerNumber, if_neg hlength, ofDigits_digitValues]

/-! ## Spans -/

/-- The digits of the count in a span, if it is there. -/
def countDigits (count : Nat) (brief : Bool) : Option (List Nat) :=
  if brief && count == 1 then none else some (digitValues count)

theorem headerCount_countDigits {count : Nat} (h : Readable count) (brief : Bool) :
    headerCount (countDigits count brief) = .ok count := by
  unfold countDigits
  by_cases hone : (brief && count == 1) = true
  · rw [if_pos hone]
    rw [Bool.and_eq_true, beq_iff_eq] at hone
    rw [hone.2]
    rfl
  · rw [if_neg hone]
    exact headerNumber_digitValues h

theorem readSpan_spanText (start count : Nat) (brief : Bool) (rest : List Char) :
    readSpan ((spanText start count brief).toList ++ ' ' :: rest)
      = some ((digitValues start, countDigits count brief), ' ' :: rest) := by
  have hblank : isDigit ' ' = false := by decide
  have hcomma : isDigit ',' = false := by decide
  unfold spanText countDigits
  by_cases hone : (brief && count == 1) = true
  · rw [if_pos hone, if_pos hone, readSpan, someDigits_repr start hblank]
    rfl
  · -- the comma ends the start number, the blank ends the count
    have hsplit : (start.repr ++ "," ++ count.repr).toList ++ ' ' :: rest
        = start.repr.toList ++ ',' :: (count.repr.toList ++ ' ' :: rest) := by
      simp
    rw [if_neg hone, if_neg hone, hsplit, readSpan]
    simp only [someDigits_repr start hcomma, someDigits_repr count hblank, Option.bind_eq_bind,
      Option.bind_some]
    rfl

/-! ## Headers -/

theorem behind_append (start cs : List Char) : behind start (start ++ cs) = some cs := by
  have hstart : start.isPrefixOf (start ++ cs) = true :=
    List.isPrefixOf_iff_prefix.mpr (List.prefix_append start cs)
  rw [behind, if_pos hstart, List.drop_left]

/-- The digits of a hunk's header. -/
def HunkSource.digits (h : HunkSource) : HeaderDigits where
  oldStart := digitValues h.oldStart
  oldLines := countDigits (oldCount h.lines) h.oldBrief
  newStart := digitValues h.newStart
  newLines := countDigits (newCount h.lines) h.newBrief

theorem readHeader_header (h : HunkSource) : readHeader h.header = some h.digits := by
  have hparts : h.header.toList = "@@ -".toList ++
      ((spanText h.oldStart (oldCount h.lines) h.oldBrief).toList ++ ' ' :: '+' ::
        ((spanText h.newStart (newCount h.lines) h.newBrief).toList ++ ' ' :: '@' :: '@' ::
          h.heading.toList)) := by
    simp [HunkSource.header]
  have hplus : ∀ cs : List Char, behind " +".toList (' ' :: '+' :: cs) = some cs :=
    behind_append " +".toList
  have hend : ∀ cs : List Char, behind " @@".toList (' ' :: '@' :: '@' :: cs) = some cs :=
    behind_append " @@".toList
  unfold readHeader
  simp only [hparts, behind_append, readSpan_spanText, hplus, hend, Option.bind_eq_bind,
    Option.bind_some]
  rfl

/-- **The header of a hunk is read as what it was written from.** -/
theorem ofHeader_header (h : HunkSource) (body : List String) :
    Hunk.ofHeader h.header h.digits body = .ok
      { h.hunk with content := joinLines body } := by
  rw [Hunk.ofHeader, HunkSource.digits, headerNumber_digitValues h.oldStart_readable,
    headerCount_countDigits h.oldCount_readable, headerNumber_digitValues h.newStart_readable,
    headerCount_countDigits h.newCount_readable]
  rfl

/-! ## Lines -/

/-- A line that does not start with an at sign is no header. -/
theorem readHeader_eq_none {line : String} {c : Char} {cs : List Char} (hline : line.toList = c :: cs)
    (hc : c ≠ '@') : readHeader line = none := by
  have hstart : ("@@ -".toList.isPrefixOf (c :: cs)) = false := by
    show ('@' == c && _) = false
    rw [beq_false_of_ne hc.symm, Bool.false_and]
  rw [readHeader, hline, behind, hstart]
  rfl

theorem PatchLine.toList_marked (l : PatchLine) : l.marked.toList = l.kind.mark :: l.text.toList := by
  rw [PatchLine.marked, String.toList_append, String.toList_singleton]
  rfl

/-- A line below a header is a marked line or the note. -/
theorem mem_body {h : HunkSource} {line : String} (hline : line ∈ h.body) :
    (∃ l : PatchLine, line = l.marked) ∨ line = unendedNote := by
  obtain ⟨l, _, hl⟩ := List.mem_flatMap.mp hline
  rcases List.mem_cons.mp hl with rfl | hnote
  · exact Or.inl ⟨l, rfl⟩
  · cases hu : l.unended with
    | false => simp [hu] at hnote
    | true => exact Or.inr (by simpa [hu] using hnote)

/-- **No line below a header is a header**, whatever its text looks like. -/
theorem readHeader_body {h : HunkSource} {line : String} (hline : line ∈ h.body) :
    readHeader line = none := by
  rcases mem_body hline with ⟨l, rfl⟩ | rfl
  · refine readHeader_eq_none l.toList_marked ?_
    cases l.kind <;> decide
  · decide

theorem body_ne_nil (h : HunkSource) : h.body ≠ [] := by
  obtain ⟨l, rest, hlines⟩ := List.exists_cons_of_ne_nil h.nonempty
  rw [HunkSource.body, hlines, List.flatMap_cons]
  exact List.cons_ne_nil _ _

theorem newline_not_mem_body {h : HunkSource} {line : String} (hline : line ∈ h.body) :
    '\n' ∉ line.toList := by
  rcases mem_body hline with ⟨l, rfl⟩ | rfl
  · rw [l.toList_marked, List.mem_cons, not_or]
    refine ⟨?_, l.oneLine⟩
    cases l.kind <;> decide
  · decide

theorem newline_not_mem_header (h : HunkSource) : '\n' ∉ h.header.toList := by
  have hnumber : ∀ n : Nat, '\n' ∉ n.repr.toList := by
    intro n hmem
    rw [Nat.toList_repr] at hmem
    exact absurd (Nat.isDigit_of_mem_toDigits (by decide) (by decide) hmem) (by decide)
  have hspan : ∀ start count brief, '\n' ∉ (spanText start count brief).toList := by
    intro start count brief
    unfold spanText
    split
    · exact hnumber start
    · simp only [String.toList_append, List.mem_append, not_or]
      exact ⟨⟨hnumber start, by decide⟩, hnumber count⟩
  simp only [HunkSource.header, String.toList_append, List.mem_append, not_or]
  exact ⟨⟨⟨⟨⟨by decide, hspan _ _ _⟩, by decide⟩, hspan _ _ _⟩, by decide⟩, h.oneLine⟩

/-- Lines without newlines are got back from their text. -/
theorem lines_joinLines {ls : List String} (hne : ls ≠ []) (h : ∀ l ∈ ls, '\n' ∉ l.toList) :
    lines (joinLines ls) = ls := by
  have hpieces : ∀ cs ∈ ls.map String.toList, '\n' ∉ cs := by
    intro cs hcs
    obtain ⟨l, hl, rfl⟩ := List.mem_map.mp hcs
    exact h l hl
  have hne' : ls.map String.toList ≠ [] := fun hnil => hne (List.map_eq_nil_iff.mp hnil)
  rw [lines, joinLines, String.toList_ofList, List.splitOn_intercalate '\n' hpieces hne',
    List.map_map]
  exact List.map_id'' (fun l => String.ofList_toList) ls

/-- **The lines of a hunk are those below its header.** -/
theorem HunkSource.lines_hunk (h : HunkSource) : h.hunk.lines = h.body :=
  lines_joinLines (body_ne_nil h) fun _ hl => newline_not_mem_body hl

end ReviewGate.Diff
