import ReviewGate.Model.Answer
import ReviewGate.Proofs.Json.Locality

/-!
# `ReviewGate.Proofs.Model.Answer` — fences around a document count for nothing

A model may put whitespace, a fence before and a fence behind the document that it answers with
(`Wrapping`). Whatever it puts there, the document is read (`Wrapping.readAnswer_around`).
The text of a value neither begins nor ends with whitespace or a mark of a fence, and does not begin
with the first letter of the language. So what is taken off at each end ends where the value begins
or ends, and no fence inside a text is touched.

## Contents
- `trimStart_append`, `trimEnd_append`, `trimStart_cons`, `trimEnd_concat`: whitespace at the ends.
- `Json.Begins.solid`, `Json.Ends.solid`: the outer characters of a value.
- `exists_front`, `exists_back`: what stands at either end of a value, and that it is taken off.
- `Wrapping`, `Wrapping.readAnswer_around`: the wrappings, and documents within them.
-/

namespace ReviewGate

open Text

/-! ## Whitespace -/

theorem trimStart_append {gap : List Char} (hgap : ∀ c ∈ gap, isBlank c = true) (cs : List Char) :
    trimStart (gap ++ cs) = trimStart cs :=
  List.dropWhile_append_of_pos hgap

theorem trimStart_cons {c : Char} (hc : isBlank c = false) (cs : List Char) :
    trimStart (c :: cs) = c :: cs :=
  List.dropWhile_cons_of_neg (by rw [hc]; decide)

theorem trimEnd_append {gap : List Char} (hgap : ∀ c ∈ gap, isBlank c = true) (cs : List Char) :
    trimEnd (cs ++ gap) = trimEnd cs := by
  rw [trimEnd, List.reverse_append, List.dropWhile_append_of_pos]
  · rfl
  · exact fun c hc => hgap c (List.mem_reverse.mp hc)

theorem trimEnd_concat {c : Char} (hc : isBlank c = false) (cs : List Char) :
    trimEnd (cs ++ [c]) = cs ++ [c] := by
  rw [trimEnd, List.reverse_concat, List.dropWhile_cons_of_neg (by rw [hc]; decide),
    ← List.reverse_concat, List.reverse_reverse]

theorem isBlank_of_isGap {c : Char} (h : Json.isGap c = true) : isBlank c = true := by
  simp only [Json.isGap, Bool.or_eq_true, beq_iff_eq] at h
  obtain ((rfl | rfl) | rfl) | rfl := h <;> decide

/-! ## The outer characters of a value -/

theorem solid_of_isDigit {c : Char} (h : c.isDigit = true) :
    isBlank c = false ∧ c ≠ '\x60' ∧ c ≠ 'j' := by
  obtain ⟨hlow, hhigh⟩ := Number.toNat_of_isDigit h
  refine ⟨?_, Json.ne_of_isDigit h (by decide), Json.ne_of_isDigit h (by decide)⟩
  simp only [isBlank, Bool.or_eq_false_iff, Bool.and_eq_false_iff, decide_eq_false_iff_not,
    beq_eq_false_iff_ne]
  omega

theorem Json.Begins.solid {c : Char} (h : Json.Begins c) :
    isBlank c = false ∧ c ≠ '\x60' ∧ c ≠ 'j' := by
  have hmarks : "\"[\x7b-ntfNI".toList.all
      (fun c => decide (isBlank c = false ∧ c ≠ '\x60' ∧ c ≠ 'j')) := by decide
  exact h.elim solid_of_isDigit fun hmark => of_decide_eq_true (List.all_eq_true.mp hmarks c hmark)

theorem Json.Ends.solid {c : Char} (h : Json.Ends c) : isBlank c = false ∧ c ≠ '\x60' := by
  have hmarks : "\"]\x7dleNy".toList.all
      (fun c => decide (isBlank c = false ∧ c ≠ '\x60')) := by decide
  obtain hdigit | hmark := h
  · obtain ⟨hblank, hfence, -⟩ := solid_of_isDigit hdigit
    exact ⟨hblank, hfence⟩
  · exact of_decide_eq_true (List.all_eq_true.mp hmarks c hmark)

/-! ## What stands at either end -/

/-- The text of an answer before its document: nothing, a fence, or a fence with its language. -/
def openings : List (List Char) := [[], fence, fence ++ "json".toList]

/-- The text of an answer behind its document: nothing or a fence. -/
def closings : List (List Char) := [[], fence]

theorem dropOpening_fence (cs : List Char) :
    dropOpening (fence ++ cs)
      = trimStart (if "json".toList.isPrefixOf cs then cs.drop "json".toList.length else cs) := by
  rw [dropOpening, if_pos (List.isPrefixOf_iff_prefix.mpr (List.prefix_append _ _)),
    List.drop_left]

section

variable {lead gap trail opening closing text : List Char} {d : Document}
  (hlead : ∀ c ∈ lead, isBlank c = true) (hgap : ∀ c ∈ gap, isBlank c = true)
  (htrail : ∀ c ∈ trail, isBlank c = true)

include hlead hgap in
/-- What is left of an opening in front of a value once the whitespace before it is taken off, is
taken off as a fence. -/
theorem exists_front (hopening : opening ∈ openings) (h : Json.Spells text d) :
    ∃ front, (∀ tail, trimStart (lead ++ (opening ++ (gap ++ (text ++ tail))))
        = front ++ (text ++ tail)) ∧
      ∀ tail, dropOpening (front ++ (text ++ tail)) = text ++ tail := by
  obtain ⟨c, cs, rfl, hbegins⟩ := h.begins
  obtain ⟨hblank, hmark, hletter⟩ := hbegins.solid
  have hvalue : ∀ tail, trimStart (gap ++ (c :: cs ++ tail)) = c :: cs ++ tail := fun tail => by
    rw [trimStart_append hgap, List.cons_append, trimStart_cons hblank]
  have hfence : ∀ tail, trimStart (lead ++ (fence ++ tail)) = fence ++ tail := fun tail => by
    rw [trimStart_append hlead]
    exact trimStart_cons (by decide) _
  simp only [openings, List.mem_cons, List.not_mem_nil, or_false] at hopening
  obtain rfl | rfl | rfl := hopening
  · refine ⟨[], fun tail => ?_, fun tail => ?_⟩
    · rw [List.nil_append, List.nil_append, trimStart_append hlead, hvalue]
    · rw [List.nil_append, dropOpening, if_neg]
      simp [fence, hmark.symm]
  · refine ⟨fence ++ gap, fun tail => ?_, fun tail => ?_⟩
    · rw [hfence, List.append_assoc]
    · -- neither whitespace nor the value begins with the first letter of the language
      have hlanguage : ¬"json".toList.isPrefixOf (gap ++ (c :: cs ++ tail)) = true := by
        cases gap with
        | nil => simp [hletter.symm]
        | cons b gap =>
            have hb : 'j' ≠ b := by
              rintro rfl
              exact absurd (hgap 'j' List.mem_cons_self) (by decide)
            simp [hb]
      rw [List.append_assoc, dropOpening_fence, if_neg hlanguage, hvalue]
  · refine ⟨fence ++ "json".toList ++ gap, fun tail => ?_, fun tail => ?_⟩
    · rw [List.append_assoc, hfence, List.append_assoc, List.append_assoc]
    · rw [List.append_assoc, List.append_assoc, dropOpening_fence,
        if_pos (List.isPrefixOf_iff_prefix.mpr (List.prefix_append _ _)), List.drop_left, hvalue]

include hgap htrail in
/-- What is left of a closing behind a value once the whitespace behind it is taken off, is taken
off as a fence. -/
theorem exists_back (hclosing : closing ∈ closings) (h : Json.Spells text d) :
    ∃ back, (∀ front, trimEnd (front ++ (text ++ (gap ++ (closing ++ trail))))
        = front ++ (text ++ back)) ∧ dropClosing (text ++ back) = text := by
  have hne : text ≠ [] := by
    obtain ⟨c, cs, rfl, -⟩ := h.begins
    exact List.cons_ne_nil c cs
  obtain ⟨cs, c, rfl⟩ := (List.eq_nil_or_concat' text).resolve_left hne
  obtain ⟨hblank, hmark⟩ := (h.ends c List.getLast?_concat).solid
  have hvalue : ∀ front, trimEnd (front ++ (cs ++ [c] ++ gap)) = front ++ (cs ++ [c]) :=
    fun front => by
      rw [← List.append_assoc, trimEnd_append hgap, ← List.append_assoc, trimEnd_concat hblank]
  simp only [closings, List.mem_cons, List.not_mem_nil, or_false] at hclosing
  obtain rfl | rfl := hclosing
  · refine ⟨[], fun front => ?_, ?_⟩
    · rw [List.nil_append, List.append_nil, ← List.append_assoc, ← List.append_assoc,
        trimEnd_append htrail, List.append_assoc, hvalue]
    · rw [List.append_nil, dropClosing, if_neg]
      intro hsuffix
      obtain ⟨ds, hform⟩ := List.isSuffixOf_iff_suffix.mp hsuffix
      have hlast := congrArg List.getLast? hform
      rw [List.getLast?_concat, List.getLast?_append_of_ne_nil _ (by decide)] at hlast
      exact hmark (Option.some.inj hlast).symm
  · refine ⟨gap ++ fence, fun front => ?_, ?_⟩
    · have hform : ∀ tail, front ++ (cs ++ [c] ++ (gap ++ (fence ++ tail)))
          = front ++ (cs ++ [c] ++ (gap ++ ['\x60', '\x60'])) ++ ['\x60'] ++ tail := fun tail => by
        simp [fence]
      have hfence := hform []
      rw [List.append_nil, List.append_nil] at hfence
      rw [hform, trimEnd_append htrail, trimEnd_concat (by decide), hfence]
    · have hclose := hvalue []
      rw [List.nil_append, List.nil_append] at hclose
      rw [← List.append_assoc, dropClosing,
        if_pos (List.isSuffixOf_iff_suffix.mpr (List.suffix_append _ _)), List.length_append,
        Nat.add_sub_cancel, List.take_left, hclose]

end

/-! ## Answers -/

/-- What stands around a document in an answer: a fence or nothing on either side, and whitespace
anywhere around the fences. -/
structure Wrapping where
  lead : List Char
  opening : List Char
  before : List Char
  behind : List Char
  closing : List Char
  trail : List Char
  blank : ∀ c ∈ lead ++ before ++ behind ++ trail, isBlank c = true
  opens : opening ∈ openings
  closes : closing ∈ closings

/-- The answer with the document's text in the wrapping. -/
def Wrapping.around (w : Wrapping) (text : String) : String :=
  String.ofList (w.lead ++ (w.opening ++ (w.before ++
    (text.toList ++ (w.behind ++ (w.closing ++ w.trail))))))

/-- **Only the text of the value is left of an answer.** -/
theorem Wrapping.unfence_around (w : Wrapping) {gap text gap' : List Char} {d : Document}
    (h : Json.Spells text d) (hgap : ∀ c ∈ gap, Json.isGap c = true)
    (hgap' : ∀ c ∈ gap', Json.isGap c = true) :
    unfence (w.around (String.ofList (gap ++ (text ++ gap')))) = String.ofList text := by
  have hblank := w.blank
  simp only [List.forall_mem_append] at hblank
  obtain ⟨⟨⟨hlead, hbefore⟩, hbehind⟩, htrail⟩ := hblank
  have hbefore' : ∀ c ∈ w.before ++ gap, isBlank c = true :=
    List.forall_mem_append.mpr ⟨hbefore, fun c hc => isBlank_of_isGap (hgap c hc)⟩
  have hbehind' : ∀ c ∈ gap' ++ w.behind, isBlank c = true :=
    List.forall_mem_append.mpr ⟨fun c hc => isBlank_of_isGap (hgap' c hc), hbehind⟩
  obtain ⟨front, hfront, hopening⟩ := exists_front hlead hbefore' w.opens h
  obtain ⟨back, hback, hclosing⟩ := exists_back hbehind' htrail w.closes h
  have hform : (w.around (String.ofList (gap ++ (text ++ gap')))).toList
      = w.lead ++ (w.opening ++ (w.before ++ gap ++
          (text ++ (gap' ++ w.behind ++ (w.closing ++ w.trail))))) := by
    simp only [Wrapping.around, String.toList_ofList, List.append_assoc]
  rw [unfence, hform, trim, hfront, hback, hopening, hclosing]

/-- **A document is read out of every wrapping, as it is read alone.** -/
theorem Wrapping.readAnswer_around (w : Wrapping) {text : String} {d : Document}
    (h : Json.parse text = .ok d) : readAnswer (w.around text) = .ok d := by
  obtain ⟨gap, value, gap', hform, hgap, hgap', hspells⟩ := Json.exists_spells_of_parse h
  have htext : text = String.ofList (gap ++ (value ++ gap')) := by
    rw [← hform, String.ofList_toList]
  rw [readAnswer, htext, w.unfence_around hspells hgap hgap', Json.parse, String.toList_ofList,
    hspells.parseChars]

/-- A fence with its language before the document, and one behind it. -/
def sampleWrapping : Wrapping where
  lead := ['\n']
  opening := fence ++ "json".toList
  before := ['\n']
  behind := [' ']
  closing := fence
  trail := ['\n']
  blank := List.all_eq_true.mp (by decide)
  opens := by decide
  closes := by decide

/-- Fences within the texts of a document stay. -/
theorem Wrapping.readAnswer_around_sample :
    let text := "[\x7b\"use\": \"```python\\nfoo()\\n```\"\x7d, \"```\", -15 ]\n"
    let d := Document.list
      [.map [(.text "use", .text "```python\nfoo()\n```")], .text "```", .int (-15)]
    Json.parse text = .ok d ∧ readAnswer (sampleWrapping.around text) = .ok d := by
  intro text d
  have hparse : Json.parse text = .ok d := by
    rw [Json.parse, String.toList_ofList]
    rfl
  exact ⟨hparse, sampleWrapping.readAnswer_around hparse⟩

end ReviewGate
