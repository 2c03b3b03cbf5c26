import Mathlib.Algebra.GroupWithZero.Nat
import ReviewGate.Proofs.Document.Spelling
import ReviewGate.Proofs.Finding.Synthesis
import ReviewGate.Proofs.Sequence
import ReviewGate.Review.Basic

/-!
# `ReviewGate.Proofs.Review.Comment` — which findings a review shows, and where

The findings of an analysis are ranked, and comments are made from the front. A finding whose line
has no position is passed over, so a limit on comments is spent on findings that can have one. Where
the comments end the ranked list falls into two parts (`exists_split_take_filterMap`): the findings
of the first part that have a position have the comments, and either there was room for more, and
then none in the second part has a position, or there was not, and then none of these is graver than
one in front. The text of the review knows of no positions and no limit: it has an entry for every
finding, and a table in which every finding is counted once.

## Contents
- `exists_split_take_filterMap`: where comments end.
- `InlineComment.IsOn`, `CommentsEndBetween`: comments and the findings that they are on.
- `countsOf`, `Tabulates`: the table of severities.
- `Finding.IsEntry`, `Lists`, `exists_reviewBody`: the text.
- `reviewBody_of_not_spellable`: a line whose number cannot be written stops it.
- `exists_review_synthesize`, `no_review_synthesize`: when there is a review.
- `best_findings_commented`: what a review shows.
-/

namespace ReviewGate

open Diff

/-! ## Comments -/

section

variable {α β : Type} (f : α → Option β)

/-- Where the first `n` answers end, a list falls into two parts: the first one gives these answers,
and the second one gives none unless there are `n` already. -/
theorem exists_split_take_filterMap (xs : List α) (n : Nat) :
    ∃ front back, xs = front ++ back ∧ front.filterMap f = (xs.filterMap f).take n ∧
      (((xs.filterMap f).take n).length < n → back.filterMap f = []) := by
  -- the split of the answers into those taken and the others comes from a split of the list
  obtain ⟨front, back, hsplit, hfront, hback⟩ :=
    List.filterMap_eq_append_iff.mp (List.take_append_drop n (xs.filterMap f)).symm
  refine ⟨front, back, hsplit, hfront, fun hlt => ?_⟩
  rw [List.length_take] at hlt
  rw [hback]
  exact List.drop_of_length_le (by omega)

/-- The answers of a list come from the elements that have one, in order. -/
theorem forall₂_filterMap (xs : List α) :
    List.Forall₂ (fun x y => f x = some y) (xs.filter fun x => (f x).isSome)
      (xs.filterMap f) := by
  induction xs with
  | nil => exact .nil
  | cons x rest ih =>
      cases hx : f x with
      | none =>
          rw [List.filterMap_cons_none hx, List.filter_cons_of_neg (by simp [hx])]
          exact ih
      | some y =>
          rw [List.filterMap_cons_some hx, List.filter_cons_of_pos (by simp [hx])]
          exact .cons hx ih

end

/-- Does the line of the finding have a position? -/
def Finding.isMapped (files : List ChangedFile) (x : Finding) : Bool :=
  (lineToPosition files x.file x.line).isSome

/-- The comment is the one on the finding. -/
structure InlineComment.IsOn (files : List ChangedFile) (x : Finding) (c : InlineComment) :
    Prop where
  path : c.path = x.file
  position : lineToPosition files x.file x.line = some c.position
  body : c.body = x.comment

/-- Comments on findings end between `front` and `back`: those of the front whose lines have a
position have the comments, and the back has no such finding unless the comments are as many as there
may be. -/
structure CommentsEndBetween (files : List ChangedFile) (limit : Int) (front back : List Finding)
    (comments : List InlineComment) : Prop where
  isOn : List.Forall₂ (InlineComment.IsOn files) (front.filter (Finding.isMapped files)) comments
  le_limit : (comments.length : Int) ≤ max limit 0
  exhausted : (comments.length : Int) < max limit 0 → ∀ y ∈ back, y.isMapped files = false

theorem Finding.isSome_inline? (files : List ChangedFile) (x : Finding) :
    (x.inline? files).isSome = x.isMapped files :=
  Option.isSome_map

theorem InlineComment.isOn_of_inline? {files : List ChangedFile} {x : Finding} {c : InlineComment}
    (h : x.inline? files = some c) : c.IsOn files x := by
  obtain ⟨position, hposition, rfl⟩ := Option.map_eq_some_iff.mp h
  exact ⟨rfl, hposition, rfl⟩

/-- **Comments are on the first findings whose lines have a position.** -/
theorem exists_commentsEndBetween (files : List ChangedFile) (limit : Int) (xs : List Finding) :
    ∃ front back, xs = front ++ back ∧
      CommentsEndBetween files limit front back (inlineComments files limit xs) := by
  obtain ⟨front, back, hsplit, hfront, hback⟩ :=
    exists_split_take_filterMap (Finding.inline? files) xs limit.toNat
  have hlength : (inlineComments files limit xs).length ≤ limit.toNat := List.length_take_le ..
  refine ⟨front, back, hsplit, ⟨?_, by omega, fun hroom y hy => ?_⟩⟩
  · have hmapped : front.filter (Finding.isMapped files)
        = front.filter fun x => (x.inline? files).isSome :=
      List.filter_congr fun x _ => (Finding.isSome_inline? files x).symm
    rw [hmapped, inlineComments, ← hfront]
    exact (forall₂_filterMap (Finding.inline? files) front).imp fun _ _ h =>
      InlineComment.isOn_of_inline? h
  · have hnone : back.filterMap (Finding.inline? files) = [] :=
      hback (show (inlineComments files limit xs).length < limit.toNat by omega)
    rw [← Finding.isSome_inline?, List.filterMap_eq_nil_iff.mp hnone y hy]
    rfl

/-! ## The table -/

/-- A row of the table of severities. -/
def severityRow (count : Severity × Nat) : String := s!"| {count.1.title} | {count.2} |"

/-- The severities of findings, each with the number of findings that have it. -/
def countsOf (xs : List Finding) : List (Severity × Nat) :=
  (Severity.all.filter fun s => countSeverity xs s != 0).map fun s => (s, countSeverity xs s)

/-- The counts tell how many findings have which severity, and every finding is counted once. -/
structure Tabulates (xs : List Finding) (counts : List (Severity × Nat)) : Prop where
  distinct : (counts.map Prod.fst).Nodup
  count : ∀ c ∈ counts, c.2 = xs.countP (·.severity == c.1) ∧ c.2 ≠ 0
  total : (counts.map Prod.snd).sum = xs.length

theorem countTable_eq (xs : List Finding) : countTable xs = (countsOf xs).map severityRow := by
  rw [countTable, countsOf, List.map_map]
  rfl

theorem sum_countSeverity (xs : List Finding) :
    (Severity.all.map (countSeverity xs)).sum = xs.length := by
  induction xs with
  | nil => rfl
  | cons x rest ih =>
      have hcount : ∀ s, countSeverity (x :: rest) s
          = countSeverity rest s + if x.severity = s then 1 else 0 := by
        intro s
        simp only [countSeverity, List.filter_cons]
        by_cases hs : x.severity = s <;> simp [hs]
      -- one of the three counts goes up by one
      simp only [Severity.all, List.map_cons, List.map_nil, List.sum_cons, List.sum_nil, hcount,
        List.length_cons] at ih ⊢
      cases x.severity <;> simp <;> omega

/-- What is zero adds nothing to a sum. -/
theorem sum_map_filter_ne_zero {α : Type} (f : α → Nat) (xs : List α) :
    ((xs.filter fun x => f x != 0).map f).sum = (xs.map f).sum := by
  induction xs with
  | nil => rfl
  | cons x rest ih =>
      by_cases hx : f x = 0
      · rw [List.filter_cons_of_neg (by simp [hx]), ih, List.map_cons, List.sum_cons, hx,
          Nat.zero_add]
      · rw [List.filter_cons_of_pos (by simpa using hx), List.map_cons, List.map_cons,
          List.sum_cons, List.sum_cons, ih]

theorem tabulates_countsOf (xs : List Finding) : Tabulates xs (countsOf xs) where
  distinct := by
    have hfst : (countsOf xs).map Prod.fst
        = Severity.all.filter fun s => countSeverity xs s != 0 := by
      rw [countsOf, List.map_map]
      exact List.map_id _
    have hall : Severity.all.Nodup := by decide
    rw [hfst]
    exact hall.filter _
  count c hc := by
    obtain ⟨s, hs, rfl⟩ := List.mem_map.mp hc
    exact ⟨List.countP_eq_length_filter.symm, bne_iff_ne.mp (List.mem_filter.mp hs).2⟩
  total := by
    rw [countsOf, List.map_map, ← sum_countSeverity xs]
    exact sum_map_filter_ne_zero (countSeverity xs) Severity.all

/-! ## The text -/

/-- The lines are the entry of the finding: severity and title, then file and line with the rule,
then more. -/
def Finding.IsEntry (x : Finding) (entry : List String) : Prop :=
  ∃ more, entry = s!"#### **[{x.severity.label}]** {x.title.plain}" ::
    ("\x60" ++ s!"{x.file.plain}:{x.line.plain}" ++ "\x60 · Rule: \x60" ++ x.ruleId.plain ++
      "\x60\n") :: more

/-- The text has a row for each severity of the findings, and behind the table an entry for each
finding, in order. -/
def Lists (xs : List Finding) (body : String) : Prop :=
  ∃ counts entries top middle bottom,
    body = Text.joinLines
      (top ++ counts.map severityRow ++ middle ++ List.flatten entries ++ bottom) ∧
    Tabulates xs counts ∧ List.Forall₂ Finding.IsEntry xs entries

/-- The lines that tell of a finding whose explanation is a text. -/
def Finding.entry (x : Finding) : List String :=
  [s!"#### **[{x.severity.label}]** {x.title.plain}",
    "\x60" ++ s!"{x.file.plain}:{x.line.plain}" ++ "\x60 · Rule: \x60" ++ x.ruleId.plain ++ "\x60\n",
    x.explanation.plain] ++
  (if x.suggestion.truthy then [s!"\n> **Suggestion:** {x.suggestion.plain}"] else []) ++ [""]

theorem Finding.details_eq_entry {x : Finding} (hexplained : ∃ s, x.explanation = .text s)
    (hline : x.line.spellable = true) : x.details = .ok (x.entry.map Document.text) := by
  obtain ⟨s, hs⟩ := hexplained
  unfold Finding.details Finding.entry
  rw [Document.spell_of_spellable hline, hs]
  cases x.suggestion.truthy <;> rfl

theorem mapM_asText (lines : List String) : (lines.map Document.text).mapM asText = .ok lines := by
  induction lines with
  | nil => rfl
  | cons line rest ih =>
      rw [List.map_cons, List.mapM_cons, ih]
      rfl

/-- The text of a review, from the lines between the summary and the cost. -/
theorem reviewBody_of_bodyLines {a : Analysis} {lines : List String}
    (h : bodyLines a.findings = .ok (lines.map Document.text)) :
    reviewBody a = .ok (Text.joinLines
      ([signature, "## Review summary\n", s!"> {a.summary}\n"] ++ lines ++ [costLine a])) := by
  have htexts := mapM_asText
    ([signature, "## Review summary\n", s!"> {a.summary}\n"] ++ lines ++ [costLine a])
  rw [List.map_append, List.map_append, List.map_singleton] at htexts
  unfold reviewBody
  rw [h, ok_bind, htexts]
  rfl

/-- **The text of a review comes about and lists all findings**, if their explanations are texts and
the numbers of their lines can be written. -/
theorem exists_reviewBody {a : Analysis} (hexplained : ∀ x ∈ a.findings, ∃ s, x.explanation = .text s)
    (hlines : ∀ x ∈ a.findings, x.line.spellable = true) :
    ∃ body, reviewBody a = .ok body ∧ Lists a.findings body := by
  let heading : List String := [signature, "## Review summary\n", s!"> {a.summary}\n"]
  let none : List String :=
    ["No issues found. The changes look consistent with the repository policy.\n"]
  by_cases hempty : a.findings.isEmpty = true
  · -- without findings there is neither a table nor an entry
    have hnone : bodyLines a.findings = .ok (none.map Document.text) := by
      unfold bodyLines
      rw [if_pos hempty]
      rfl
    refine ⟨_, reviewBody_of_bodyLines hnone, [], [], heading ++ none, [], [costLine a], ?_, ?_, ?_⟩
    · simp only [heading, List.map_nil, List.flatten_nil, List.append_nil]
    · rw [List.isEmpty_iff.mp hempty]
      exact ⟨List.nodup_nil, nofun, rfl⟩
    · rw [List.isEmpty_iff.mp hempty]
      exact .nil
  · have hentries : a.findings.mapM Finding.details
        = .ok (a.findings.map fun x => x.entry.map Document.text) :=
      mapM_eq_ok fun x hx => x.details_eq_entry (hexplained x hx) (hlines x hx)
    have hsome : bodyLines a.findings = .ok
        ((["| Severity | Count |", "|----------|:-----:|"] ++ countTable a.findings ++
          ["\n### Details\n"] ++ (a.findings.map Finding.entry).flatten).map Document.text) := by
      unfold bodyLines
      rw [if_neg hempty, hentries, List.map_append, List.map_flatten, List.map_map]
      rfl
    refine ⟨_, reviewBody_of_bodyLines hsome, countsOf a.findings, a.findings.map Finding.entry,
      heading ++ ["| Severity | Count |", "|----------|:-----:|"], ["\n### Details\n"],
      [costLine a], ?_, tabulates_countsOf a.findings, ?_⟩
    · rw [countTable_eq]
      simp only [heading, List.append_assoc]
    · exact List.forall₂_map_right_iff.mpr (List.forall₂_same.mpr fun x _ => ⟨_, rfl⟩)

/-- **A line number that cannot be written stops the text**, whatever else there is. -/
theorem reviewBody_of_not_spellable {a : Analysis} {x : Finding} (hx : x ∈ a.findings)
    (hline : x.line.spellable = false) : reviewBody a = .error .badNumber := by
  have hfault : ∀ y ∈ a.findings, (∃ ls, y.details = .ok ls) ∨ y.details = .error .badNumber := by
    intro y _
    unfold Finding.details
    cases hspellable : y.line.spellable with
    | true =>
        rw [Document.spell_of_spellable hspellable]
        exact Or.inl ⟨_, rfl⟩
    | false =>
        rw [Document.spell_of_not_spellable hspellable]
        exact Or.inr rfl
  have hstops : x.details = .error .badNumber := by
    rw [Finding.details, Document.spell_of_not_spellable hline]
    rfl
  have hsome : ¬a.findings.isEmpty = true := fun h =>
    List.not_mem_nil (List.isEmpty_iff.mp h ▸ hx)
  unfold reviewBody bodyLines
  rw [if_neg hsome, mapM_eq_error hfault hx hstops]
  rfl

/-! ## Reviews -/

/-- The review of an analysis comes about if the explanations are texts and the line numbers can be
written. -/
theorem exists_review {a : Analysis} (hexplained : ∀ x ∈ a.findings, ∃ s, x.explanation = .text s)
    (hlines : ∀ x ∈ a.findings, x.line.spellable = true) (files : List ChangedFile)
    (e : Enforcement) :
    ∃ r, Review.ofAnalysis a files e = .ok r ∧
      r.comments = inlineComments files e.maxComments a.findings ∧
      r.event = decideEvent e a.findings ∧ Lists a.findings r.body := by
  obtain ⟨body, hbody, hlists⟩ := exists_reviewBody hexplained hlines
  unfold Review.ofAnalysis
  rw [hbody]
  exact ⟨_, rfl, rfl, rfl, hlists⟩

/-- There is none if a line number cannot be written. -/
theorem ofAnalysis_of_not_spellable {a : Analysis} {x : Finding} (hx : x ∈ a.findings)
    (hline : x.line.spellable = false) (files : List ChangedFile) (e : Enforcement) :
    Review.ofAnalysis a files e = .error .badNumber := by
  unfold Review.ofAnalysis
  rw [reviewBody_of_not_spellable hx hline]
  rfl

/-- Findings with one key can have their line numbers written or not, all of them. -/
theorem Finding.WellTyped.spellable_congr {x y : Finding} (hx : x.WellTyped) (hy : y.WellTyped)
    (h : x.key = y.key) : x.line.spellable = y.line.spellable := by
  obtain ⟨n, -, hn, -⟩ := hx.line.exists_int
  have hkeys : x.line.key? = y.line.key? := (List.cons.inj (List.cons.inj (List.cons.inj h).2).2).1
  rw [Document.spellable_of_key hx.line hn, Document.spellable_of_key hy.line (hkeys ▸ hn)]

/-- **A merge keeps a line number that cannot be written.** -/
theorem exists_not_spellable_synthesize {xs : List Finding} (htyped : ∀ x ∈ xs, x.WellTyped)
    (passes : Int) (usage : TokenUsage) {x : Finding} (hx : x ∈ xs)
    (hline : x.line.spellable = false) :
    ∃ y ∈ (synthesize xs passes usage).findings, y.line.spellable = false := by
  obtain ⟨y, hy, hkey, _⟩ := exists_mem_dedupe hx
  refine ⟨y, mem_synthesize.mpr hy, ?_⟩
  rw [(htyped y (mem_of_mem_dedupe hy)).spellable_congr (htyped x hx) hkey, hline]

theorem exists_review_synthesize {xs : List Finding} (htyped : ∀ x ∈ xs, x.WellTyped)
    (hlines : ∀ x ∈ xs, x.line.spellable = true) (files : List ChangedFile) (e : Enforcement)
    (passes : Int) (usage : TokenUsage) :
    ∃ r, Review.ofAnalysis (synthesize xs passes usage) files e = .ok r ∧
      r.comments = inlineComments files e.maxComments (synthesize xs passes usage).findings ∧
      r.event = decideEvent e (synthesize xs passes usage).findings ∧
      Lists (synthesize xs passes usage).findings r.body := by
  have hmem : ∀ {x}, x ∈ (synthesize xs passes usage).findings → x ∈ xs := fun hx =>
    mem_of_mem_dedupe (mem_synthesize.mp hx)
  exact exists_review (fun x hx => (htyped x (hmem hx)).explanation)
    (fun x hx => hlines x (hmem hx)) files e

theorem no_review_synthesize {xs : List Finding} (htyped : ∀ x ∈ xs, x.WellTyped) {x : Finding}
    (hx : x ∈ xs) (hline : x.line.spellable = false) (files : List ChangedFile) (e : Enforcement)
    (passes : Int) (usage : TokenUsage) :
    Review.ofAnalysis (synthesize xs passes usage) files e = .error .badNumber := by
  obtain ⟨y, hy, hyline⟩ := exists_not_spellable_synthesize htyped passes usage hx hline
  exact ofAnalysis_of_not_spellable hy hyline files e

/-- **The best findings have comments, and all have entries.** For any limit, the comments of a review
are on the first of the ranked findings whose lines have a position, no others, and no finding that
has a position and no comment is graver than one with a comment. The text has an entry for each
finding, in the order of the ranked list, and a table with the number of findings of each severity
that occurs. Only a finding whose line number cannot be written leaves no review. -/
theorem best_findings_commented {xs : List Finding} (htyped : ∀ x ∈ xs, x.WellTyped)
    (files : List ChangedFile) (e : Enforcement) (passes : Int) (usage : TokenUsage) :
    (∃ front back, (synthesize xs passes usage).findings = front ++ back ∧
        CommentsEndBetween files e.maxComments front back
          (inlineComments files e.maxComments (synthesize xs passes usage).findings) ∧
        ∀ x ∈ front, ∀ y ∈ back, y.severity.rank ≤ x.severity.rank) ∧
      ((∀ x ∈ xs, x.line.spellable = true) →
        ∃ review, Review.ofAnalysis (synthesize xs passes usage) files e = .ok review ∧
          review.comments = inlineComments files e.maxComments (synthesize xs passes usage).findings ∧
          Lists (synthesize xs passes usage).findings review.body) ∧
      ((∃ x ∈ xs, x.line.spellable = false) →
        Review.ofAnalysis (synthesize xs passes usage) files e = .error .badNumber) := by
  obtain ⟨front, back, hsplit, hcomments⟩ :=
    exists_commentsEndBetween files e.maxComments (synthesize xs passes usage).findings
  refine ⟨⟨front, back, hsplit, hcomments, fun x hx y hy => ?_⟩, fun hlines => ?_, ?_⟩
  · have hranked : (synthesize xs passes usage).findings.Pairwise fun x y => x.precedes y = true :=
      pairwise_precedes_rankFindings (dedupe xs)
    rw [hsplit] at hranked
    exact Finding.rank_le_of_precedes ((List.pairwise_append.mp hranked).2.2 x hx y hy)
  · obtain ⟨review, hreview, hinline, -, hlists⟩ :=
      exists_review_synthesize htyped hlines files e passes usage
    exact ⟨review, hreview, hinline, hlists⟩
  · rintro ⟨x, hx, hline⟩
    exact no_review_synthesize htyped hx hline files e passes usage

/-- A file whose second line is new. -/
def twoLineFile : ChangedFile :=
  ⟨"a.py", .modified, [⟨"@@ -1 +1,2 @@", 1, 1, 1, 2, " a\n+b"⟩], "@@ -1 +1,2 @@\n a\n+b"⟩

/-- Two remarks on its second line, and a critical one on a line that the patch does not show. -/
def scatteredRemarks : List Finding :=
  [remarkOn .warning "b" "Here.", { remarkOn .critical "c" "There." with line := .int 9 },
    remarkOn .critical "d" "Here too."]

/-- With room for one comment, the three remarks give a review with an entry for each. -/
theorem best_findings_commented_sample :
    ∃ review, Review.ofAnalysis (synthesize scatteredRemarks 6 .none) [twoLineFile]
        { Enforcement.default with maxComments := 1 } = .ok review ∧
      (∃ front back, (synthesize scatteredRemarks 6 .none).findings = front ++ back ∧
        CommentsEndBetween [twoLineFile] 1 front back review.comments ∧
        ∀ x ∈ front, ∀ y ∈ back, y.severity.rank ≤ x.severity.rank) ∧
      Lists (synthesize scatteredRemarks 6 .none).findings review.body := by
  have htyped : ∀ x ∈ scatteredRemarks, x.WellTyped := by
    simp only [scatteredRemarks, List.forall_mem_cons, wellTyped_remarkOn, true_and]
    exact ⟨⟨⟨_, rfl⟩, ⟨_, rfl⟩, Or.inl ⟨_, rfl⟩, ⟨_, rfl⟩, ⟨_, rfl⟩⟩, nofun⟩
  obtain ⟨hcomments, hreview, -⟩ := best_findings_commented htyped [twoLineFile]
    { Enforcement.default with maxComments := 1 } 6 .none
  obtain ⟨review, hok, hinline, hlists⟩ := hreview (by decide +kernel)
  exact ⟨review, hok, hinline ▸ hcomments, hlists⟩

end ReviewGate
