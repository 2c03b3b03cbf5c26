import ReviewGate.Proofs.Check.Run
import ReviewGate.Proofs.Diff.Walk
import ReviewGate.Proofs.Document.Key

/-!
# `ReviewGate.Proofs.Check.Anchor` — where findings about added lines point

A finding that is computed from the added lines of a file should point at one of them, since only
lines that the patch shows have a position in it. Three producers look at added lines. A check of
single lines points at the line that it has matched. A hard rule looks at the lines as one text, and
so does a check of added text; both then search for a line that matches on its own, and for a match
that straddles lines there is none. The hard rule falls back on the first added line. The check of
added text falls back on line one of the file, which need not be an added line nor be shown at all
(`straddling_match_unanchored`).

There is one such check among the built-in ones, against `catch` blocks that do not log. Its pattern
allows white space in front of the parenthesis, and so a line break.

## Contents
- `Diff.ChangedFile.Anchors`, `exists_position_of_anchors`: findings on added lines.
- `Check.Straddles`, `Check.anchors_of_isAddedLine`, `Check.anchors_of_addedText`,
  `HardRule.anchors_of_addedLines`: the three producers.
- `Cause`, `exists_cause`: what a finding of a specialist comes from.
- `findings_on_added_lines`: all findings of a specialist; `straddling_match_unanchored`: one that
  points elsewhere.
-/

namespace ReviewGate

open Diff

/-! ## Findings on added lines -/

/-- The finding is about the file and points at one of its added lines. -/
def Diff.ChangedFile.Anchors (f : ChangedFile) (x : Finding) : Prop :=
  x.file = .text f.path ∧ ∃ line ∈ f.addedLines, x.line = .int line.number

/-- **A finding on an added line has a position** in every change in which its file is found. -/
theorem exists_position_of_anchors {f : ChangedFile} {x : Finding} (h : f.Anchors x)
    {files : List ChangedFile} (hfile : fileAt? files (.text f.path) = some f) :
    ∃ position, lineToPosition files x.file x.line = some position := by
  obtain ⟨hpath, line, hline, hnumber⟩ := h
  obtain ⟨position, hposition⟩ := f.walksAgree.added_shown line hline
  refine ⟨position, ?_⟩
  rw [hpath, hnumber]
  exact (f.walksAgree.lookup files hfile line.number position).mpr ⟨line.number, rfl, hposition⟩

/-! ## The producers -/

section

variable {c : Check} {specialist : String} {f : ChangedFile} {content : String} {x : Finding}

/-- The check looks at the added lines as one text, and no line has its pattern on its own. -/
def Check.Straddles (c : Check) (f : ChangedFile) : Prop :=
  ∃ pattern cleared, c.trigger = .addedText pattern cleared ∧
    ∀ line ∈ f.addedLines, pattern line.text = false

theorem Check.anchors_of_isAddedLine (hline : c.trigger.isAddedLine = true)
    (hx : x ∈ c.findings specialist f content) : f.Anchors x := by
  rw [Check.findings_of_isAddedLine hline] at hx
  obtain ⟨line, hmem, _, -, _, -, -, rfl⟩ := mem_lineFindings.mp hx
  exact ⟨rfl, line, hmem, rfl⟩

/-- A check of added text points at the first line with its pattern, and at line one of the file if
there is none. -/
theorem Check.eq_finding_of_addedText {pattern cleared : Pattern}
    (ht : c.trigger = .addedText pattern cleared) (hx : x ∈ c.findings specialist f content) :
    x = c.finding specialist f.path
      ((f.addedLines.find? fun line => pattern line.text).elim 1 (·.number)) none := by
  unfold Check.findings at hx
  simp only [ht] at hx
  split at hx
  · cases hfind : f.addedLines.find? fun line => pattern line.text with
    | none =>
        simp only [hfind] at hx
        exact List.mem_singleton.mp hx
    | some line =>
        simp only [hfind] at hx
        exact List.mem_singleton.mp hx
  · exact absurd hx List.not_mem_nil

theorem Check.anchors_of_addedText {pattern cleared : Pattern}
    (ht : c.trigger = .addedText pattern cleared) (hx : x ∈ c.findings specialist f content)
    (hwhole : ¬ c.Straddles f) : f.Anchors x := by
  have heq := Check.eq_finding_of_addedText ht hx
  cases hfind : f.addedLines.find? fun line => pattern line.text with
  | none =>
      -- a search in vain is what straddling means
      have hnone : ∀ line ∈ f.addedLines, pattern line.text = false := fun line hline =>
        Bool.eq_false_iff.mpr (List.find?_eq_none.mp hfind line hline)
      exact absurd ⟨pattern, cleared, ht, hnone⟩ hwhole
  | some line =>
      rw [hfind] at heq
      exact ⟨heq ▸ rfl, line, List.mem_of_find?_eq_some hfind, heq ▸ rfl⟩

theorem Check.line_of_straddles (hstraddles : c.Straddles f)
    (hx : x ∈ c.findings specialist f content) : x.file = .text f.path ∧ x.line = .int 1 := by
  obtain ⟨pattern, cleared, ht, hnone⟩ := hstraddles
  have heq := Check.eq_finding_of_addedText ht hx
  have hfind : (f.addedLines.find? fun line => pattern line.text) = none :=
    List.find?_eq_none.mpr fun line hline => Bool.eq_false_iff.mp (hnone line hline)
  rw [hfind] at heq
  exact ⟨heq ▸ rfl, heq ▸ rfl⟩

/-- A hard rule falls back on the first added line. -/
theorem HardRule.anchors_of_addedLines {rule : HardRule} {p : Policy}
    (htarget : rule.target = .addedLines) (hadded : f.addedLines ≠ [])
    (hx : x ∈ rule.report p specialist f content) : f.Anchors x := by
  obtain ⟨-, n, -, -, rfl⟩ := rule.cause_of_mem_report hx
  have hline : ∃ line ∈ f.addedLines, rule.lineOf n f content = line.number := by
    simp only [HardRule.lineOf, htarget]
    cases hfind : f.addedLines.find? fun line => Pattern.ofNode n line.text with
    | some line => exact ⟨line, List.mem_of_find?_eq_some hfind, rfl⟩
    | none =>
        obtain ⟨line, rest, hcons⟩ := List.exists_cons_of_ne_nil hadded
        refine ⟨line, hcons ▸ List.mem_cons_self .., ?_⟩
        simp only [ChangedFile.firstAdded, hcons]
  obtain ⟨line, hmem, hnumber⟩ := hline
  exact ⟨rfl, line, hmem, by rw [hnumber]; rfl⟩

end

/-! ## What a finding comes from -/

/-- What a specialist evaluates on a file. -/
inductive Cause
  | ofCheck (c : Check)
  | ofRule (rule : HardRule)

/-- The specialist evaluates the check or the rule on the file, and it reports the finding. -/
def Cause.Reports (p : Policy) (specialist : String) (r : Routed) (content : String) (x : Finding) :
    Cause → Prop
  | .ofCheck c => c ∈ checksOf specialist ∧ c.guard r = true ∧
      x ∈ c.findings specialist r.file content
  | .ofRule rule => rule ∈ p.rulesOf specialist ∧ x ∈ rule.report p specialist r.file content

/-- Is it the added lines that are looked at, one by one or as one text? -/
def Cause.LooksAtAdded : Cause → Prop
  | .ofCheck c => c.trigger.isAddedLine = true ∨
      ∃ pattern cleared, c.trigger = .addedText pattern cleared
  | .ofRule rule => rule.target = .addedLines

/-- A check whose pattern the added lines have only together. -/
def Cause.Straddles (f : ChangedFile) : Cause → Prop
  | .ofCheck c => c.Straddles f
  | .ofRule _ => False

/-- **Each finding of a specialist has a cause.** -/
theorem exists_cause {p : Policy} {specialist : String} {routed : List Routed} {contents : Contents}
    {found : List Finding} (hfound : specialistFindings p specialist routed contents = .ok found)
    {x : Finding} (hx : x ∈ found) :
    ∃ r ∈ routed, ∃ cause : Cause,
      cause.Reports p specialist r (contents r.file.path) x := by
  obtain ⟨uncapped, huncapped, hcapped⟩ := bind_eq_ok.mp hfound
  obtain ⟨hard, hhard, hall⟩ := bind_eq_ok.mp huncapped
  obtain rfl := Except.ok.inj hcapped
  obtain rfl := Except.ok.inj hall
  rcases List.mem_append.mp (mem_of_mem_takeSigned hx) with hcheck | hrule
  · obtain ⟨r, hr, c, hc, hguard, hmem⟩ := mem_runChecks.mp hcheck
    exact ⟨r, hr, .ofCheck c, hc, hguard, hmem⟩
  · obtain ⟨perFile, hperFile, hhard⟩ := bind_eq_ok.mp hhard
    obtain rfl := Except.ok.inj hhard
    obtain ⟨lists, hlists, hx⟩ := List.mem_flatten.mp hrule
    obtain ⟨perRule, hperRule, rfl⟩ := List.mem_map.mp hlists
    obtain ⟨ys, hys, hx⟩ := List.mem_flatten.mp hx
    -- of the file and the rule of which the finding is
    obtain ⟨r, hr, hfile⟩ := exists_of_mapM_eq_ok hperFile hperRule
    obtain ⟨rule, hrule, heval⟩ := exists_of_mapM_eq_ok hfile hys
    exact ⟨r, hr, .ofRule rule, hrule, rule.eq_report_of_findings heval ▸ hx⟩

/-! ## The findings of a specialist -/

/-- Does the trigger look at the added lines as one text? -/
def Trigger.isAddedText : Trigger → Bool
  | .addedText _ _ => true
  | _ => false

/-- One built-in check looks at the added lines as one text. -/
theorem ruleId_of_isAddedText {specialist : String} {c : Check} (hc : c ∈ checksOf specialist)
    (ht : c.trigger.isAddedText = true) : c.ruleId = "logging-catch-no-log" := by
  have htable : ∀ s ∈ Specialist.all, ∀ c ∈ s.checks, c.trigger.isAddedText = true →
      c.ruleId = "logging-catch-no-log" := by decide +kernel
  unfold checksOf at hc
  split at hc
  · next s _ => exact htable s s.mem_all c hc ht
  · exact absurd hc List.not_mem_nil

/-- Unless its pattern straddles lines, what looks at added lines points at one. -/
theorem Cause.anchors {p : Policy} {specialist : String} {r : Routed} {content : String}
    {x : Finding} {cause : Cause} (hreports : cause.Reports p specialist r content x)
    (hlooks : cause.LooksAtAdded) (hadded : r.file.addedLines ≠ [])
    (hwhole : ¬ cause.Straddles r.file) : r.file.Anchors x := by
  cases cause with
  | ofCheck c =>
      obtain ⟨-, -, hx⟩ := hreports
      rcases hlooks with hline | ⟨pattern, cleared, ht⟩
      · exact c.anchors_of_isAddedLine hline hx
      · exact c.anchors_of_addedText ht hx hwhole
  | ofRule rule =>
      obtain ⟨-, hx⟩ := hreports
      exact rule.anchors_of_addedLines hlooks hadded hx

/-- A pattern that straddles lines is that of one check, which points at line one. -/
theorem Cause.line_of_straddles {p : Policy} {specialist : String} {r : Routed} {content : String}
    {x : Finding} {cause : Cause} (hreports : cause.Reports p specialist r content x)
    (hstraddles : cause.Straddles r.file) :
    x.ruleId = .text "logging-catch-no-log" ∧ x.file = .text r.file.path ∧ x.line = .int 1 := by
  cases cause with
  | ofRule rule => exact absurd hstraddles id
  | ofCheck c =>
      obtain ⟨hc, -, hx⟩ := hreports
      have htext : c.trigger.isAddedText = true := by
        obtain ⟨pattern, cleared, ht, -⟩ := hstraddles
        rw [ht]
        rfl
      obtain ⟨line, evidence, rfl⟩ := c.finding_of_mem hx
      refine ⟨?_, c.line_of_straddles hstraddles hx⟩
      rw [← ruleId_of_isAddedText hc htext]
      rfl

/-- **Findings about added lines.** Let a specialist report findings, by any name and under any
policy. Each of them comes from a built-in check or a hard rule on one of the files. Where that
looks at the added lines of the file and there are some, the finding points at one of them, which
has a position in every change in which the file is found, unless the pattern straddles lines. Only
the check of `catch` blocks has such a pattern, and then its finding points at line one of the file,
so at an added line just if line one is added. -/
theorem findings_on_added_lines {p : Policy} {specialist : String} {routed : List Routed}
    {contents : Contents} {found : List Finding}
    (hfound : specialistFindings p specialist routed contents = .ok found) :
    ∀ x ∈ found,
      (∃ r ∈ routed, ∃ cause : Cause, cause.Reports p specialist r (contents r.file.path) x) ∧
      ∀ r ∈ routed, ∀ cause : Cause, cause.Reports p specialist r (contents r.file.path) x →
        cause.LooksAtAdded → r.file.addedLines ≠ [] →
        (¬ cause.Straddles r.file →
          r.file.Anchors x ∧ ∀ files, fileAt? files (.text r.file.path) = some r.file →
            ∃ position, lineToPosition files x.file x.line = some position) ∧
        (cause.Straddles r.file →
          x.ruleId = .text "logging-catch-no-log" ∧ x.line = .int 1 ∧
            (r.file.Anchors x ↔ ∃ line ∈ r.file.addedLines, line.number = 1)) := by
  intro x hx
  refine ⟨exists_cause hfound hx, fun r _ cause hreports hlooks hadded => ⟨?_, ?_⟩⟩
  · intro hwhole
    have hanchors := cause.anchors hreports hlooks hadded hwhole
    exact ⟨hanchors, fun files hfile => exists_position_of_anchors hanchors hfile⟩
  · intro hstraddles
    obtain ⟨hid, hfile, hline⟩ := cause.line_of_straddles hreports hstraddles
    refine ⟨hid, hline, ?_, ?_⟩
    · rintro ⟨-, line, hmem, hnumber⟩
      refine ⟨line, hmem, ?_⟩
      rw [hline] at hnumber
      exact (Int.ofNat.inj (Document.int.inj hnumber)).symm
    · rintro ⟨line, hmem, hone⟩
      exact ⟨hfile, line, hmem, by rw [hline, hone]; rfl⟩

/-- The sample rule is violated by an added line, and its finding points there. -/
theorem findings_on_added_lines_sample :
    ∃ found x, specialistFindings samplePolicy "api-contract" [Routed.ofFile sampleFile]
        (fun _ => "") = .ok found ∧ x ∈ found ∧ sampleFile.Anchors x := by
  have hlength : (specialistFindings samplePolicy "api-contract" [Routed.ofFile sampleFile]
      (fun _ => "")).toOption.map List.length = some 1 := by decide +kernel
  obtain ⟨found, hfound, hone⟩ := Option.map_eq_some_iff.mp hlength
  obtain ⟨x, rfl⟩ := List.length_eq_one_iff.mp hone
  have hx : x ∈ [x] := List.mem_singleton.mpr rfl
  obtain ⟨⟨r, hr, cause, hreports⟩, hanchors⟩ :=
    findings_on_added_lines (eq_ok_of_toOption hfound) x hx
  obtain rfl := List.mem_singleton.mp hr
  refine ⟨[x], x, eq_ok_of_toOption hfound, hx, ?_⟩
  cases cause with
  | ofCheck c =>
      -- no built-in check of the specialist fires
      have hnone : (runChecks "api-contract" (checksOf "api-contract") [Routed.ofFile sampleFile]
          fun _ => "").isEmpty = true := by decide +kernel
      obtain ⟨hc, hguard, hmem⟩ := hreports
      have hrun : x ∈ runChecks "api-contract" (checksOf "api-contract") [Routed.ofFile sampleFile]
          fun _ => "" := mem_runChecks.mpr ⟨_, hr, c, hc, hguard, hmem⟩
      rw [List.isEmpty_iff.mp hnone] at hrun
      exact absurd hrun List.not_mem_nil
  | ofRule rule =>
      obtain rfl : rule = sampleRule :=
        List.mem_singleton.mp (List.mem_of_mem_filter hreports.1)
      exact ((hanchors _ hr _ hreports rfl (by decide +kernel)).1 id).1

/-! ## A match that straddles lines -/

/-- A file to which a `catch` is added whose parenthesis is on the next line. -/
def catchFile : ChangedFile where
  path := "src/app.ts"
  status := .modified
  hunks := [⟨"@@ -5 +5,3 @@", 5, 1, 5, 3, " run()\n+  .catch\n+  (report)"⟩]
  patch := "@@ -5 +5,3 @@\n run()\n+  .catch\n+  (report)"

/-- The finding about the `catch` in the lines six and seven points at a line that the patch does
not show. -/
theorem straddling_match_unanchored :
    parseFiles [] [.ofFields [("filename", .text catchFile.path), ("status", .text "modified"),
        ("patch", .text catchFile.patch)]] = .ok [catchFile] ∧
      catchFile.addedLines.map (·.number) = [6, 7] ∧
      ∃ found x, specialistFindings samplePolicy "logging-error" [Routed.ofFile catchFile]
          (fun _ => "") = .ok found ∧ x ∈ found ∧ x.ruleId = .text "logging-catch-no-log" ∧
        ¬ catchFile.Anchors x ∧ lineToPosition [catchFile] x.file x.line = none := by
  refine ⟨eq_ok_of_toOption (by decide +kernel), by decide +kernel, ?_⟩
  have hreported : (specialistFindings samplePolicy "logging-error" [Routed.ofFile catchFile]
      (fun _ => "")).toOption.map (List.map fun x =>
        (x.ruleId.isText "logging-catch-no-log", lineToPosition [catchFile] x.file x.line))
      = some [(true, none)] := by decide +kernel
  obtain ⟨found, hfound, hone⟩ := Option.map_eq_some_iff.mp hreported
  obtain ⟨x, rest, rfl, hx, hrest⟩ := List.map_eq_cons_iff.mp hone
  obtain ⟨hid, hnowhere⟩ := Prod.mk.inj hx
  refine ⟨x :: rest, x, eq_ok_of_toOption hfound, List.mem_cons_self .., ?_, fun hanchors => ?_,
    hnowhere⟩
  · exact isText_iff.mp hid
  · have hfile : fileAt? [catchFile] (.text catchFile.path) = some catchFile := rfl
    obtain ⟨position, hposition⟩ := exists_position_of_anchors hanchors hfile
    exact absurd (hnowhere.symm.trans hposition) (by simp)

end ReviewGate
