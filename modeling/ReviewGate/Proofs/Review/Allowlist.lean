import ReviewGate.Proofs.Document.Key
import ReviewGate.Proofs.Review.Total

/-!
# `ReviewGate.Proofs.Review.Allowlist` — what the allowlist keeps out of an analysis

Findings come from three places: from hard rules, from the built-in checks of the specialists, and
from outside, where soft rules are judged. The allowlist is about hard rules. Each of them asks it
before it looks at a file, so no finding of a hard rule is one that the allowlist excuses
(`excused_findings_origin`). Checks do not ask it, findings from outside are taken as they are, and
nothing is left out afterwards. So an entry that names no ids excuses every rule for its paths, and
findings about these paths may still be there (`excused_findings_remain`).

## Contents
- `Finding.IsExcused`: the allowlist excuses the rule of a finding for its file.
- `Policy.FoundByCheck`, `Policy.FoundByRule`: where findings come from.
- `HardRule.concerns_eq_true_iff`: the question that a hard rule asks.
- `excused_findings_origin`: where excused findings come from.
- `exists_reviewChanges`: a review with findings from outside comes about.
-/

namespace ReviewGate

open Diff

/-- The allowlist excuses the rule of the finding for its file. -/
def Finding.IsExcused (x : Finding) (p : Policy) : Prop :=
  ∃ path id, x.file = .text path ∧ x.ruleId = .text id ∧ isAllowlisted p path id = .ok true

section

variable (p : Policy) (files : List ChangedFile) (contents : Contents) (x : Finding)

/-- The finding is one of a built-in check of a specialist that runs, on a file that it sees. -/
def Policy.FoundByCheck : Prop :=
  ∃ s ∈ p.running, ∃ r ∈ (route files).bucket s, ∃ c ∈ s.checks,
    c.guard r = true ∧ x ∈ c.findings s.name r.file (contents r.file.path)

/-- The finding is one of a hard rule that a specialist which runs evaluates on a file that it sees,
and that violates the rule. -/
def Policy.FoundByRule : Prop :=
  ∃ s ∈ p.running, ∃ r ∈ (route files).bucket s, ∃ rule ∈ p.rulesOf s.name,
    ∃ n, rule.regex? = .ok (some n) ∧
      rule.isViolatedBy n (rule.text r.file (contents r.file.path)) = true ∧
      x = rule.finding s.name r.file.path (rule.lineOf n r.file (contents r.file.path))

end

/-- **A hard rule concerns the paths in its scope for which it is not excused.** -/
theorem HardRule.concerns_eq_true_iff {r : HardRule} {p : Policy} {path : String} :
    r.concerns p path = .ok true ↔
      Glob.matchesPath path r.scope = .ok true ∧ isAllowlisted p path r.id = .ok false := by
  unfold HardRule.concerns
  cases hscope : Glob.matchesPath path r.scope with
  | error fault => exact ⟨nofun, fun h => nomatch h.1⟩
  | ok inScope =>
      cases inScope with
      | false => exact ⟨nofun, fun h => nomatch h.1⟩
      | true =>
          cases hlist : isAllowlisted p path r.id with
          | error fault => exact ⟨nofun, fun h => nomatch h.2⟩
          | ok excused =>
              cases excused with
              | false => exact ⟨fun _ => ⟨rfl, rfl⟩, fun _ => rfl⟩
              | true => exact ⟨nofun, fun h => nomatch h.2⟩

variable {p : Policy} {files : List ChangedFile} {contents : Contents} {extra : List Finding}
  {x : Finding}

/-- What a hard rule reports is not excused. -/
theorem HardRule.not_isExcused_of_mem_report {r : HardRule} {specialist : String} {f : ChangedFile}
    {content : String} (hx : x ∈ r.report p specialist f content) : ¬x.IsExcused p := by
  obtain ⟨hconcerns, n, -, -, rfl⟩ := r.cause_of_mem_report hx
  obtain ⟨-, hlist⟩ := HardRule.concerns_eq_true_iff.mp hconcerns
  rintro ⟨path, id, hfile, hid, hexcused⟩
  -- path and id of the finding are those that the rule has asked about
  obtain rfl : f.path = path := Document.text.inj hfile
  obtain rfl : r.id = id := Document.text.inj hid
  rw [hlist] at hexcused
  cases hexcused

/-- What is found about files comes from a check, or from a hard rule that is not excused. -/
theorem origin_of_mem_reported (hx : x ∈ p.reported (route files) contents) :
    p.FoundByCheck files contents x ∨ p.FoundByRule files contents x ∧ ¬x.IsExcused p := by
  obtain ⟨s, hs, r, hr, ⟨c, hc, hguard, hcheck⟩ | ⟨rule, hrule, hreport⟩⟩ := mem_of_mem_reported hx
  · exact Or.inl ⟨s, hs, r, hr, c, hc, hguard, hcheck⟩
  · have hexcused := HardRule.not_isExcused_of_mem_report hreport
    obtain ⟨-, n, hnode, hviolated, hfinding⟩ := rule.cause_of_mem_report hreport
    exact Or.inr ⟨⟨s, hs, r, hr, rule, hrule, n, hnode, hviolated, hfinding⟩, hexcused⟩

/-- **Excused findings come from built-in checks or from outside.** Every finding of an analysis was
handed in, comes from a check, or comes from a hard rule, and then it is not excused. -/
theorem excused_findings_origin {usage : TokenUsage} {o : Outcome}
    (h : reviewChanges p files contents extra usage = .ok o) :
    ∀ y ∈ o.analysis.findings,
      (y ∈ extra ∨ p.FoundByCheck files contents y ∨
        p.FoundByRule files contents y ∧ ¬y.IsExcused p) ∧
      (y.IsExcused p → y ∈ extra ∨ p.FoundByCheck files contents y) := by
  obtain ⟨a, ha, ho⟩ := bind_eq_ok.mp h
  obtain ⟨review, -, ho⟩ := bind_eq_ok.mp ho
  have hanalysis : o.analysis = a := by
    rw [← Except.ok.inj ho]
  obtain ⟨-, rfl⟩ := analyze_eq_ok_iff.mp ha
  intro y hy
  rw [hanalysis, mem_synthesize] at hy
  have horigin : y ∈ extra ∨ p.FoundByCheck files contents y ∨
      p.FoundByRule files contents y ∧ ¬y.IsExcused p := by
    rcases List.mem_append.mp (mem_of_mem_dedupe hy) with hreported | hextra
    · exact Or.inr (origin_of_mem_reported hreported)
    · exact Or.inl hextra
  refine ⟨horigin, fun hexcused => ?_⟩
  obtain hextra | hcheck | ⟨-, hnot⟩ := horigin
  · exact Or.inl hextra
  · exact Or.inr hcheck
  · exact absurd hexcused hnot

/-- A usable policy leads to a review also with findings from outside that explain themselves with a
text and have line numbers that can be written. -/
theorem exists_reviewChanges (h : p.Usable) (hlines : LinesFit files contents)
    (hextra : ∀ y ∈ extra, (∃ s, y.explanation = .text s) ∧ y.line.spellable = true)
    (usage : TokenUsage) :
    ∃ o, reviewChanges p files contents extra usage = .ok o ∧
      o.analysis = synthesize (p.reported (route files) contents ++ extra) p.running.length
        usage := by
  have hanalysis := analyze_eq_ok_iff.mpr ⟨(h.evaluable files).succeeds_route,
    Eq.refl (synthesize (p.reported (route files) contents ++ extra) p.running.length usage)⟩
  have hshown : ∀ y ∈ (synthesize (p.reported (route files) contents ++ extra) p.running.length
      usage).findings, (∃ s, y.explanation = .text s) ∧ y.line.spellable = true := by
    intro y hy
    rcases List.mem_append.mp (mem_of_mem_dedupe (mem_synthesize.mp hy)) with hreported | houtside
    · exact ⟨exists_explanation_of_mem_reported h hreported,
        hlines.spellable_of_mem_reported hreported⟩
    · exact hextra y houtside
  obtain ⟨review, hreview, -⟩ :=
    exists_review (fun y hy => (hshown y hy).1) (fun y hy => (hshown y hy).2) files p.enforcement
  refine ⟨⟨files, _, review⟩, ?_, rfl⟩
  rw [reviewChanges, hanalysis, ok_bind, Outcome.ofAnalysis, hreview]
  rfl

/-! ## A generated file -/

/-- A generated file with a placeholder. -/
def generatedFile : ChangedFile := { sampleFile with path := "api/gen/types.go" }

/-- A policy with a rule against placeholders, which excuses all rules for generated files. -/
def generatedPolicy : Policy := { samplePolicy with allowlist := [⟨"api/gen/**", none, .null⟩] }

/-- A finding about that file from outside. -/
def generatedRemark : Finding where
  ruleId := .text "close-files"
  severity := .warning
  file := .text generatedFile.path
  line := .int 2
  title := .text "Open file"
  explanation := .text "The file is not closed."
  suggestion := .null
  category := .null
  agent := .null
  evidence := .null

theorem usable_generatedPolicy : generatedPolicy.Usable := by
  refine ⟨nofun, by decide +kernel, by decide +kernel, fun r hr => ?_, by decide +kernel,
    fun r hr => ?_⟩
  · have hcompiles : ∀ r ∈ [sampleRule], r.regex?.toOption.isSome = true := by decide +kernel
    exact exists_eq_ok (hcompiles r hr)
  · obtain rfl : r = sampleRule := List.mem_singleton.mp hr
    exact ⟨_, rfl⟩

theorem exists_generatedOutcome :
    ∃ o, reviewChanges generatedPolicy [generatedFile] (fun _ => "") [generatedRemark] .none = .ok o ∧
      o.analysis.findings = (synthesize
        (generatedPolicy.reported (route [generatedFile]) (fun _ => "") ++ [generatedRemark])
        generatedPolicy.running.length .none).findings := by
  have hremark : ∀ y ∈ [generatedRemark],
      (∃ s, y.explanation = .text s) ∧ y.line.spellable = true :=
    List.forall_mem_singleton.mpr ⟨⟨"The file is not closed.", rfl⟩, by decide +kernel⟩
  have hlines : LinesFit [generatedFile] fun _ => "" := by decide +kernel
  obtain ⟨o, ho, hanalysis⟩ := exists_reviewChanges usable_generatedPolicy hlines hremark .none
  exact ⟨o, ho, congrArg Analysis.findings hanalysis⟩

/-- All rules are excused for the file, so each of its findings is of a check or from outside. -/
theorem excused_findings_origin_sample :
    ∃ o, reviewChanges generatedPolicy [generatedFile] (fun _ => "") [generatedRemark] .none = .ok o ∧
      ∀ x ∈ o.analysis.findings, x.IsExcused generatedPolicy →
        x ∈ [generatedRemark] ∨ generatedPolicy.FoundByCheck [generatedFile] (fun _ => "") x := by
  obtain ⟨o, ho, -⟩ := exists_generatedOutcome
  exact ⟨o, ho, fun x hx => (excused_findings_origin ho x hx).2⟩

/-- A finding of a check and one from outside are excused, and both are in the analysis. -/
theorem excused_findings_remain :
    ∃ o, reviewChanges generatedPolicy [generatedFile] (fun _ => "") [generatedRemark] .none = .ok o ∧
      (∃ x ∈ o.analysis.findings,
        x.ruleId = .text "security-generated-file-edit" ∧ x.IsExcused generatedPolicy) ∧
      ∃ x ∈ o.analysis.findings, x.ruleId = .text "close-files" ∧ x.IsExcused generatedPolicy := by
  obtain ⟨o, ho, hfindings⟩ := exists_generatedOutcome
  have hfound : ∀ id ∈ ["security-generated-file-edit", "close-files"],
      ((dedupe (generatedPolicy.reported (route [generatedFile]) (fun _ => "") ++
        [generatedRemark])).any fun x =>
          x.ruleId.isText id && x.file.isText generatedFile.path) = true := by decide +kernel
  have hexcused : ∀ id ∈ ["security-generated-file-edit", "close-files"],
      (isAllowlisted generatedPolicy generatedFile.path id).toOption = some true := by
    decide +kernel
  have hremains : ∀ id ∈ ["security-generated-file-edit", "close-files"],
      ∃ x ∈ o.analysis.findings, x.ruleId = .text id ∧ x.IsExcused generatedPolicy := by
    intro id hid
    obtain ⟨x, hx, htexts⟩ := List.any_eq_true.mp (hfound id hid)
    rw [Bool.and_eq_true, isText_iff, isText_iff] at htexts
    refine ⟨x, ?_, htexts.1, _, _, htexts.2, htexts.1, eq_ok_of_toOption (hexcused id hid)⟩
    rw [hfindings, mem_synthesize]
    exact hx
  exact ⟨o, ho, hremains _ (List.mem_cons_self ..),
    hremains _ (List.mem_cons_of_mem _ (List.mem_cons_self ..))⟩

end ReviewGate
