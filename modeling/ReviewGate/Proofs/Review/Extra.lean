import ReviewGate.Proofs.Check.Run
import ReviewGate.Proofs.Finding.Rank

/-!
# `ReviewGate.Proofs.Review.Extra` — further findings beside those of the specialists

The findings of a model join those of the specialists before the merge, behind them. There they can
share keys with them, several times and at several severities. The merge gives such a key to the
gravest finding, and to the first of them among equals. So what the specialists found can only be
replaced by something graver.

## Contents
- `withKey_synthesize`: the findings with a key in an analysis.
- `extra_findings_suppress_nothing`: a run with further findings against the run without them.
-/

namespace ReviewGate

open Diff

/-- With each key there is at most one finding, so ranking does not matter for it. -/
theorem withKey_synthesize {xs : List Finding} {k : List (Option Document.Key)} {y : Finding}
    (h : withKey k (dedupe xs) = [y]) (n : Int) (u : TokenUsage) :
    withKey k (synthesize xs n u).findings = [y] := by
  have hrank : withKey k (rankFindings (dedupe xs)) = rankFindings (withKey k (dedupe xs)) :=
    filter_rankFindings _ _
  show withKey k (rankFindings (dedupe xs)) = [y]
  rw [hrank, h]
  exact List.mergeSort_singleton y

/-- **Further findings suppress nothing and downgrade nothing.** Whatever files each specialist sees,
* a run of a policy whose globs and patterns do not fail on these files succeeds;
* if the run without further findings succeeds, so does the run with them. For each finding of the
  former the latter has exactly one with its key, at least as grave; it is the very same finding
  unless a further one with the key is graver. -/
theorem extra_findings_suppress_nothing (p : Policy) (routing : Routing) (contents : Contents)
    (extra : List Finding) (usage spent : TokenUsage) :
    (∀ files, p.Evaluable files → (∀ s, ∀ r ∈ routing.bucket s, r.file ∈ files) →
      ∃ a, analyze p routing contents [] usage = .ok a) ∧
    ∀ a, analyze p routing contents [] usage = .ok a →
      ∃ b, analyze p routing contents extra spent = .ok b ∧
        ∀ x ∈ a.findings, ∃ y, withKey x.key b.findings = [y] ∧
          x.severity.rank ≤ y.severity.rank ∧
          ((∀ z ∈ extra, z.key = x.key → z.severity.rank ≤ x.severity.rank) → y = x) := by
  constructor
  · intro files hev hrouted
    exact ⟨_, analyze_eq_ok_iff.mpr ⟨hev.succeeds hrouted, rfl⟩⟩
  · intro a ha
    obtain ⟨hsucceeds, rfl⟩ := analyze_eq_ok_iff.mp ha
    refine ⟨_, analyze_eq_ok_iff.mpr ⟨hsucceeds, rfl⟩, fun x hx => ?_⟩
    rw [mem_synthesize, List.append_nil] at hx
    obtain ⟨y, hy, hrank, hsame⟩ := exists_withKey_dedupe_append hx extra
    exact ⟨y, withKey_synthesize hy _ _, hrank, hsame⟩

/-- A model's remark on the placeholder in the sample file. -/
def sampleRemark : Finding :=
  { sampleRule.finding "semantic" sampleFile.path 2 with severity := .info, evidence := .null }

/-- The run over the sample file has a finding with the key of the remark. -/
theorem sampleRemark_key_found :
    ∃ x ∈ dedupe (samplePolicy.reported (route [sampleFile]) fun _ => ""),
      x.key = sampleRemark.key := by
  obtain ⟨n, hn⟩ := sampleRule_firesOn
  have hline : sampleRule.regex?.toOption.join.map (sampleRule.lineOf · sampleFile "") = some 2 := by
    decide +kernel
  rw [hn.compiles] at hline
  have hsecond : sampleRule.lineOf n sampleFile "" = 2 := Option.some.inj hline
  have hfound : sampleRule.finding "security" sampleFile.path (sampleRule.lineOf n sampleFile "")
      ∈ samplePolicy.found [sampleFile] fun _ => "" :=
    (mem_found samplePolicy_evaluable).mpr ⟨.security, rfl, Routed.ofFile sampleFile,
      sampleFile_mem_bucket, Or.inr ⟨sampleRule, List.mem_singleton.mpr rfl, Or.inl rfl, n, hn, rfl⟩⟩
  rw [hsecond] at hfound
  have hreported := allFindings_eq_ok_iff.mp
    (allFindings_eq_found samplePolicy_evaluable samplePolicy_withinCaps)
  rw [hreported.2] at hfound
  obtain ⟨x, hx, hkey, _⟩ := exists_mem_dedupe hfound
  exact ⟨x, hx, hkey.trans rfl⟩

/-- The remark does not displace the finding of the rule. -/
theorem extra_findings_suppress_nothing_sample :
    ∃ a b x, analyze samplePolicy (route [sampleFile]) (fun _ => "") [] .none = .ok a ∧
      analyze samplePolicy (route [sampleFile]) (fun _ => "") [sampleRemark] ⟨7, 2⟩ = .ok b ∧
      x ∈ a.findings ∧ x.key = sampleRemark.key ∧ withKey sampleRemark.key b.findings = [x] := by
  obtain ⟨hrun, hextra⟩ := extra_findings_suppress_nothing samplePolicy (route [sampleFile])
    (fun _ => "") [sampleRemark] .none ⟨7, 2⟩
  obtain ⟨a, ha⟩ := hrun [sampleFile] samplePolicy_evaluable fun _ _ => file_mem_of_mem_bucket
  obtain ⟨b, hb, hall⟩ := hextra a ha
  obtain ⟨x, hx, hkey⟩ := sampleRemark_key_found
  have hmem : x ∈ a.findings := by
    rw [(analyze_eq_ok_iff.mp ha).2, mem_synthesize, List.append_nil]
    exact hx
  obtain ⟨y, hy, _, hsame⟩ := hall x hmem
  have hweak : ∀ z ∈ [sampleRemark], z.key = x.key → z.severity.rank ≤ x.severity.rank := by
    intro z hz _
    rw [List.mem_singleton.mp hz]
    cases x.severity <;> decide
  rw [hsame hweak, hkey] at hy
  exact ⟨a, b, x, ha, hb, hmem, hkey, hy⟩

end ReviewGate
