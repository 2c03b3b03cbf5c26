import ReviewGate.Proofs.Check.Run
import ReviewGate.Proofs.Finding.Dedupe
import ReviewGate.Proofs.Policy.Merge
import ReviewGate.Review.Pipeline

/-!
# `ReviewGate.Proofs.Review.Gate` — what decides a review

The event of a review is read off the ranked findings at the end of a run. On the way there
findings are merged, and a merge keeps only the gravest finding with a key. So a blocking finding
could be lost to a graver one on which the policy does not block. It is not, because a key stands
for one severity: the findings with a key come from one built-in check or from one hard rule, as
long as no hard rule borrows the id of a check (`severity_of_key`).

## Contents
- `Policy.Fires`: a check or a rule, of certain severities, fires for some specialist that runs.
- `found_severity_iff`, `severity_of_key`: findings and what fires.
- `review_gate`: the event, decided by what fires.
-/

namespace ReviewGate

open Diff

/-- For some specialist that runs and some file that it sees, a built-in check or a hard rule with
a severity in `P` fires. -/
def Policy.Fires (p : Policy) (files : List ChangedFile) (contents : Contents)
    (P : Severity → Prop) : Prop :=
  ∃ s, (p.agents s).enabled = true ∧ ∃ r ∈ (route files).bucket s,
    (∃ c ∈ s.checks, P c.severity ∧ c.FiresOn r (contents r.file.path)) ∨
    (∃ rule ∈ p.hardRules, P rule.severity ∧ (rule.category = .any ∨ rule.category = .only s) ∧
      ∃ n, rule.FiresOn p r.file (contents r.file.path) n)

section

variable {p : Policy} {files : List ChangedFile} (hev : p.Evaluable files) {contents : Contents}
include hev

/-- There are findings of certain severities exactly if checks or rules of these severities
fire. -/
theorem found_severity_iff (P : Severity → Prop) :
    (∃ x ∈ p.found files contents, P x.severity) ↔ p.Fires files contents P := by
  constructor
  · rintro ⟨x, hx, hP⟩
    obtain ⟨s, hs, r, hr, ⟨c, hc, hguard, hmem⟩ | ⟨rule, hrule, hcat, n, hn, rfl⟩⟩ :=
      (mem_found hev).mp hx
    · obtain ⟨line, evidence, rfl⟩ := Check.finding_of_mem hmem
      exact ⟨s, hs, r, hr, Or.inl ⟨c, hc, hP, hguard, Check.exists_mem_findings.mp ⟨_, hmem⟩⟩⟩
    · exact ⟨s, hs, r, hr, Or.inr ⟨rule, hrule, hP, hcat, n, hn⟩⟩
  · rintro ⟨s, hs, r, hr, ⟨c, hc, hP, hguard, hholds⟩ | ⟨rule, hrule, hP, hcat, n, hn⟩⟩
    · have hx : ∃ x, x ∈ c.findings s.name r.file (contents r.file.path) :=
        Check.exists_mem_findings.mpr hholds
      obtain ⟨x, hmem⟩ := hx
      obtain ⟨line, evidence, rfl⟩ := Check.finding_of_mem hmem
      exact ⟨_, (mem_found hev).mpr ⟨s, hs, r, hr, Or.inl ⟨c, hc, hguard, hmem⟩⟩, hP⟩
    · exact ⟨_, (mem_found hev).mpr ⟨s, hs, r, hr, Or.inr ⟨rule, hrule, hcat, n, hn, rfl⟩⟩, hP⟩

/-- The rule id of a finding is that of a built-in check or of a hard rule, which gives it its
severity. -/
theorem found_ruleId {x : Finding} (hx : x ∈ p.found files contents) :
    (∃ s : Specialist, ∃ c ∈ s.checks, x.ruleId = .text c.ruleId ∧ x.severity = c.severity) ∨
    (∃ rule ∈ p.hardRules, x.ruleId = .text rule.id ∧ x.severity = rule.severity) := by
  obtain ⟨s, _, r, _, ⟨c, hc, _, hmem⟩ | ⟨rule, hrule, _, n, _, rfl⟩⟩ := (mem_found hev).mp hx
  · obtain ⟨line, evidence, rfl⟩ := Check.finding_of_mem hmem
    exact Or.inl ⟨s, c, hc, rfl, rfl⟩
  · exact Or.inr ⟨rule, hrule, rfl, rfl⟩

/-- **The key of a finding determines its severity.** -/
theorem severity_of_key (hids : p.IdsApart) (hnd : (p.hardRules.map (·.id)).Nodup) {x y : Finding}
    (hx : x ∈ p.found files contents) (hy : y ∈ p.found files contents) (hkey : x.key = y.key) :
    x.severity = y.severity := by
  have hid : x.ruleId.key? = y.ruleId.key? := (List.cons.inj hkey).1
  -- the ids of checks and rules are apart, so both come from checks or both from one rule
  rcases found_ruleId hev hx with ⟨s, c, hc, hxid, hxs⟩ | ⟨a, ha, hxid, hxs⟩ <;>
    rcases found_ruleId hev hy with ⟨t, d, hd, hyid, hys⟩ | ⟨b, hb, hyid, hys⟩ <;>
    rw [hxid, hyid] at hid <;>
    injection Option.some.inj hid with hid
  · rw [hxs, hys]
    exact Check.severity_of_ruleId hc hd hid
  · exact absurd hid.symm (hids b hb s c hc)
  · exact absurd hid (hids a ha t d hd)
  · have hab : a = b := List.inj_on_of_nodup_map hnd ha hb hid
    rw [hxs, hys, hab]

end

/-! ## The event -/

theorem decideEvent_eq_approve {e : Enforcement} {xs : List Finding} :
    decideEvent e xs = .approve ↔ xs = [] := by
  unfold decideEvent
  cases xs with
  | nil => exact ⟨fun _ => rfl, fun _ => rfl⟩
  | cons x rest =>
      refine ⟨fun h => ?_, nofun⟩
      rw [if_neg (by simp)] at h
      split at h <;> exact ReviewEvent.noConfusion h

theorem decideEvent_eq_requestChanges {e : Enforcement} {xs : List Finding} :
    decideEvent e xs = .requestChanges ↔
      e.mode = "enforce" ∧ ∃ x ∈ xs, x.severity ∈ e.blockOn := by
  unfold decideEvent Enforcement.blocks
  cases xs with
  | nil => simp
  | cons x rest =>
      rw [if_neg (by simp)]
      by_cases h : (e.mode == "enforce" && (x :: rest).any fun f => e.blockOn.contains f.severity)
          = true
      · rw [if_pos h]
        refine ⟨fun _ => ?_, fun _ => rfl⟩
        simpa only [Bool.and_eq_true, beq_iff_eq, List.any_eq_true, List.contains_iff_mem] using h
      · rw [if_neg h]
        refine ⟨nofun, fun hblock => absurd ?_ h⟩
        simpa only [Bool.and_eq_true, beq_iff_eq, List.any_eq_true, List.contains_iff_mem]
          using hblock

/-- **The review gate.** Let a policy be loaded, with no hard rule under the id of a built-in check,
and let no specialist that runs find more than its limit allows in the files, whether they were read
from records or not. Then a review without further findings comes about, and
* an enforcing policy requests changes exactly if a check or a rule of a severity on which it blocks
  fires;
* the change is approved exactly if nothing fires;
* a policy that only warns never requests changes. -/
theorem review_gate {config : Document} {learned : List Document} {snapshot : Document}
    {mode : Option String} {p : Policy} (hload : loadPolicy config learned snapshot mode = .ok p)
    (hids : p.IdsApart) {files : List ChangedFile} (hev : p.Evaluable files) {contents : Contents}
    (hcaps : p.WithinCaps files contents) (usage : TokenUsage) :
    ∃ a, analyze p (route files) contents [] usage = .ok a ∧
      (p.enforcement.mode = "enforce" →
        (decideEvent p.enforcement a.findings = .requestChanges ↔
          p.Fires files contents (· ∈ p.enforcement.blockOn))) ∧
      (decideEvent p.enforcement a.findings = .approve ↔
        ¬ p.Fires files contents fun _ => True) ∧
      (p.enforcement.mode = "warn" →
        decideEvent p.enforcement a.findings ≠ .requestChanges) := by
  have hdet : ∀ x ∈ p.found files contents, ∀ y ∈ p.found files contents,
      x.key = y.key → x.severity = y.severity :=
    fun x hx y hy => severity_of_key hev hids (nodup_hardRules hload) hx hy
  -- the merge keeps every severity, and ranking keeps everything
  have hsev : ∀ P : Severity → Prop,
      (∃ x ∈ (synthesize (p.found files contents) p.running.length usage).findings, P x.severity)
        ↔ p.Fires files contents P := by
    intro P
    simp only [mem_synthesize]
    exact (exists_severity_dedupe hdet P).trans (found_severity_iff hev P)
  refine ⟨synthesize (p.found files contents) p.running.length usage, ?_, ?_, ?_, ?_⟩
  · rw [analyze_eq_synthesize hev hcaps, List.append_nil]
  · intro hmode
    rw [decideEvent_eq_requestChanges, ← hsev]
    exact and_iff_right hmode
  · rw [decideEvent_eq_approve, ← hsev, List.eq_nil_iff_forall_not_mem]
    exact ⟨fun h ⟨x, hx, _⟩ => h x hx, fun h x hx => h ⟨x, hx, trivial⟩⟩
  · intro hmode hreq
    have henforce := (decideEvent_eq_requestChanges.mp hreq).1
    rw [hmode] at henforce
    exact absurd henforce (by decide)

/-- The sample policy requests changes to a file with a placeholder. -/
theorem review_gate_sample :
    ∃ a, analyze samplePolicy (route [sampleFile]) (fun _ => "") [] ⟨0, 0⟩ = .ok a ∧
      decideEvent samplePolicy.enforcement a.findings = .requestChanges := by
  obtain ⟨a, ha, henforce, _, _⟩ := review_gate loadPolicy_sampleConfig samplePolicy_idsApart
    samplePolicy_evaluable samplePolicy_withinCaps ⟨0, 0⟩
  refine ⟨a, ha, (henforce rfl).mpr ?_⟩
  -- the rule against placeholders fires for the first specialist
  exact ⟨.security, rfl, Routed.ofFile sampleFile, sampleFile_mem_bucket, Or.inr ⟨sampleRule,
    List.mem_singleton.mpr rfl, List.mem_singleton.mpr rfl, Or.inl rfl, sampleRule_firesOn⟩⟩

end ReviewGate
