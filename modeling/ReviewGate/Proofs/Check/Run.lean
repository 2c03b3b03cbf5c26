import ReviewGate.Proofs.Check.Success
import ReviewGate.Proofs.Policy.Merge

/-!
# `ReviewGate.Proofs.Check.Run` — what a run of the specialists reports

A run can fail only where a glob or a pattern fails. For an evaluable policy it is a pure list: the
specialists in their order, for each its built-in checks over all files, then its hard rules file by
file, cut off at the specialist's limit. Where no limit is reached the cut disappears and the list
is `Policy.found`.

## Contents
- `Policy.IdsApart`: hard rules and built-in checks have different ids.
- `Policy.WithinCaps`, `Policy.found`, `reported_eq_found`: what all specialists find.
- `allFindings_eq_found`, `analyze_eq_synthesize`: a run of an evaluable policy.
- `mem_found`: a finding comes from a check or a hard rule that fires.
- `sampleFile`: a file that violates the sample policy.
-/

namespace ReviewGate

open Diff

/-! ## All specialists -/

/-- No hard rule has the id of a built-in check. -/
def Policy.IdsApart (p : Policy) : Prop :=
  ∀ rule ∈ p.hardRules, ∀ s : Specialist, ∀ c ∈ s.checks, rule.id ≠ c.ruleId

/-- No specialist that runs finds more than its limit allows. -/
def Policy.WithinCaps (p : Policy) (files : List ChangedFile) (contents : Contents) : Prop :=
  ∀ s : Specialist, (p.agents s).enabled = true → ∀ found,
    uncappedFindings p s.name ((route files).bucket s) contents = .ok found →
    (found.length : Int) ≤ (p.agents s).maxFindings

/-- What the specialists that run find before their limits apply, if nothing fails. -/
def Policy.found (p : Policy) (files : List ChangedFile) (contents : Contents) : List Finding :=
  p.running.flatMap fun s => p.report s ((route files).bucket s) contents

/-- Nothing is cut off where no more is found than the limit allows. -/
theorem takeSigned_of_length_le {α : Type} {n : Int} {items : List α}
    (h : (items.length : Int) ≤ n) : takeSigned n items = items := by
  have hn : ¬ n < 0 := by omega
  rw [takeSigned, if_neg hn]
  exact List.take_of_length_le (by omega)

/-- **Where no limit is reached, all that is found is reported.** -/
theorem reported_eq_found {p : Policy} {files : List ChangedFile} {contents : Contents}
    (hsucceeds : p.Succeeds (route files) contents) (hcaps : p.WithinCaps files contents) :
    p.reported (route files) contents = p.found files contents := by
  unfold Policy.reported Policy.found
  refine List.flatMap_congr fun s hs => takeSigned_of_length_le ?_
  exact hcaps s (mem_running.mp hs) _ (uncappedFindings_eq_ok_iff.mpr ⟨hsucceeds s hs, rfl⟩)

section

variable {p : Policy} {files : List ChangedFile} (hev : p.Evaluable files) {contents : Contents}
include hev

theorem Policy.Evaluable.succeeds_route : p.Succeeds (route files) contents :=
  hev.succeeds fun _ _ => file_mem_of_mem_bucket

variable (hcaps : p.WithinCaps files contents)
include hcaps

theorem allFindings_eq_found :
    allFindings p (route files) contents = .ok (p.found files contents) := by
  have hsucceeds : p.Succeeds (route files) contents := hev.succeeds_route
  exact allFindings_eq_ok_iff.mpr ⟨hsucceeds, (reported_eq_found hsucceeds hcaps).symm⟩

theorem analyze_eq_synthesize (extra : List Finding) (usage : TokenUsage) :
    analyze p (route files) contents extra usage
      = .ok (synthesize (p.found files contents ++ extra) p.running.length usage) := by
  have hsucceeds : p.Succeeds (route files) contents := hev.succeeds_route
  rw [← reported_eq_found hsucceeds hcaps]
  exact analyze_eq_ok_iff.mpr ⟨hsucceeds, rfl⟩

end

/-- **Each finding comes from a built-in check or a hard rule that fires** on a file that the
specialist sees. -/
theorem mem_found {p : Policy} {files : List ChangedFile} (hev : p.Evaluable files)
    {contents : Contents} {x : Finding} :
    x ∈ p.found files contents ↔
      ∃ s, (p.agents s).enabled = true ∧ ∃ r ∈ (route files).bucket s,
        (∃ c ∈ s.checks, c.guard r = true ∧
          x ∈ c.findings s.name r.file (contents r.file.path)) ∨
        (∃ rule ∈ p.hardRules, (rule.category = .any ∨ rule.category = .only s) ∧
          ∃ n, rule.FiresOn p r.file (contents r.file.path) n ∧
            x = rule.finding s.name r.file.path
              (rule.lineOf n r.file (contents r.file.path))) := by
  simp only [Policy.found, Policy.report, List.mem_flatMap, List.mem_append, mem_runChecks,
    mem_running, mem_rulesOf]
  refine exists_congr fun s => and_congr_right fun _ => ?_
  constructor
  · rintro (⟨r, hr, hcheck⟩ | ⟨r, hr, rule, ⟨hrule, hcat⟩, hx⟩)
    · exact ⟨r, hr, Or.inl hcheck⟩
    · exact ⟨r, hr, Or.inr ⟨rule, hrule, hcat,
        (rule.mem_report hev hrule (file_mem_of_mem_bucket hr)).mp hx⟩⟩
  · rintro ⟨r, hr, hcheck | ⟨rule, hrule, hcat, hx⟩⟩
    · exact Or.inl ⟨r, hr, hcheck⟩
    · exact Or.inr ⟨r, hr, rule, ⟨hrule, hcat⟩,
        (rule.mem_report hev hrule (file_mem_of_mem_bucket hr)).mpr hx⟩

/-! ## A small run -/

/-- A file with a placeholder in its second line. -/
def sampleFile : ChangedFile where
  path := "store/user_test.go"
  status := .modified
  hunks := [⟨"@@ -1 +1,2 @@", 1, 1, 1, 2, " package store\n+// TODO"⟩]
  patch := "@@ -1 +1,2 @@\n package store\n+// TODO"

theorem samplePolicy_idsApart : samplePolicy.IdsApart := by
  have hids : ∀ rule ∈ samplePolicy.hardRules, ∀ s ∈ Specialist.all, ∀ c ∈ s.checks,
      rule.id ≠ c.ruleId := by decide +kernel
  exact fun rule hrule s c hc => hids rule hrule s s.mem_all c hc

theorem samplePolicy_evaluable : samplePolicy.Evaluable [sampleFile] := by
  refine ⟨?_, ?_, ?_⟩
  · intro rule hrule f hf
    rw [List.mem_singleton.mp hrule, List.mem_singleton.mp hf]
    exact exists_eq_ok (by decide +kernel)
  · intro e he f hf
    rw [List.mem_singleton.mp he, List.mem_singleton.mp hf]
    exact exists_eq_ok (by decide +kernel)
  · intro rule hrule
    rw [List.mem_singleton.mp hrule]
    exact exists_eq_ok (by decide +kernel)

theorem samplePolicy_withinCaps : samplePolicy.WithinCaps [sampleFile] fun _ => "" := by
  intro s _ found hfound
  have hlength : ∀ s ∈ Specialist.all,
      ((uncappedFindings samplePolicy s.name ((route [sampleFile]).bucket s)
        fun _ => "").toOption.map List.length).getD 0 ≤ 50 := by decide +kernel
  have hs := hlength s s.mem_all
  rw [hfound] at hs
  exact Int.ofNat_le.mpr hs

theorem sampleFile_mem_bucket :
    Routed.ofFile sampleFile ∈ (route [sampleFile]).bucket .security :=
  mem_bucket.mpr ⟨sampleFile, List.mem_singleton.mpr rfl, rfl, by decide +kernel⟩

theorem sampleRule_firesOn : ∃ n, sampleRule.FiresOn samplePolicy sampleFile "" n := by
  have hnode : sampleRule.regex?.toOption.join.map
      (sampleRule.isViolatedBy · (sampleRule.text sampleFile "")) = some true := by decide +kernel
  obtain ⟨n, hn, hviolated⟩ := Option.map_eq_some_iff.mp hnode
  have hcompiles : sampleRule.regex?.toOption = some (some n) := Option.join_eq_some_iff.mp hn
  refine ⟨n, eq_ok_of_toOption hcompiles, ?_, ?_, hviolated⟩
  · exact eq_ok_of_toOption (by decide +kernel)
  · rintro ⟨e, he, hmatch, _⟩
    rw [List.mem_singleton.mp he] at hmatch
    exact absurd (congrArg Except.toOption hmatch) (by decide +kernel)

end ReviewGate
