import ReviewGate.Proofs.Check.Run
import ReviewGate.Proofs.Document.Key
import ReviewGate.Proofs.Finding.Dedupe
import ReviewGate.Proofs.Loop
import ReviewGate.Proofs.Policy.Merge

/-!
# `ReviewGate.Proofs.Review.OncePerFile` — a violated hard rule is reported once

A hard rule for every category is evaluated by each specialist that sees the file, so a run finds
one violation up to six times. These copies have one key, because id, file, line and title come from
the rule and the file alone and not from the specialist. Merging therefore leaves one of them; all
are equally grave, so it is the first, that of the first specialist.

The proof looks at one rule and one file through the test `Finding.isOf`. The test depends on the
key alone, so it can be moved through the merge to the findings of the run, where the rule and the
file are picked out of the loops over specialists, files and rules.

## Contents
- `Policy.reporters`: the specialists that evaluate a rule on a file.
- `Finding.isOf`: is a finding about a rule and a file?
- `filter_found`: the copies of a violation in a run.
- `hard_rule_reported_once`: what is left of them in the analysis.
-/

namespace ReviewGate

open Diff

/-- The specialists that run, see the file and evaluate the rule, in the order in which they run. -/
def Policy.reporters (p : Policy) (r : HardRule) (f : ChangedFile) : List Specialist :=
  p.running.filter fun s =>
    (classifyPath f.path).specialists.contains s && r.category.admits s.name

/-- Is the finding about the rule with the given id and the file with the given path? -/
def Finding.isOf (ruleId path : String) (x : Finding) : Bool :=
  x.ruleId.isText ruleId && x.file.isText path

theorem Finding.isOf_iff {ruleId path : String} {x : Finding} :
    x.isOf ruleId path = true ↔ x.ruleId = .text ruleId ∧ x.file = .text path := by
  rw [Finding.isOf, Bool.and_eq_true, isText_iff, isText_iff]

/-- The test reads nothing but the key. -/
theorem Finding.isOf_eq_of_key {ruleId path : String} {x y : Finding} (h : x.key = y.key) :
    x.isOf ruleId path = y.isOf ruleId path := by
  have hrule : x.ruleId.key? = y.ruleId.key? := (List.cons.inj h).1
  have hfile : x.file.key? = y.file.key? := (List.cons.inj (List.cons.inj h).2).1
  unfold Finding.isOf
  rw [Bool.eq_iff_iff, Bool.and_eq_true, Bool.and_eq_true, isText_iff_key?, isText_iff_key?,
    isText_iff_key?, isText_iff_key?, hrule, hfile]

/-! ## The copies of a violation -/

section

variable {p : Policy} {files : List ChangedFile} (hev : p.Evaluable files) {contents : Contents}
  (hids : p.IdsApart) (hnd : (p.hardRules.map (·.id)).Nodup)
  (hpaths : (files.map (·.path)).Nodup)
  {r : HardRule} (hr : r ∈ p.hardRules) {f : ChangedFile} (hf : f ∈ files)

include hids hr in
/-- No built-in check reports anything under the id of a hard rule. -/
theorem filter_runChecks (s : Specialist) (routed : List Routed) :
    (runChecks s.name s.checks routed contents).filter (Finding.isOf r.id f.path) = [] := by
  refine List.filter_eq_nil_iff.mpr fun x hx hof => ?_
  obtain ⟨g, _, c, hc, _, hmem⟩ := mem_runChecks.mp hx
  obtain ⟨line, evidence, rfl⟩ := Check.finding_of_mem hmem
  have hid : Document.text c.ruleId = .text r.id := (Finding.isOf_iff.mp hof).1
  exact hids r hr s c hc (Document.text.inj hid).symm

include hev hnd hpaths hr hf in
/-- Another rule, or another file, gives no finding about this rule and this file. -/
theorem filter_report_of_ne {rule : HardRule} (hrule : rule ∈ p.hardRules) {g : ChangedFile}
    (hg : g ∈ files) (hne : rule ≠ r ∨ g ≠ f) (s : Specialist) :
    (rule.report p s.name g (contents g.path)).filter (Finding.isOf r.id f.path) = [] := by
  refine List.filter_eq_nil_iff.mpr fun x hx hof => ?_
  obtain ⟨n, _, rfl⟩ := (rule.mem_report hev hrule hg).mp hx
  obtain ⟨hid, hpath⟩ := Finding.isOf_iff.mp hof
  have hsame : rule = r := List.inj_on_of_nodup_map hnd hrule hr (Document.text.inj hid)
  have hfile : g = f := List.inj_on_of_nodup_map hpaths hg hf (Document.text.inj hpath)
  rcases hne with h | h
  · exact h hsame
  · exact h hfile

include hev hr hf in
/-- Every finding of the rule on the file is about the rule and the file. -/
theorem filter_report_self (s : Specialist) :
    (r.report p s.name f (contents f.path)).filter (Finding.isOf r.id f.path)
      = r.report p s.name f (contents f.path) := by
  refine List.filter_eq_self.mpr fun x hx => ?_
  obtain ⟨n, _, rfl⟩ := (r.mem_report hev hr hf).mp hx
  exact Finding.isOf_iff.mpr ⟨rfl, rfl⟩

include hev hnd hpaths hr hf in
/-- What a specialist's rules say about the rule and the file, when they are evaluated on it. -/
theorem filter_rules (s : Specialist) :
    ((p.rulesOf s.name).flatMap fun rule =>
        rule.report p s.name f (contents f.path)).filter (Finding.isOf r.id f.path)
      = if r.category.admits s.name then r.report p s.name f (contents f.path) else [] := by
  have hother : ∀ rule ∈ p.rulesOf s.name, rule ≠ r →
      (rule.report p s.name f (contents f.path)).filter (Finding.isOf r.id f.path) = [] :=
    fun rule hrule hne =>
      filter_report_of_ne hev hnd hpaths hr hf (mem_rulesOf.mp hrule).1 hf (Or.inl hne) s
  rw [List.filter_flatMap]
  by_cases hcat : r.category.admits s.name = true
  · have hmem : r ∈ p.rulesOf s.name := List.mem_filter.mpr ⟨hr, hcat⟩
    have hrules : (p.rulesOf s.name).Nodup := (List.Nodup.of_map _ hnd).filter _
    rw [if_pos hcat, flatMap_eq_of_nodup hrules hmem hother]
    exact filter_report_self hev hr hf s
  · rw [if_neg hcat, List.flatMap_eq_nil_iff]
    -- the rule is none of the specialist's
    exact fun rule hrule => hother rule hrule fun h => hcat (h ▸ (List.mem_filter.mp hrule).2)

include hev hids hnd hpaths hr hf in
/-- What a specialist finds about the rule and the file. -/
theorem filter_report (s : Specialist) :
    (p.report s ((route files).bucket s) contents).filter (Finding.isOf r.id f.path)
      = if (classifyPath f.path).specialists.contains s && r.category.admits s.name then
          r.report p s.name f (contents f.path)
        else [] := by
  have hother : ∀ g ∈ (route files).bucket s, g ≠ Routed.ofFile f →
      ((p.rulesOf s.name).flatMap fun rule =>
        rule.report p s.name g.file (contents g.file.path)).filter (Finding.isOf r.id f.path)
        = [] := by
    intro g hg hne
    obtain ⟨file, hfile, rfl, _⟩ := mem_bucket.mp hg
    have hfiles : file ≠ f := fun h => hne (h ▸ rfl)
    rw [List.filter_flatMap, List.flatMap_eq_nil_iff]
    exact fun rule hrule =>
      filter_report_of_ne hev hnd hpaths hr hf (mem_rulesOf.mp hrule).1 hfile (Or.inr hfiles) s
  rw [Policy.report, List.filter_append, filter_runChecks hids hr, List.nil_append,
    List.filter_flatMap]
  by_cases hsees : s ∈ (classifyPath f.path).specialists
  · have hmem : Routed.ofFile f ∈ (route files).bucket s := mem_bucket.mpr ⟨f, hf, rfl, hsees⟩
    rw [flatMap_eq_of_nodup (nodup_bucket hpaths s) hmem hother, Routed.ofFile_file,
      filter_rules hev hnd hpaths hr hf s, List.contains_iff_mem.mpr hsees, Bool.true_and]
  · have hnot : ¬ ((classifyPath f.path).specialists.contains s && r.category.admits s.name)
        = true := by
      rw [Bool.and_eq_true, List.contains_iff_mem]
      exact fun h => hsees h.1
    rw [if_neg hnot, List.flatMap_eq_nil_iff]
    -- the file is not in the specialist's bucket
    refine fun g hg => hother g hg fun h => hsees ?_
    obtain ⟨file, hfile, hgf, hs⟩ := mem_bucket.mp hg
    have hsame : f = file := congrArg Routed.file (h.symm.trans hgf)
    rw [hsame]
    exact hs

include hev hids hnd hpaths hr hf in
/-- **The copies.** About the rule and the file the run finds what each reporter finds. -/
theorem filter_found :
    (p.found files contents).filter (Finding.isOf r.id f.path)
      = (p.reporters r f).flatMap fun s => r.report p s.name f (contents f.path) := by
  rw [Policy.found, List.filter_flatMap, Policy.reporters, ← flatMap_ite_nil]
  exact List.flatMap_congr fun s _ => filter_report hev hids hnd hpaths hr hf s

end

/-! ## The one that is left -/

/-- Copies of a violation are merged into the first. -/
theorem dedupe_copies (r : HardRule) (path : String) (line : Nat) (ss : List Specialist) :
    dedupe (ss.map fun s => r.finding s.name path line)
      = (ss.head?.map fun s => r.finding s.name path line).toList := by
  have hcopy : ∀ x ∈ ss.map fun s => r.finding s.name path line,
      x.key = (r.finding "" path line).key ∧ x.severity = r.severity := by
    intro x hx
    obtain ⟨s, _, rfl⟩ := List.mem_map.mp hx
    exact ⟨rfl, rfl⟩
  rw [dedupe_of_key fun x hx => (hcopy x hx).1, gravest?_eq_head? fun x hx => (hcopy x hx).2,
    List.head?_map]

/-- **A violated hard rule is reported exactly once for a file**, by the first of the specialists
that evaluate it there; a rule that does not fire, or that nobody evaluates there, is not reported
for the file. -/
theorem hard_rule_reported_once {config : Document} {learned : List Document} {snapshot : Document}
    {mode : Option String} {p : Policy} (hload : loadPolicy config learned snapshot mode = .ok p)
    (hids : p.IdsApart) {files : List ChangedFile} (hpaths : (files.map (·.path)).Nodup)
    (hev : p.Evaluable files) {contents : Contents} (hcaps : p.WithinCaps files contents)
    (usage : TokenUsage) :
    ∃ a, analyze p (route files) contents [] usage = .ok a ∧
      ∀ r ∈ p.hardRules, ∀ f ∈ files,
        (∀ n, r.FiresOn p f (contents f.path) n → ∀ s, (p.reporters r f).head? = some s →
          a.findings.filter (Finding.isOf r.id f.path)
            = [r.finding s.name f.path (r.lineOf n f (contents f.path))]) ∧
        ((∀ n, ¬ r.FiresOn p f (contents f.path) n) ∨ p.reporters r f = [] →
          a.findings.filter (Finding.isOf r.id f.path) = []) := by
  refine ⟨synthesize (p.found files contents) p.running.length usage, ?_, fun r hr f hf => ?_⟩
  · rw [analyze_eq_synthesize hev hcaps, List.append_nil]
  have hnd : (p.hardRules.map (·.id)).Nodup := nodup_hardRules hload
  -- ranking permutes, and the test moves through the merge
  have hperm : ((synthesize (p.found files contents) p.running.length usage).findings.filter
      (Finding.isOf r.id f.path)).Perm
      (dedupe ((p.reporters r f).flatMap fun s => r.report p s.name f (contents f.path))) := by
    rw [← filter_found hev hids hnd hpaths hr hf,
      ← filter_dedupe fun x y h => Finding.isOf_eq_of_key h]
    exact (rankFindings_perm _).filter _
  constructor
  · intro n hn s hs
    have hcopies : ((p.reporters r f).flatMap fun s => r.report p s.name f (contents f.path))
        = (p.reporters r f).map fun s =>
            r.finding s.name f.path (r.lineOf n f (contents f.path)) := by
      rw [← List.flatMap_pure_eq_map]
      exact List.flatMap_congr fun s _ => r.report_of_firesOn hev hr hf hn
    rw [hcopies, dedupe_copies, hs] at hperm
    exact List.perm_singleton.mp hperm
  · intro hnone
    have hcopies : ((p.reporters r f).flatMap fun s => r.report p s.name f (contents f.path))
        = [] := by
      rcases hnone with hn | hs
      · exact List.flatMap_eq_nil_iff.mpr fun s _ => r.report_of_not_firesOn hev hr hf hn
      · rw [hs]
        rfl
    rw [hcopies] at hperm
    exact List.perm_nil.mp hperm

/-- The placeholder in the sample file is reported once, by the first specialist. -/
theorem hard_rule_reported_once_sample :
    ∃ a line, analyze samplePolicy (route [sampleFile]) (fun _ => "") [] ⟨0, 0⟩ = .ok a ∧
      a.findings.filter (Finding.isOf sampleRule.id sampleFile.path)
        = [sampleRule.finding "security" sampleFile.path line] := by
  have hpaths : ([sampleFile].map (·.path)).Nodup := List.nodup_singleton _
  obtain ⟨a, ha, honce⟩ := hard_rule_reported_once loadPolicy_sampleConfig samplePolicy_idsApart
    hpaths samplePolicy_evaluable samplePolicy_withinCaps ⟨0, 0⟩
  obtain ⟨n, hn⟩ := sampleRule_firesOn
  have hfirst : (samplePolicy.reporters sampleRule sampleFile).head? = some .security := by
    decide +kernel
  have hrule := honce sampleRule (List.mem_singleton.mpr rfl) sampleFile (List.mem_singleton.mpr rfl)
  exact ⟨a, _, ha, hrule.1 n hn .security hfirst⟩

end ReviewGate
