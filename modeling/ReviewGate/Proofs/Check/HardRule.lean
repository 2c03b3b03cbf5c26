import ReviewGate.Check.HardRule

/-!
# `ReviewGate.Proofs.Check.HardRule` — when a hard rule reports something

A hard rule fires on a file if its pattern is valid, its scope covers the path, no entry of the
allowlist excuses it there, and the text that it looks at violates it. Evaluating it can also fail:
a glob may stand for too many alternatives, a pattern may break a limit of the regular expressions
themselves. `Policy.Evaluable` says that this does not happen for the files of a change. For such a
policy every rule gives one finding where it fires and none elsewhere.

## Contents
- `Policy.Excuses`, `HardRule.FiresOn`: when a rule fires.
- `Policy.Evaluable`: nothing about the rules fails.
- `HardRule.report`, `HardRule.findings_eq_report`: the findings of a rule without failures.
- `HardRule.report_of_firesOn`, `HardRule.mem_report`: they are there exactly if the rule fires.
-/

namespace ReviewGate

open Diff

/-- An entry of the allowlist excuses the rule for the path. -/
def Policy.Excuses (p : Policy) (path ruleId : String) : Prop :=
  ∃ e ∈ p.allowlist, Glob.matchesPath path e.path = .ok true ∧ e.excuses ruleId = true

/-- The rule, whose pattern is `n`, fires on a file with the given text. -/
structure HardRule.FiresOn (r : HardRule) (p : Policy) (f : ChangedFile) (content : String)
    (n : Regex.Node) : Prop where
  compiles : r.regex? = .ok (some n)
  inScope : Glob.matchesPath f.path r.scope = .ok true
  notExcused : ¬ p.Excuses f.path r.id
  violated : r.isViolatedBy n (r.text f content) = true

/-- No glob and no pattern of the policy's hard rules fails on the files. A pattern may be invalid:
its rule is passed over. -/
structure Policy.Evaluable (p : Policy) (files : List ChangedFile) : Prop where
  scope : ∀ r ∈ p.hardRules, ∀ f ∈ files, ∃ b, Glob.matchesPath f.path r.scope = .ok b
  allowlist : ∀ e ∈ p.allowlist, ∀ f ∈ files, ∃ b, Glob.matchesPath f.path e.path = .ok b
  pattern : ∀ r ∈ p.hardRules, ∃ n, r.regex? = .ok n

/-! ## Scope and allowlist -/

/-- The entries are tried in order, but only whether one of them excuses the rule counts. -/
theorem excusedBy_ok {path ruleId : String} {entries : List AllowlistEntry}
    (h : ∀ e ∈ entries, ∃ b, Glob.matchesPath path e.path = .ok b) :
    ∃ b, excusedBy path ruleId entries = .ok b ∧
      (b = true ↔
        ∃ e ∈ entries, Glob.matchesPath path e.path = .ok true ∧ e.excuses ruleId = true) := by
  induction entries with
  | nil => exact ⟨false, rfl, by simp⟩
  | cons e rest ih =>
      obtain ⟨c, hc⟩ := h e (List.mem_cons_self ..)
      obtain ⟨b, hb, hiff⟩ := ih fun e he => h e (List.mem_cons_of_mem _ he)
      have hstep : excusedBy path ruleId (e :: rest)
          = if c && e.excuses ruleId then .ok true else excusedBy path ruleId rest := by
        rw [excusedBy, hc]
        rfl
      -- either the first entry excuses the rule, or it does not count
      by_cases hhit : (c && e.excuses ruleId) = true
      · rw [hstep, if_pos hhit]
        rw [Bool.and_eq_true] at hhit
        refine ⟨true, rfl, fun _ => ⟨e, List.mem_cons_self .., ?_, hhit.2⟩, fun _ => rfl⟩
        rw [hc, hhit.1]
      · rw [hstep, if_neg hhit]
        refine ⟨b, hb, hiff.trans ⟨?_, ?_⟩⟩
        · rintro ⟨d, hd, hmatch⟩
          exact ⟨d, List.mem_cons_of_mem _ hd, hmatch⟩
        · rintro ⟨d, hd, hmatch, hexc⟩
          rcases List.mem_cons.mp hd with rfl | hr
          · rw [hmatch] at hc
            injection hc with hct
            exact absurd (by rw [← hct, hexc]; rfl) hhit
          · exact ⟨d, hr, hmatch, hexc⟩

theorem Policy.Evaluable.isAllowlisted_ok {p : Policy} {files : List ChangedFile}
    (hev : p.Evaluable files) {f : ChangedFile} (hf : f ∈ files) (ruleId : String) :
    ∃ b, isAllowlisted p f.path ruleId = .ok b ∧ (b = true ↔ p.Excuses f.path ruleId) :=
  excusedBy_ok fun e he => hev.allowlist e he f hf

/-- A rule concerns a path that its scope covers and for which it is not excused. -/
theorem HardRule.concerns_ok {p : Policy} {files : List ChangedFile} (hev : p.Evaluable files)
    {r : HardRule} (hr : r ∈ p.hardRules) {f : ChangedFile} (hf : f ∈ files) :
    ∃ b, r.concerns p f.path = .ok b ∧
      (b = true ↔ Glob.matchesPath f.path r.scope = .ok true ∧ ¬ p.Excuses f.path r.id) := by
  obtain ⟨c, hc⟩ := hev.scope r hr f hf
  obtain ⟨a, ha, hiff⟩ := hev.isAllowlisted_ok hf r.id
  have hstep : r.concerns p f.path = if c then .ok (!a) else .ok false := by
    rw [HardRule.concerns, hc, ha]
    cases c <;> rfl
  cases c with
  | false => exact ⟨false, hstep, by simp [hc]⟩
  | true => exact ⟨!a, hstep, by rw [hc, ← hiff]; simp⟩

/-! ## The findings of a rule -/

/-- What the rule reports for a file; nothing if its evaluation fails. -/
def HardRule.report (r : HardRule) (p : Policy) (specialist : String) (f : ChangedFile)
    (content : String) : List Finding :=
  match r.findings p specialist f content with
  | .ok found => found
  | .error _ => []

section

variable {p : Policy} {files : List ChangedFile} (hev : p.Evaluable files)
  {r : HardRule} (hr : r ∈ p.hardRules) {f : ChangedFile} (hf : f ∈ files)
  {specialist content : String} {n : Regex.Node}
include hev hr hf

/-- **A rule that fires gives one finding.** -/
theorem HardRule.findings_of_firesOn (h : r.FiresOn p f content n) :
    r.findings p specialist f content
      = .ok [r.finding specialist f.path (r.lineOf n f content)] := by
  obtain ⟨b, hb, hiff⟩ := r.concerns_ok hev hr hf
  rw [hiff.mpr ⟨h.inScope, h.notExcused⟩] at hb
  rw [HardRule.findings, hb, h.compiles]
  exact if_pos h.violated

/-- **A rule that does not fire gives none.** -/
theorem HardRule.findings_of_not_firesOn (h : ∀ n, ¬ r.FiresOn p f content n) :
    r.findings p specialist f content = .ok [] := by
  obtain ⟨b, hb, hiff⟩ := r.concerns_ok hev hr hf
  obtain ⟨o, ho⟩ := hev.pattern r hr
  cases b with
  | false => rw [HardRule.findings, hb]; rfl
  | true =>
      obtain ⟨hscope, hexc⟩ := hiff.mp rfl
      cases o with
      | none => rw [HardRule.findings, hb, ho]; rfl
      | some n =>
          have hviol : ¬ r.isViolatedBy n (r.text f content) = true :=
            fun hv => h n ⟨ho, hscope, hexc, hv⟩
          rw [HardRule.findings, hb, ho]
          exact if_neg hviol

theorem HardRule.findings_eq_report :
    r.findings p specialist f content = .ok (r.report p specialist f content) := by
  unfold HardRule.report
  by_cases h : ∃ n, r.FiresOn p f content n
  · obtain ⟨n, hn⟩ := h
    rw [r.findings_of_firesOn hev hr hf hn]
  · rw [r.findings_of_not_firesOn hev hr hf fun n hn => h ⟨n, hn⟩]

theorem HardRule.report_of_firesOn (h : r.FiresOn p f content n) :
    r.report p specialist f content = [r.finding specialist f.path (r.lineOf n f content)] := by
  rw [HardRule.report, r.findings_of_firesOn hev hr hf h]

theorem HardRule.report_of_not_firesOn (h : ∀ n, ¬ r.FiresOn p f content n) :
    r.report p specialist f content = [] := by
  rw [HardRule.report, r.findings_of_not_firesOn hev hr hf h]

theorem HardRule.mem_report {x : Finding} :
    x ∈ r.report p specialist f content ↔
      ∃ n, r.FiresOn p f content n ∧ x = r.finding specialist f.path (r.lineOf n f content) := by
  constructor
  · intro hx
    by_cases h : ∃ n, r.FiresOn p f content n
    · obtain ⟨n, hn⟩ := h
      rw [r.report_of_firesOn hev hr hf hn] at hx
      exact ⟨n, hn, List.mem_singleton.mp hx⟩
    · rw [r.report_of_not_firesOn hev hr hf fun n hn => h ⟨n, hn⟩] at hx
      exact absurd hx List.not_mem_nil
  · rintro ⟨n, hn, rfl⟩
    rw [r.report_of_firesOn hev hr hf hn]
    exact List.mem_singleton.mpr rfl

end

end ReviewGate
