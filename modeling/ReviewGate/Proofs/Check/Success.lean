import ReviewGate.Check.Run
import ReviewGate.Proofs.Check.BuiltIn
import ReviewGate.Proofs.Check.HardRule
import ReviewGate.Proofs.Sequence

/-!
# `ReviewGate.Proofs.Check.Success` — when a run succeeds, and with what

A run evaluates the hard rules of each specialist that runs on each file that the specialist sees.
It succeeds exactly if each of these evaluations does, and then what it reports is known without
looking at the evaluations again: the first of the findings of each specialist, as many as its limit
allows. No assumption about globs and patterns is needed for that; one that they never fail
(`Policy.Evaluable`) is a way to see that a run succeeds.

## Contents
- `HardRule.cause_of_mem_report`, `HardRule.finding_of_mem_report`, `HardRule.pointsAt_lineOf`: what a
  rule reports has a cause, it is about the rule and the file, and where it points.
- `Policy.report`, `Policy.Evaluates`, `uncappedFindings_eq_ok_iff`: what one specialist finds.
- `Policy.Succeeds`, `Policy.reported`, `mem_of_mem_reported`, `finding_of_mem_reported`,
  `exists_line_of_mem_reported`, `analyze_eq_ok_iff`: success of a run and its result.
-/

namespace ReviewGate

open Diff

/-! ## One rule -/

/-- A rule whose evaluation succeeds gives its report. -/
theorem HardRule.eq_report_of_findings {r : HardRule} {p : Policy} {specialist : String}
    {f : ChangedFile} {content : String} {found : List Finding}
    (h : r.findings p specialist f content = .ok found) :
    found = r.report p specialist f content := by
  unfold HardRule.report
  rw [h]

/-- What a rule reports has a cause: the rule concerns the path, its pattern compiles, and the text
violates it. -/
theorem HardRule.cause_of_mem_report {r : HardRule} {p : Policy} {specialist : String}
    {f : ChangedFile} {content : String} {x : Finding}
    (hx : x ∈ r.report p specialist f content) :
    r.concerns p f.path = .ok true ∧ ∃ n, r.regex? = .ok (some n) ∧
      r.isViolatedBy n (r.text f content) = true ∧
      x = r.finding specialist f.path (r.lineOf n f content) := by
  cases h : r.findings p specialist f content with
  | error fault =>
      unfold HardRule.report at hx
      rw [h] at hx
      exact absurd hx List.not_mem_nil
  | ok found =>
      rw [← r.eq_report_of_findings h] at hx
      unfold HardRule.findings at h
      obtain ⟨concerned, hconcerned, h⟩ := bind_eq_ok.mp h
      cases concerned with
      | false =>
          have hnil : [] = found := Except.ok.inj h
          exact absurd (hnil ▸ hx) List.not_mem_nil
      | true =>
          obtain ⟨node, hnode, h⟩ := bind_eq_ok.mp h
          cases node with
          | none =>
              have hnil : [] = found := Except.ok.inj h
              exact absurd (hnil ▸ hx) List.not_mem_nil
          | some n =>
              by_cases hviolated : r.isViolatedBy n (r.text f content) = true
              · have hone : [r.finding specialist f.path (r.lineOf n f content)] = found := by
                  simp only [if_pos hviolated] at h
                  exact Except.ok.inj h
                exact ⟨hconcerned, n, hnode, hviolated, List.mem_singleton.mp (hone ▸ hx)⟩
              · have hnil : [] = found := by
                  simp only [if_neg hviolated] at h
                  exact Except.ok.inj h
                exact absurd (hnil ▸ hx) List.not_mem_nil

/-- What a rule reports is a finding of its own for the file, whether it is evaluated with success
or not. -/
theorem HardRule.finding_of_mem_report {r : HardRule} {p : Policy} {specialist : String}
    {f : ChangedFile} {content : String} {x : Finding}
    (hx : x ∈ r.report p specialist f content) : ∃ line, x = r.finding specialist f.path line := by
  obtain ⟨-, n, -, -, hfinding⟩ := r.cause_of_mem_report hx
  exact ⟨_, hfinding⟩

/-- The first line with a pattern is one of the lines. -/
theorem HardRule.lineFrom_lt {n : Regex.Node} {number line : Nat} {lines : List String}
    (h : lineFrom n number lines = some line) : line < number + lines.length := by
  induction lines generalizing number with
  | nil => cases h
  | cons l rest ih =>
      rw [lineFrom] at h
      rw [List.length_cons]
      split at h
      · have hline : number = line := Option.some.inj h
        omega
      · have hrest := ih h
        omega

/-- A rule points at line one, at an added line, or at a line of the content. -/
theorem HardRule.pointsAt_lineOf (r : HardRule) (n : Regex.Node) (f : ChangedFile)
    (content : String) :
    f.PointsAt (r.lineOf n f content) ∨ r.lineOf n f content ≤ (Text.lines content).length := by
  unfold HardRule.lineOf
  cases r.target with
  | fileContent =>
      cases hline : lineFrom n 1 (Text.lines content) with
      | none => exact Or.inl (Or.inl rfl)
      | some line =>
          have hlt := lineFrom_lt hline
          exact Or.inr (show line ≤ _ by omega)
  | addedLines =>
      refine Or.inl ?_
      cases hfind : f.addedLines.find? fun line => Pattern.ofNode n line.text with
      | none => simpa only [hfind] using f.pointsAt_firstAdded
      | some line =>
          exact Or.inr ⟨line, List.mem_of_find?_eq_some hfind, rfl⟩

/-! ## One specialist -/

/-- What the specialist finds in the files before its limit applies, if nothing fails. -/
def Policy.report (p : Policy) (s : Specialist) (routed : List Routed) (contents : Contents) :
    List Finding :=
  runChecks s.name s.checks routed contents ++
    routed.flatMap fun r => (p.rulesOf s.name).flatMap fun rule =>
      rule.report p s.name r.file (contents r.file.path)

theorem Category.admits_name {c : Category} {s : Specialist} :
    c.admits s.name = true ↔ c = .any ∨ c = .only s := by
  cases c with
  | any => exact ⟨fun _ => Or.inl rfl, fun _ => rfl⟩
  | only t => cases t <;> cases s <;> decide

theorem mem_rulesOf {p : Policy} {s : Specialist} {rule : HardRule} :
    rule ∈ p.rulesOf s.name ↔
      rule ∈ p.hardRules ∧ (rule.category = .any ∨ rule.category = .only s) := by
  rw [Policy.rulesOf, List.mem_filter, Category.admits_name]

/-- Each rule of the specialist can be evaluated on each of the files. -/
def Policy.Evaluates (p : Policy) (s : Specialist) (routed : List Routed) (contents : Contents) :
    Prop :=
  ∀ r ∈ routed, ∀ rule ∈ p.rulesOf s.name,
    rule.findings p s.name r.file (contents r.file.path)
      = .ok (rule.report p s.name r.file (contents r.file.path))

section

variable {p : Policy} {s : Specialist} {routed : List Routed} {contents : Contents}
  {found : List Finding}

theorem Policy.Evaluable.evaluates {files : List ChangedFile} (hev : p.Evaluable files)
    (hrouted : ∀ r ∈ routed, r.file ∈ files) : p.Evaluates s routed contents := by
  intro r hr rule hrule
  exact rule.findings_eq_report hev (mem_rulesOf.mp hrule).1 (hrouted r hr)

theorem hardRuleFindings_eq_ok_iff :
    hardRuleFindings p s.name routed contents = .ok found ↔
      p.Evaluates s routed contents ∧
        found = routed.flatMap fun r => (p.rulesOf s.name).flatMap fun rule =>
          rule.report p s.name r.file (contents r.file.path) := by
  have hfile : ∀ (r : Routed) (ys : List (List Finding)),
      ((p.rulesOf s.name).mapM fun rule =>
          rule.findings p s.name r.file (contents r.file.path)) = .ok ys ↔
        (∀ rule ∈ p.rulesOf s.name, rule.findings p s.name r.file (contents r.file.path)
          = .ok (rule.report p s.name r.file (contents r.file.path))) ∧
        ys = (p.rulesOf s.name).map fun rule =>
          rule.report p s.name r.file (contents r.file.path) :=
    fun r ys => mapM_eq_ok_iff fun rule y hy => rule.eq_report_of_findings hy
  have hfiles : ∀ ys : List (List (List Finding)),
      (routed.mapM fun r => (p.rulesOf s.name).mapM fun rule =>
          rule.findings p s.name r.file (contents r.file.path)) = .ok ys ↔ _ :=
    fun ys => mapM_eq_ok_iff fun r y hy => ((hfile r y).mp hy).2
  unfold hardRuleFindings
  rw [bind_eq_ok]
  constructor
  · rintro ⟨perFile, hperFile, hfound⟩
    obtain ⟨hall, rfl⟩ := (hfiles perFile).mp hperFile
    refine ⟨fun r hr => ((hfile r _).mp (hall r hr)).1, ?_⟩
    rw [← Except.ok.inj hfound, List.map_map]
    rfl
  · rintro ⟨hall, rfl⟩
    refine ⟨_, (hfiles _).mpr ⟨fun r hr => (hfile r _).mpr ⟨hall r hr, rfl⟩, rfl⟩, ?_⟩
    rw [List.map_map]
    rfl

theorem uncappedFindings_eq_ok_iff :
    uncappedFindings p s.name routed contents = .ok found ↔
      p.Evaluates s routed contents ∧ found = p.report s routed contents := by
  unfold uncappedFindings Policy.report
  rw [bind_eq_ok, checksOf_name]
  constructor
  · rintro ⟨hard, hhard, hfound⟩
    obtain ⟨hall, rfl⟩ := hardRuleFindings_eq_ok_iff.mp hhard
    exact ⟨hall, (Except.ok.inj hfound).symm⟩
  · rintro ⟨hall, rfl⟩
    exact ⟨_, hardRuleFindings_eq_ok_iff.mpr ⟨hall, rfl⟩, rfl⟩

theorem specialistFindings_eq_ok_iff :
    specialistFindings p s.name routed contents = .ok found ↔
      p.Evaluates s routed contents ∧
        found = takeSigned (p.agents s).maxFindings (p.report s routed contents) := by
  unfold specialistFindings Agents.forName
  rw [bind_eq_ok, s.ofName?_name]
  constructor
  · rintro ⟨uncapped, huncapped, hfound⟩
    obtain ⟨hall, rfl⟩ := uncappedFindings_eq_ok_iff.mp huncapped
    exact ⟨hall, (Except.ok.inj hfound).symm⟩
  · rintro ⟨hall, rfl⟩
    exact ⟨_, uncappedFindings_eq_ok_iff.mpr ⟨hall, rfl⟩, rfl⟩

end

/-! ## A run -/

theorem mem_running {p : Policy} {s : Specialist} :
    s ∈ p.running ↔ (p.agents s).enabled = true := by
  rw [Policy.running, List.mem_filter]
  exact and_iff_right s.mem_all

/-- Each rule can be evaluated wherever a specialist that runs has to evaluate it. -/
def Policy.Succeeds (p : Policy) (routing : Routing) (contents : Contents) : Prop :=
  ∀ s ∈ p.running, p.Evaluates s (routing.bucket s) contents

/-- What the specialists that run report, each no more than its limit allows. -/
def Policy.reported (p : Policy) (routing : Routing) (contents : Contents) : List Finding :=
  p.running.flatMap fun s =>
    takeSigned (p.agents s).maxFindings (p.report s (routing.bucket s) contents)

theorem mem_of_mem_takeSigned {α : Type} {n : Int} {items : List α} {x : α}
    (h : x ∈ takeSigned n items) : x ∈ items := by
  unfold takeSigned at h
  split at h <;> exact List.mem_of_mem_take h

section

variable {p : Policy} {routing : Routing} {contents : Contents}

/-- What is reported comes from a check or a hard rule of a specialist that runs, on a file that the
specialist sees. -/
theorem mem_of_mem_reported {x : Finding} (hx : x ∈ p.reported routing contents) :
    ∃ s ∈ p.running, ∃ r ∈ routing.bucket s,
      (∃ c ∈ s.checks, c.guard r = true ∧
        x ∈ c.findings s.name r.file (contents r.file.path)) ∨
      (∃ rule ∈ p.rulesOf s.name, x ∈ rule.report p s.name r.file (contents r.file.path)) := by
  obtain ⟨s, hs, hx⟩ := List.mem_flatMap.mp hx
  refine ⟨s, hs, ?_⟩
  rcases List.mem_append.mp (mem_of_mem_takeSigned hx) with hcheck | hrule
  · obtain ⟨r, hr, hcheck⟩ := mem_runChecks.mp hcheck
    exact ⟨r, hr, Or.inl hcheck⟩
  · obtain ⟨r, hr, hrule⟩ := List.mem_flatMap.mp hrule
    exact ⟨r, hr, Or.inr (List.mem_flatMap.mp hrule)⟩

/-- So it is a finding of this check or rule for the file, in the name of the specialist. -/
theorem finding_of_mem_reported {x : Finding} (hx : x ∈ p.reported routing contents) :
    ∃ s ∈ p.running, ∃ r ∈ routing.bucket s,
      (∃ c ∈ s.checks, ∃ line evidence, x = c.finding s.name r.file.path line evidence) ∨
      (∃ rule ∈ p.rulesOf s.name, ∃ line, x = rule.finding s.name r.file.path line) := by
  obtain ⟨s, hs, r, hr, ⟨c, hc, _, hcheck⟩ | ⟨rule, hrule, hreport⟩⟩ := mem_of_mem_reported hx
  · exact ⟨s, hs, r, hr, Or.inl ⟨c, hc, c.finding_of_mem hcheck⟩⟩
  · exact ⟨s, hs, r, hr, Or.inr ⟨rule, hrule, rule.finding_of_mem_report hreport⟩⟩

/-- It points at line one, at an added line, or at a line of the content. -/
theorem exists_line_of_mem_reported {x : Finding} (hx : x ∈ p.reported routing contents) :
    ∃ s ∈ p.running, ∃ r ∈ routing.bucket s, ∃ line : Nat, x.line = .int line ∧
      (r.file.PointsAt line ∨ line ≤ (Text.lines (contents r.file.path)).length) := by
  obtain ⟨s, hs, r, hr, ⟨c, -, -, hcheck⟩ | ⟨rule, -, hreport⟩⟩ := mem_of_mem_reported hx
  · obtain ⟨line, _, hpoints, rfl⟩ := c.exists_pointsAt_of_mem hcheck
    exact ⟨s, hs, r, hr, line, rfl, Or.inl hpoints⟩
  · obtain ⟨-, n, -, -, rfl⟩ := rule.cause_of_mem_report hreport
    exact ⟨s, hs, r, hr, _, rfl, rule.pointsAt_lineOf n r.file (contents r.file.path)⟩

theorem Policy.Evaluable.succeeds {files : List ChangedFile} (hev : p.Evaluable files)
    (hrouted : ∀ s, ∀ r ∈ routing.bucket s, r.file ∈ files) : p.Succeeds routing contents :=
  fun s _ => hev.evaluates (hrouted s)

theorem allFindings_eq_ok_iff {found : List Finding} :
    allFindings p routing contents = .ok found ↔
      p.Succeeds routing contents ∧ found = p.reported routing contents := by
  have hall : ∀ ys : List (List Finding),
      (p.running.mapM fun s => specialistFindings p s.name (routing.bucket s) contents)
        = .ok ys ↔ _ :=
    fun ys => mapM_eq_ok_iff fun s y hy => (specialistFindings_eq_ok_iff.mp hy).2
  unfold allFindings
  rw [bind_eq_ok]
  constructor
  · rintro ⟨lists, hlists, hfound⟩
    obtain ⟨heach, rfl⟩ := (hall lists).mp hlists
    exact ⟨fun s hs => (specialistFindings_eq_ok_iff.mp (heach s hs)).1,
      (Except.ok.inj hfound).symm⟩
  · rintro ⟨hsucceeds, rfl⟩
    refine ⟨_, (hall _).mpr ⟨fun s hs => ?_, rfl⟩, rfl⟩
    exact specialistFindings_eq_ok_iff.mpr ⟨hsucceeds s hs, rfl⟩

/-- **A run succeeds exactly if each evaluation does**, and its result is what the specialists report
and the further findings, synthesized. -/
theorem analyze_eq_ok_iff {extra : List Finding} {usage : TokenUsage} {a : Analysis} :
    analyze p routing contents extra usage = .ok a ↔
      p.Succeeds routing contents ∧
        a = synthesize (p.reported routing contents ++ extra) p.running.length usage := by
  unfold analyze
  rw [bind_eq_ok]
  constructor
  · rintro ⟨found, hfound, ha⟩
    obtain ⟨hsucceeds, rfl⟩ := allFindings_eq_ok_iff.mp hfound
    exact ⟨hsucceeds, (Except.ok.inj ha).symm⟩
  · rintro ⟨hsucceeds, rfl⟩
    exact ⟨_, allFindings_eq_ok_iff.mpr ⟨hsucceeds, rfl⟩, rfl⟩

end

end ReviewGate
