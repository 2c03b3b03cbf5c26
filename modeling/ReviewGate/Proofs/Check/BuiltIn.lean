import Mathlib.Data.List.SplitBy
import ReviewGate.Check.Run
import ReviewGate.Proofs.Routing.Specialist

/-!
# `ReviewGate.Proofs.Check.BuiltIn` — when a built-in check reports something

A check fires on a file if its guard lets the file pass and its trigger holds of the file. What
`runChecks` reports is put together in another order: checks are cut into groups, and the checks of
a group of added lines take turns line by line. Up to that order nothing happens to the findings
(`mem_fileFindings`), so a specialist reports something for a file exactly if one of its checks
fires (`Check.exists_mem_findings`).

## Contents
- `Trigger.Holds`, `Check.FiresOn`: when a check fires.
- `Check.exists_pointsAt_of_mem`, `Check.finding_of_mem`, `Check.exists_mem_findings`: the findings
  of one check.
- `mem_fileFindings`, `mem_runChecks`: the findings of several.
- `Check.severity_of_ruleId`: a rule id stands for one severity.
-/

namespace ReviewGate

open Diff

/-- Does the trigger hold of a file with the given text? -/
def Trigger.Holds (f : ChangedFile) (content : String) : Trigger → Prop
  | .file => True
  | .addedLine pattern => ∃ line ∈ f.addedLines, pattern line.text = true
  | .addedText pattern cleared => pattern f.addedText = true ∧ cleared f.addedText = false
  | .content pattern cleared => pattern content = true ∧ cleared content = false
  | .importLine pattern => ∃ line ∈ importLines content, pattern line = true

/-- The check fires on a file with the given text. -/
def Check.FiresOn (c : Check) (r : Routed) (content : String) : Prop :=
  c.guard r = true ∧ c.trigger.Holds r.file content

/-! ## The findings of one check -/

variable {c : Check} {specialist : String} {f : ChangedFile} {content : String} {x : Finding}

/-- What the checks of added lines report: a line, a check among them and the check's pattern. -/
theorem mem_lineFindings {checks : List Check} :
    x ∈ lineFindings checks specialist f ↔
      ∃ line ∈ f.addedLines, ∃ c ∈ checks, ∃ pattern, c.trigger = .addedLine pattern ∧
        pattern line.text = true ∧
        x = c.finding specialist f.path line.number (some (Text.strip line.text)) := by
  unfold lineFindings
  simp only [List.mem_flatMap, List.mem_filterMap]
  constructor
  · rintro ⟨line, hline, c, hc, hx⟩
    refine ⟨line, hline, c, hc, ?_⟩
    split at hx
    · next pattern ht =>
      by_cases hp : pattern line.text = true
      · rw [if_pos hp] at hx
        exact ⟨pattern, ht, hp, (Option.some.inj hx).symm⟩
      · rw [if_neg hp] at hx
        exact absurd hx (by simp)
    · exact absurd hx (by simp)
  · rintro ⟨line, hline, c, hc, pattern, ht, hp, rfl⟩
    refine ⟨line, hline, c, hc, ?_⟩
    rw [ht]
    exact if_pos hp

/-- The findings of several checks of added lines are those of each of them. -/
theorem mem_lineFindings_iff {checks : List Check} :
    x ∈ lineFindings checks specialist f ↔ ∃ c ∈ checks, x ∈ lineFindings [c] specialist f := by
  simp only [mem_lineFindings, List.mem_singleton]
  constructor
  · rintro ⟨line, hline, c, hc, h⟩
    exact ⟨c, hc, line, hline, c, rfl, h⟩
  · rintro ⟨c, hc, line, hline, _, rfl, h⟩
    exact ⟨line, hline, _, hc, h⟩

/-- The number is one or that of an added line of the file. -/
def Diff.ChangedFile.PointsAt (f : ChangedFile) (number : Nat) : Prop :=
  number = 1 ∨ ∃ line ∈ f.addedLines, line.number = number

theorem Diff.ChangedFile.pointsAt_firstAdded (f : ChangedFile) : f.PointsAt f.firstAdded := by
  unfold firstAdded
  cases hadded : f.addedLines with
  | nil => exact Or.inl rfl
  | cons line rest => exact Or.inr ⟨line, hadded ▸ List.mem_cons_self .., rfl⟩

/-- A check reports nothing but findings of its own for the file, on line one or an added line. -/
theorem Check.exists_pointsAt_of_mem (h : x ∈ c.findings specialist f content) :
    ∃ line evidence, f.PointsAt line ∧ x = c.finding specialist f.path line evidence := by
  unfold Check.findings at h
  cases ht : c.trigger with
  | file =>
      rw [ht] at h
      exact ⟨1, none, Or.inl rfl, List.mem_singleton.mp h⟩
  | addedLine pattern =>
      rw [ht] at h
      obtain ⟨line, hline, c', hc', _, _, _, hx⟩ := mem_lineFindings.mp h
      exact ⟨line.number, some (Text.strip line.text), Or.inr ⟨line, hline, rfl⟩,
        List.mem_singleton.mp hc' ▸ hx⟩
  | addedText pattern cleared =>
      simp only [ht] at h
      split at h
      · split at h
        · next line hfind =>
          exact ⟨line.number, none, Or.inr ⟨line, List.mem_of_find?_eq_some hfind, rfl⟩,
            List.mem_singleton.mp h⟩
        · exact ⟨1, none, Or.inl rfl, List.mem_singleton.mp h⟩
      · exact absurd h List.not_mem_nil
  | content pattern cleared =>
      simp only [ht] at h
      split at h
      · exact ⟨f.firstAdded, none, f.pointsAt_firstAdded, List.mem_singleton.mp h⟩
      · exact absurd h List.not_mem_nil
  | importLine pattern =>
      simp only [ht, List.mem_filterMap] at h
      obtain ⟨line, _, hx⟩ := h
      split at hx
      · exact ⟨1, some (Text.strip line), Or.inl rfl, (Option.some.inj hx).symm⟩
      · exact absurd hx (by simp)

theorem Check.finding_of_mem (h : x ∈ c.findings specialist f content) :
    ∃ line evidence, x = c.finding specialist f.path line evidence := by
  obtain ⟨line, evidence, -, hx⟩ := Check.exists_pointsAt_of_mem h
  exact ⟨line, evidence, hx⟩

/-- **A check reports something exactly if its trigger holds.** -/
theorem Check.exists_mem_findings :
    (∃ x, x ∈ c.findings specialist f content) ↔ c.trigger.Holds f content := by
  unfold Check.findings
  cases ht : c.trigger with
  | file => simp [Trigger.Holds]
  | addedLine pattern =>
      simp only [mem_lineFindings, List.mem_singleton, Trigger.Holds]
      constructor
      · rintro ⟨_, line, hline, _, rfl, p, hp, hmatch, _⟩
        injection hp.symm.trans ht with hpp
        exact ⟨line, hline, hpp ▸ hmatch⟩
      · rintro ⟨line, hline, hmatch⟩
        exact ⟨_, line, hline, c, rfl, pattern, ht, hmatch, rfl⟩
  | addedText pattern cleared =>
      by_cases h : (pattern f.addedText && !cleared f.addedText) = true
      · simp only [if_pos h, Trigger.Holds]
        refine ⟨fun _ => by simpa using h, fun _ => ?_⟩
        split <;> exact ⟨_, List.mem_singleton.mpr rfl⟩
      · simp only [if_neg h, Trigger.Holds, List.not_mem_nil]
        simpa using h
  | content pattern cleared =>
      by_cases h : (pattern content && !cleared content) = true
      · simp only [if_pos h, Trigger.Holds]
        exact ⟨fun _ => by simpa using h, fun _ => ⟨_, List.mem_singleton.mpr rfl⟩⟩
      · simp only [if_neg h, Trigger.Holds, List.not_mem_nil]
        simpa using h
  | importLine pattern =>
      simp only [List.mem_filterMap, Trigger.Holds]
      constructor
      · rintro ⟨_, line, hline, hx⟩
        by_cases hp : pattern line = true
        · exact ⟨line, hline, hp⟩
        · rw [if_neg hp] at hx
          exact absurd hx (by simp)
      · rintro ⟨line, hline, hp⟩
        exact ⟨_, line, hline, if_pos hp⟩

/-! ## The findings of several checks -/

/-- On its own a check of added lines reports line by line. -/
theorem Check.findings_of_isAddedLine (h : c.trigger.isAddedLine = true) :
    c.findings specialist f content = lineFindings [c] specialist f := by
  unfold Check.findings
  cases ht : c.trigger with
  | addedLine pattern => rfl
  | file | addedText _ _ | content _ _ | importLine _ =>
      rw [ht] at h
      exact absurd h (by simp [Trigger.isAddedLine])

theorem mem_groupFindings {group : List Check} :
    x ∈ groupFindings specialist f content group
      ↔ ∃ c ∈ group, x ∈ c.findings specialist f content := by
  unfold groupFindings
  by_cases hall : group.all (·.trigger.isAddedLine) = true
  · -- line by line; a check of added lines on its own does the same
    rw [if_pos hall, mem_lineFindings_iff]
    refine exists_congr fun c => and_congr_right fun hc => ?_
    rw [Check.findings_of_isAddedLine (List.all_eq_true.mp hall c hc)]
  · rw [if_neg hall, List.mem_flatMap]

/-- Cutting the checks into groups loses none. -/
theorem flatten_groupChecks (checks : List Check) : (groupChecks checks).flatten = checks :=
  List.flatten_splitBy _ _

theorem mem_fileFindings {checks : List Check} {contents : Contents} {r : Routed} :
    x ∈ fileFindings specialist checks contents r ↔
      ∃ c ∈ checks, c.guard r = true ∧
        x ∈ c.findings specialist r.file (contents r.file.path) := by
  have hgroups : x ∈ fileFindings specialist checks contents r ↔
      ∃ c ∈ (groupChecks (checks.filter (·.guard r))).flatten,
        x ∈ c.findings specialist r.file (contents r.file.path) := by
    simp only [fileFindings, List.mem_flatMap, mem_groupFindings, List.mem_flatten]
    constructor
    · rintro ⟨group, hgroup, c, hc, hx⟩
      exact ⟨c, ⟨group, hgroup, hc⟩, hx⟩
    · rintro ⟨c, ⟨group, hgroup, hc⟩, hx⟩
      exact ⟨group, hgroup, c, hc, hx⟩
  rw [hgroups, flatten_groupChecks]
  simp only [List.mem_filter, and_assoc]

theorem mem_runChecks {checks : List Check} {contents : Contents} {routed : List Routed} :
    x ∈ runChecks specialist checks routed contents ↔
      ∃ r ∈ routed, ∃ c ∈ checks, c.guard r = true ∧
        x ∈ c.findings specialist r.file (contents r.file.path) := by
  simp only [runChecks, List.mem_flatMap, mem_fileFindings]

/-! ## Rule ids -/

theorem checksOf_name (s : Specialist) : checksOf s.name = s.checks := by
  rw [checksOf, s.ofName?_name]

/-- **A rule id of the built-in checks stands for one severity**, whichever specialist runs the
check. -/
theorem Check.severity_of_ruleId {s t : Specialist} {c d : Check} (hc : c ∈ s.checks)
    (hd : d ∈ t.checks) (h : c.ruleId = d.ruleId) : c.severity = d.severity := by
  have htable : ∀ s ∈ Specialist.all, ∀ t ∈ Specialist.all, ∀ c ∈ s.checks, ∀ d ∈ t.checks,
      c.ruleId = d.ruleId → c.severity = d.severity := by decide +kernel
  exact htable s s.mem_all t t.mem_all c hc d hd h

end ReviewGate
