import ReviewGate.Proofs.Review.Extra

/-!
# `ReviewGate.Proofs.Review.Fewer` — a run with fewer specialists

What a specialist reports depends on the rules and on its own limit, not on which other specialists
run. So with some of them switched off the findings that reach the merge are a part of those that
reached it before, in the same order, whatever the limits cut off. A key that several specialists had
found stays as long as one of them runs, or a further finding has it; the finding under it can then
be another one and less grave, but never graver, since the merge keeps the gravest of more findings.

## Contents
- `Policy.RunsFewer`: two policies that differ in the specialists that run.
- `Policy.RunsFewer.reported_sublist`: what reaches the merge.
- `exists_key_synthesize`, `exists_graver_of_subset`: keys and gravest findings of an analysis.
- `fewer_specialists_remove`: the two runs.
- `quietConfig`, `quietPolicy`: the small policy with one specialist switched off.
-/

namespace ReviewGate

open Diff

/-- The two policies differ only in that some specialists that run under `p` do not run under `q`. -/
structure Policy.RunsFewer (q p : Policy) : Prop where
  rest : { q with agents := p.agents } = p
  limits : ∀ s, (q.agents s).maxFindings = (p.agents s).maxFindings
  enabled : ∀ s, (q.agents s).enabled = true → (p.agents s).enabled = true

section

variable {p q : Policy} (h : q.RunsFewer p) {routing : Routing} {contents : Contents}
include h

theorem Policy.RunsFewer.running_sublist : q.running.Sublist p.running :=
  List.monotone_filter_right _ h.enabled

/-- A specialist finds the same under both policies. -/
theorem Policy.RunsFewer.report_eq (s : Specialist) (routed : List Routed) :
    q.report s routed contents = p.report s routed contents := by
  rw [← h.rest]
  rfl

theorem Policy.RunsFewer.evaluates_iff (s : Specialist) (routed : List Routed) :
    q.Evaluates s routed contents ↔ p.Evaluates s routed contents := by
  rw [← h.rest]
  rfl

theorem Policy.RunsFewer.succeeds (hp : p.Succeeds routing contents) :
    q.Succeeds routing contents := fun s hs =>
  (h.evaluates_iff s _).mpr (hp s (mem_running.mpr (h.enabled s (mem_running.mp hs))))

/-- **What is reported with fewer specialists is a part of what is reported with all**, in the same
order. -/
theorem Policy.RunsFewer.reported_sublist :
    (q.reported routing contents).Sublist (p.reported routing contents) := by
  have hsame : q.reported routing contents = q.running.flatMap fun s =>
      takeSigned (p.agents s).maxFindings (p.report s (routing.bucket s) contents) := by
    refine List.flatMap_congr fun s _ => ?_
    rw [h.limits, h.report_eq]
  rw [hsame]
  exact h.running_sublist.flatMap _

end

/-! ## Keys of an analysis -/

/-- The keys of an analysis are those of the findings that it is made from. -/
theorem exists_key_synthesize {xs : List Finding} {passes : Int} {usage : TokenUsage}
    {k : List (Option Document.Key)} :
    (∃ y ∈ (synthesize xs passes usage).findings, y.key = k) ↔ ∃ x ∈ xs, x.key = k := by
  constructor
  · rintro ⟨y, hy, hkey⟩
    exact ⟨y, mem_of_mem_dedupe (mem_synthesize.mp hy), hkey⟩
  · rintro ⟨x, hx, rfl⟩
    obtain ⟨y, hy, hkey, -⟩ := exists_mem_dedupe hx
    exact ⟨y, mem_synthesize.mpr hy, hkey⟩

/-- With the key of a finding that is kept of some findings exactly one is kept of more, and it is at
least as grave. -/
theorem exists_graver_of_subset {xs ys : List Finding} (hsub : xs ⊆ ys) {y : Finding}
    (hy : y ∈ dedupe xs) :
    ∃ x, withKey y.key (dedupe ys) = [x] ∧ y.severity.rank ≤ x.severity.rank := by
  have hmem : y ∈ withKey y.key ys := mem_withKey.mpr ⟨hsub (mem_of_mem_dedupe hy), rfl⟩
  obtain ⟨x, hx⟩ := gravest?_isSome hmem
  refine ⟨x, ?_, rank_le_gravest? hx hmem⟩
  rw [withKey_dedupe, hx]
  rfl

/-! ## Two runs -/

/-- **Running fewer specialists only removes findings.** Whatever files each specialist sees,
* a run of a policy whose globs and patterns do not fail on these files succeeds;
* if a run succeeds, so does the run with some specialists switched off, and both count the
  specialists that run. For each finding of the latter the former has exactly one with its key, at
  least as grave. A key stays exactly if a specialist that still runs reports it, or a further
  finding has it. -/
theorem fewer_specialists_remove {p q : Policy} (hfewer : q.RunsFewer p) (routing : Routing)
    (contents : Contents) (extra : List Finding) (usage spent : TokenUsage) :
    (∀ files, p.Evaluable files → (∀ s, ∀ r ∈ routing.bucket s, r.file ∈ files) →
      ∃ a, analyze p routing contents extra usage = .ok a) ∧
    ∀ a, analyze p routing contents extra usage = .ok a →
      a.passes = (Specialist.all.countP fun s => (p.agents s).enabled : Nat) ∧
      ∃ b, analyze q routing contents extra spent = .ok b ∧
        b.passes = (Specialist.all.countP fun s => (q.agents s).enabled : Nat) ∧
        (∀ y ∈ b.findings, ∃ x, withKey y.key a.findings = [x] ∧
          y.severity.rank ≤ x.severity.rank) ∧
        ∀ k, (∃ y ∈ b.findings, y.key = k) ↔
          (∃ s, (q.agents s).enabled = true ∧ ∃ found,
            specialistFindings q s.name (routing.bucket s) contents = .ok found ∧
            ∃ z ∈ found, z.key = k) ∨
          ∃ z ∈ extra, z.key = k := by
  constructor
  · intro files hev hrouted
    exact ⟨_, analyze_eq_ok_iff.mpr ⟨hev.succeeds hrouted, rfl⟩⟩
  · intro a ha
    obtain ⟨hsucceeds, rfl⟩ := analyze_eq_ok_iff.mp ha
    have hq : q.Succeeds routing contents := hfewer.succeeds hsucceeds
    have hpasses : ∀ r : Policy,
        r.running.length = Specialist.all.countP fun s => (r.agents s).enabled :=
      fun r => List.countP_eq_length_filter.symm
    have hpart : q.reported routing contents ++ extra ⊆ p.reported routing contents ++ extra :=
      (hfewer.reported_sublist.append_right extra).subset
    refine ⟨congrArg _ (hpasses p), _, analyze_eq_ok_iff.mpr ⟨hq, rfl⟩, congrArg _ (hpasses q),
      fun y hy => ?_, fun k => ?_⟩
    · obtain ⟨x, hx, hrank⟩ := exists_graver_of_subset hpart (mem_synthesize.mp hy)
      exact ⟨x, withKey_synthesize hx _ _, hrank⟩
    · rw [exists_key_synthesize]
      simp only [List.mem_append, or_and_right, exists_or]
      refine or_congr_left ⟨?_, ?_⟩
      · rintro ⟨z, hz, hkey⟩
        obtain ⟨s, hs, hz⟩ := List.mem_flatMap.mp hz
        exact ⟨s, mem_running.mp hs, _, specialistFindings_eq_ok_iff.mpr ⟨hq s hs, rfl⟩, z, hz, hkey⟩
      · rintro ⟨s, hs, found, hfound, z, hz, hkey⟩
        obtain ⟨-, rfl⟩ := specialistFindings_eq_ok_iff.mp hfound
        exact ⟨z, List.mem_flatMap.mpr ⟨s, mem_running.mpr hs, hz⟩, hkey⟩

/-- The small configuration with the security specialist switched off. -/
def quietConfig : Document :=
  match sampleConfig with
  | .map sections => .map (sections ++ [(.text "agents", .ofFields [("specialists", .ofFields
      [("security", .ofFields [("enabled", .bool false)])])])])
  | d => d

/-- The policy of the configuration. -/
def quietPolicy : Policy :=
  { samplePolicy with agents := fun s => if s = .security then ⟨false, 50⟩ else .default }

theorem loadPolicy_quietConfig : loadPolicy quietConfig [] .null none = .ok quietPolicy := by
  have hconfig : RepoConfig.ofDocument quietConfig = .ok
      ⟨[], [sampleRule], [], quietPolicy.allowlist, quietPolicy.settings,
        quietPolicy.enforcement, quietPolicy.agents⟩ := by rfl
  exact loadPolicy_of_ofDocument hconfig none

theorem quietPolicy_runsFewer : quietPolicy.RunsFewer samplePolicy where
  rest := rfl
  limits s := by cases s <;> rfl
  enabled s _ := rfl

/-- The placeholder that both the security and the reliability specialist find is still found. -/
theorem fewer_specialists_remove_sample :
    loadPolicy sampleConfig [] .null none = .ok samplePolicy ∧
      loadPolicy quietConfig [] .null none = .ok quietPolicy ∧
      ∃ a b, analyze samplePolicy (route [sampleFile]) (fun _ => "") [] .none = .ok a ∧
        analyze quietPolicy (route [sampleFile]) (fun _ => "") [] .none = .ok b ∧
        a.passes = 6 ∧ b.passes = 5 ∧ b.findings ≠ [] ∧
        ∀ y ∈ b.findings, ∃ x, withKey y.key a.findings = [x] ∧
          y.severity.rank ≤ x.severity.rank := by
  obtain ⟨hrun, hfewer⟩ := fewer_specialists_remove quietPolicy_runsFewer (route [sampleFile])
    (fun _ => "") [] .none .none
  obtain ⟨a, ha⟩ := hrun [sampleFile] samplePolicy_evaluable fun _ _ => file_mem_of_mem_bucket
  obtain ⟨hpasses, b, hb, hfewerPasses, hgraver, hkeys⟩ := hfewer a ha
  have hlength : (specialistFindings quietPolicy Specialist.reliability.name
      ((route [sampleFile]).bucket .reliability) fun _ => "").toOption.map List.length = some 1 := by
    decide +kernel
  obtain ⟨found, hfound, hone⟩ := exists_eq_ok_of_map hlength
  obtain ⟨z, rfl⟩ := List.length_eq_one_iff.mp hone
  obtain ⟨y, hy, -⟩ := (hkeys z.key).mpr
    (Or.inl ⟨.reliability, rfl, [z], hfound, z, List.mem_singleton.mpr rfl, rfl⟩)
  exact ⟨loadPolicy_sampleConfig, loadPolicy_quietConfig, a, b, ha, hb, hpasses, hfewerPasses,
    List.ne_nil_of_mem hy, hgraver⟩

end ReviewGate
