import ReviewGate.Proofs.Policy.Config
import ReviewGate.Proofs.Policy.Learned
import ReviewGate.Proofs.Policy.Merge

/-!
# `ReviewGate.Proofs.Policy.Snapshot` — storing the policy does not change it

A snapshot holds the merged rules, and the next run merges the learned and the configured rules onto
it once more. That this gives the same policy takes two things. All rules of a policy have been
read, so they are complete and are read back from the snapshot as they are
(`snapshot_ofDocument?`). And a merge absorbs the layers that it already holds, so it does not
matter that the stored rules now contain the learned and configured ones.

## Contents
- `complete_of_readSoftRules`, `RepoConfig.complete_of_ofDocument`, `Snapshot.complete_of_ofDocument?`,
  `complete_of_mem_confidentRules`: the rules of each layer are complete.
- `complete_of_loadPolicy`: so are those of a policy.
- `snapshot_ofDocument?`: a snapshot is read back.
- `snapshot_loadPolicy`: a policy loaded with its own snapshot.
-/

namespace ReviewGate

/-! ## The layers -/

theorem complete_of_mapM_rule {source : RuleSource} {place : String} {docs : List Document}
    {rules : List Rule} (h : docs.mapM (Rule.ofDocument source place) = .ok rules) :
    ∀ r ∈ rules, r.Complete := by
  intro r hr
  obtain ⟨doc, _, hdoc⟩ := exists_of_mapM_eq_ok h hr
  exact Rule.complete_of_ofDocument hdoc

theorem complete_of_mapM_hardRule {source : RuleSource} {place : String} {docs : List Document}
    {rules : List HardRule} (h : docs.mapM (HardRule.ofDocument source place) = .ok rules) :
    ∀ r ∈ rules, r.Complete := by
  intro r hr
  obtain ⟨doc, _, hdoc⟩ := exists_of_mapM_eq_ok h hr
  exact HardRule.complete_of_ofDocument hdoc

theorem complete_of_readSoftRules {raw : Document} {rules : List Rule}
    (h : readSoftRules raw = .ok rules) : ∀ r ∈ rules, r.Complete := by
  obtain ⟨_, -, h⟩ := bind_eq_ok.mp h
  obtain ⟨soft, hsoft, h⟩ := bind_eq_ok.mp h
  -- the rules come from the second section if there are none in the first
  split at h
  · obtain ⟨_, -, h⟩ := bind_eq_ok.mp h
    exact complete_of_mapM_rule h
  · exact Except.ok.inj h ▸ complete_of_mapM_rule hsoft

theorem RepoConfig.complete_of_ofDocument {d : Document} {c : RepoConfig}
    (h : RepoConfig.ofDocument d = .ok c) :
    (∀ r ∈ c.softRules, r.Complete) ∧ ∀ r ∈ c.hardRules, r.Complete := by
  have hread := RepoConfig.readFrom_of_ofDocument h
  obtain ⟨docs, hhard⟩ := hread.hardRules
  exact ⟨complete_of_readSoftRules hread.softRules, complete_of_mapM_hardRule hhard⟩

theorem complete_of_mem_confidentRules {docs : List Document} {learned : List LearnedRule}
    (h : parseLearned docs = .ok learned) {r : Rule} (hr : r ∈ confidentRules learned) :
    r.Complete := by
  obtain ⟨l, hl, rfl⟩ := List.mem_map.mp hr
  obtain ⟨doc, -, hdoc⟩ := exists_of_mem_parseLearned h (List.mem_of_mem_filter hl)
  exact LearnedRule.complete_of_ofDocument hdoc

/-- The rules of a stored policy are those of its two lists. -/
theorem Snapshot.readRules_of_ofDocument? {d : Document} {s : Snapshot}
    (h : Snapshot.ofDocument? d = .ok (some s)) :
    ∃ soft hard, d.field "soft_rules" = .ok (.list soft) ∧ d.field "hard_rules" = .ok (.list hard) ∧
      readRules soft hard = .ok (s.softRules, s.hardRules) := by
  unfold Snapshot.ofDocument? at h
  split at h
  · exact absurd (Except.ok.inj h) nofun
  simp only [bind_eq_ok] at h
  obtain ⟨softField, hsoft, hardField, hhard, h⟩ := h
  split at h
  · next soft hard =>
    simp only [bind_eq_ok] at h
    obtain ⟨_, _, _, _, _, _, h⟩ := h
    split at h
    · next softRules hardRules hread =>
        rw [← Option.some.inj (Except.ok.inj h)]
        exact ⟨soft, hard, hsoft, hhard, hread⟩
    · exact absurd (Except.ok.inj h) nofun
    · exact nomatch h
  · exact absurd (Except.ok.inj h) nofun

theorem Snapshot.complete_of_ofDocument? {d : Document} {s : Snapshot}
    (h : Snapshot.ofDocument? d = .ok (some s)) :
    (∀ r ∈ s.softRules, r.Complete) ∧ ∀ r ∈ s.hardRules, r.Complete := by
  obtain ⟨_, _, -, -, hread⟩ := readRules_of_ofDocument? h
  simp only [Snapshot.readRules, bind_eq_ok] at hread
  obtain ⟨_, hsoft, _, hhard, hrules⟩ := hread
  obtain ⟨rfl, rfl⟩ := Prod.mk.inj (Except.ok.inj hrules)
  exact ⟨complete_of_mapM_rule hsoft, complete_of_mapM_hardRule hhard⟩

/-- **All rules of a loaded policy are complete.** -/
theorem complete_of_loadPolicy {config : Document} {learned : List Document} {snapshot : Document}
    {mode : Option String} {p : Policy} (h : loadPolicy config learned snapshot mode = .ok p) :
    (∀ r ∈ p.softRules, r.Complete) ∧ ∀ r ∈ p.hardRules, r.Complete := by
  obtain ⟨c, l, s, hc, hl, hs, rfl⟩ := loadPolicy_eq_ok.mp h
  obtain ⟨hcsoft, hchard⟩ := RepoConfig.complete_of_ofDocument hc
  have hstored : (∀ r ∈ (s.map (·.softRules)).getD [], r.Complete) ∧
      ∀ r ∈ (s.map (·.hardRules)).getD [], r.Complete := by
    cases s with
    | none => exact ⟨fun _ hr => absurd hr List.not_mem_nil, fun _ hr => absurd hr List.not_mem_nil⟩
    | some s => exact Snapshot.complete_of_ofDocument? hs
  constructor
  · intro r hr
    rcases List.mem_append.mp (mem_of_mem_mergeById hr) with hfirst | hconfig
    · rcases List.mem_append.mp hfirst with hsnapshot | hlearned
      · exact hstored.1 r hsnapshot
      · exact complete_of_mem_confidentRules hl hlearned
    · exact hcsoft r hconfig
  · intro r hr
    rcases List.mem_append.mp (mem_of_mem_mergeById hr) with hsnapshot | hconfig
    · exact hstored.2 r hsnapshot
    · exact hchard r hconfig

/-! ## The snapshot -/

/-- Items that are each read back are read back together. -/
theorem mapM_map_eq_ok {α β : Type} {write : α → β} {read : β → Except Fault α} {xs : List α}
    (h : ∀ x ∈ xs, read (write x) = .ok x) : (xs.map write).mapM read = .ok xs := by
  have hall : xs.mapM (read ∘ write) = .ok (xs.map id) := mapM_eq_ok h
  rw [List.mapM_map, hall, List.map_id]

/-- **A snapshot of complete rules is read back.** -/
theorem snapshot_ofDocument? {p : Policy} (hsoft : ∀ r ∈ p.softRules, r.Complete)
    (hhard : ∀ r ∈ p.hardRules, r.Complete) (generatedAt : String) :
    Snapshot.ofDocument? (p.snapshot generatedAt)
      = .ok (some ⟨snapshotVersion, generatedAt, p.softRules, p.hardRules⟩) := by
  have hread : Snapshot.readRules (p.softRules.map Rule.toDocument)
      (p.hardRules.map HardRule.toDocument) = .ok (p.softRules, p.hardRules) := by
    rw [Snapshot.readRules,
      mapM_map_eq_ok fun r hr => Rule.ofDocument_toDocument (hsoft r hr) .policy "snapshot",
      mapM_map_eq_ok fun r hr => HardRule.ofDocument_toDocument (hhard r hr) .policy "snapshot"]
    rfl
  have hsoftField : (p.snapshot generatedAt).field "soft_rules"
      = .ok (.list (p.softRules.map Rule.toDocument)) := rfl
  have hhardField : (p.snapshot generatedAt).field "hard_rules"
      = .ok (.list (p.hardRules.map HardRule.toDocument)) := rfl
  have hversion : (p.snapshot generatedAt).fieldOr "version" (.int snapshotVersion)
      = .ok (.int snapshotVersion) := rfl
  have htime : (p.snapshot generatedAt).fieldOr "generated_at" (.text "")
      = .ok (.text generatedAt) := rfl
  have htruthy : ¬ (!(p.snapshot generatedAt).truthy) = true := nofun
  rw [Snapshot.ofDocument?, if_neg htruthy]
  simp only [hsoftField, hhardField, hversion, htime, ok_bind, Document.toInteger, hread]
  rfl

/-- Merging onto the rules of a policy gives the policy. -/
theorem mergePolicy_snapshot (c : RepoConfig) (learned : List Rule) (s : Option Snapshot)
    (mode : Option String) (version : Int) (generatedAt : String) :
    mergePolicy c learned (some ⟨version, generatedAt, (mergePolicy c learned s mode).softRules,
        (mergePolicy c learned s mode).hardRules⟩) mode
      = mergePolicy c learned s mode := by
  have hsoft : mergeById (·.id) (mergeById (·.id)
        ((s.map (·.softRules)).getD [] ++ learned ++ c.softRules) ++ learned ++ c.softRules)
      = mergeById (·.id) ((s.map (·.softRules)).getD [] ++ learned ++ c.softRules) := by
    -- the learned and the configured rules are one layer
    rw [List.append_assoc, List.append_assoc]
    exact mergeById_again _ _
  have hhard : mergeById (·.id) (mergeById (·.id)
        ((s.map (·.hardRules)).getD [] ++ c.hardRules) ++ c.hardRules)
      = mergeById (·.id) ((s.map (·.hardRules)).getD [] ++ c.hardRules) := mergeById_again _ _
  unfold mergePolicy
  simp only [Option.map_some, Option.getD_some, hsoft, hhard]

/-- **Storing the policy does not change it.** Loaded again, with its own snapshot in place of the
stored one, the policy is the same: the same rules in the same order, with all their fields. -/
theorem snapshot_loadPolicy {config : Document} {learned : List Document} {snapshot : Document}
    {mode : Option String} {p : Policy} (h : loadPolicy config learned snapshot mode = .ok p)
    (generatedAt : String) :
    loadPolicy config learned (p.snapshot generatedAt) mode = .ok p := by
  obtain ⟨hsoft, hhard⟩ := complete_of_loadPolicy h
  obtain ⟨c, l, s, hc, hl, _, rfl⟩ := loadPolicy_eq_ok.mp h
  exact loadPolicy_eq_ok.mpr ⟨c, l, _, hc, hl, snapshot_ofDocument? hsoft hhard generatedAt,
    mergePolicy_snapshot c (confidentRules l) s mode snapshotVersion generatedAt⟩

theorem snapshot_loadPolicy_sample :
    loadPolicy sampleConfig [] (samplePolicy.snapshot "2026-01-31T12:00:00Z") none
      = .ok samplePolicy :=
  snapshot_loadPolicy loadPolicy_sampleConfig "2026-01-31T12:00:00Z"

end ReviewGate
