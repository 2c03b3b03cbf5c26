import ReviewGate.Proofs.Policy.Snapshot

/-!
# `ReviewGate.Proofs.Policy.NormalForm` — accepted policies are normalised

Configurations, learned rules and stored policies are read with much tolerance, and what is read is
merged. Nothing of the tolerance is left in the policy that comes out: it can be written as a
configuration in which nothing is left to a default (`Policy.toDocument`), whose every field is of
the one kind that belongs there (`Document.IsPolicy`), and from which the same policy is read again.

The last part says that the document tells all of the policy. It needs some facts that the types do
not carry, and that come from the readers: rules are complete, entries of the allowlist name a path,
a model is named or null. They are collected first (`Policy.Settled`).

## Contents
- `Policy.toDocument`: a policy as a configuration.
- `Document.IsSoftRule`, `Document.IsHardRule`, `Document.IsPolicy`: the normal form.
- `nodup_unique`, `unique_eq_self`: texts without repetitions.
- `Policy.Settled`, `settled_of_loadPolicy`: what the readers and the merge see to.
- `isPolicy_toDocument`, `loadPolicy_toDocument`: settled policies have the normal form and are read
  back from it.
- `accepted_policy_normalised`: so have all that are accepted.
-/

namespace ReviewGate

/-! ## Policies as documents -/

/-- An entry of the allowlist as a document. -/
def AllowlistEntry.toDocument (e : AllowlistEntry) : Document :=
  .ofFields [("path", .text e.path), ("rule_ids", (e.ruleIds.map Document.list).getD .null),
    ("reason", e.reason)]

/-- The settings of a run as a document. -/
def Settings.toDocument (s : Settings) : Document :=
  .ofFields [("max_inline_comments", .int s.maxInlineComments), ("model", s.model),
    ("context_budget", .int s.contextBudget)]

/-- An enforcement as a document. -/
def Enforcement.toDocument (e : Enforcement) : Document :=
  .ofFields [("mode", .text e.mode), ("block_on", .ofTexts (e.blockOn.map Severity.name)),
    ("new_code_only", .bool e.newCodeOnly), ("max_comments", .int e.maxComments)]

/-- The settings of a specialist as a document. -/
def SpecialistSettings.toDocument (s : SpecialistSettings) : Document :=
  .ofFields [("enabled", .bool s.enabled), ("max_findings", .int s.maxFindings)]

/-- The settings of all specialists as a document. -/
def Agents.toDocument (agents : Agents) : Document :=
  .ofFields [("specialists", .ofFields <|
    Specialist.all.map fun s => (s.name, (agents s).toDocument))]

/-- A policy as a configuration in which nothing is left to a default. -/
def Policy.toDocument (p : Policy) : Document :=
  .ofFields [("soft_rules", .list (p.softRules.map Rule.toDocument)),
    ("hard_rules", .list (p.hardRules.map HardRule.toDocument)),
    ("allowlist", .list (p.allowlist.map AllowlistEntry.toDocument)),
    ("ignore", .ofTexts p.ignore), ("settings", p.settings.toDocument),
    ("enforcement", p.enforcement.toDocument), ("agents", p.agents.toDocument)]

/-! ## The normal form -/

namespace Document

/-- Under the name stands a text that is not empty. -/
def HasText (d : Document) (name : String) : Prop := ∃ s, s ≠ "" ∧ d.field name = .ok (.text s)

/-- Under the name stands one of the words. -/
def HasWord (d : Document) (name : String) (words : List String) : Prop :=
  ∃ w ∈ words, d.field name = .ok (.text w)

/-- Under the name stands a truth value. -/
def HasFlag (d : Document) (name : String) : Prop := ∃ b, d.field name = .ok (.bool b)

/-- Under the name stands an integer. -/
def HasInteger (d : Document) (name : String) : Prop := ∃ n, d.field name = .ok (.int n)

/-- The names of severities. -/
def severityNames : List String := ["critical", "warning", "info"]

/-- The names of specialists. -/
def specialistNames : List String :=
  ["security", "logging-error", "architecture-boundary", "api-contract", "data-access",
    "reliability"]

/-- The document is a soft rule in its normal form. -/
structure IsSoftRule (d : Document) : Prop where
  id : d.HasText "id"
  scope : d.HasText "scope"
  pattern : d.HasText "pattern"
  severity : d.HasWord "severity" severityNames
  source : d.HasWord "source" ["seed", "learned", "policy"]

/-- The document is a hard rule in its normal form. -/
structure IsHardRule (d : Document) : Prop extends IsSoftRule d where
  category : d.HasWord "category" ("any" :: specialistNames)
  mode : d.HasWord "mode" ["forbid_regex", "require_regex"]
  target : d.HasWord "target" ["added_lines", "file_content"]
  newCodeOnly : d.HasFlag "new_code_only"

/-- Under the name stands a list of rules with different ids. -/
def HasRules (d : Document) (name : String) (form : Document → Prop) : Prop :=
  ∃ rules, d.field name = .ok (.list rules) ∧ (∀ r ∈ rules, form r) ∧
    (rules.map fun r => r.field "id").Nodup

/-- The document is a policy in its normal form. -/
structure IsPolicy (d : Document) : Prop where
  softRules : d.HasRules "soft_rules" IsSoftRule
  hardRules : d.HasRules "hard_rules" IsHardRule
  ignore : ∃ globs, d.field "ignore" = .ok (.ofTexts globs) ∧ globs.Nodup
  settings : ∃ s, d.field "settings" = .ok s ∧ s.HasInteger "max_inline_comments" ∧
    s.HasInteger "context_budget"
  enforcement : ∃ e, d.field "enforcement" = .ok e ∧ e.HasWord "mode" ["warn", "enforce"] ∧
    (∃ names, e.field "block_on" = .ok (.ofTexts names) ∧ ∀ s ∈ names, s ∈ severityNames) ∧
    e.HasFlag "new_code_only" ∧ e.HasInteger "max_comments"
  /-- There are settings for every specialist, and no others. -/
  agents : ∃ a settings, d.field "agents" = .ok a ∧
    a.field "specialists" = .ok (.ofFields settings) ∧
    settings.map Prod.fst = specialistNames ∧
    ∀ entry ∈ settings, entry.2.HasFlag "enabled" ∧ entry.2.HasInteger "max_findings"

end Document

/-! ## Texts without repetitions -/

theorem nodup_foldl_unique (texts : List String) {found : List String} (h : found.Nodup) :
    (texts.foldl (fun found s => if found.contains s then found else found ++ [s])
      found).Nodup := by
  induction texts generalizing found with
  | nil => exact h
  | cons s rest ih =>
      refine ih ?_
      show (if found.contains s then found else found ++ [s]).Nodup
      split
      · exact h
      · next hnew =>
        have hdisjoint : s ∉ found := fun hs => hnew (List.contains_iff_mem.mpr hs)
        exact List.nodup_append.mpr ⟨h, List.pairwise_singleton _ _, fun t ht u hu htu =>
          hdisjoint (List.mem_singleton.mp hu ▸ htu ▸ ht)⟩

theorem nodup_unique (texts : List String) : (unique texts).Nodup :=
  nodup_foldl_unique texts List.nodup_nil

theorem foldl_unique_of_nodup {texts found : List String} (h : (found ++ texts).Nodup) :
    texts.foldl (fun found s => if found.contains s then found else found ++ [s]) found
      = found ++ texts := by
  induction texts generalizing found with
  | nil => exact (List.append_nil found).symm
  | cons s rest ih =>
      have hnew : ¬found.contains s = true := fun hs =>
        (List.nodup_append.mp h).2.2 s (List.contains_iff_mem.mp hs) s (List.mem_cons_self ..) rfl
      rw [List.append_cons] at h
      rw [List.foldl_cons, if_neg hnew, ih h, ← List.append_cons]

/-- Texts without repetitions stay as they are. -/
theorem unique_eq_self {texts : List String} (h : texts.Nodup) : unique texts = texts :=
  foldl_unique_of_nodup h

/-! ## What the readers see to -/

/-- What holds of a policy whose parts have been read and merged. -/
structure Policy.Settled (p : Policy) : Prop where
  softRules : ∀ r ∈ p.softRules, r.Complete
  softIds : (p.softRules.map (·.id)).Nodup
  hardRules : ∀ r ∈ p.hardRules, r.Complete
  hardIds : (p.hardRules.map (·.id)).Nodup
  /-- An entry names a path, and if it names rules it names at least one. -/
  allowlist : ∀ e ∈ p.allowlist, e.path ≠ "" ∧ e.ruleIds ≠ some []
  ignore : p.ignore.Nodup
  /-- A model that does not count as present is null. -/
  model : p.settings.model.orElse .null = p.settings.model
  mode : p.enforcement.mode ∈ ["warn", "enforce"]

theorem Document.ne_nil_of_items {d : Document} (h : d.truthy = true) {items : List Document}
    (hitems : d.items = .ok items) : items ≠ [] := by
  rintro rfl
  cases d with
  | text s =>
      have hchars := List.map_eq_nil_iff.mp (Except.ok.inj hitems)
      exact bne_iff_ne.mp h (String.toList_eq_nil_iff.mp hchars)
  | list own => cases hitems; cases h
  | set own => cases hitems; cases h
  | map entries => cases List.map_eq_nil_iff.mp (Except.ok.inj hitems); cases h
  | bytes data => cases List.map_eq_nil_iff.mp (Except.ok.inj hitems); cases h
  | _ => cases hitems

theorem AllowlistEntry.settled_of_ofDocument {d : Document} {e : AllowlistEntry}
    (h : AllowlistEntry.ofDocument d = .ok e) : e.path ≠ "" ∧ e.ruleIds ≠ some [] := by
  cases d with
  | map fields =>
      rw [AllowlistEntry.ofDocument_map] at h
      split at h
      · next hpath =>
        obtain ⟨path, hspell, h⟩ := bind_eq_ok.mp h
        have hpath' := Document.spell_ne_empty hpath hspell
        split at h
        · next hpresent =>
          cases hitems : (Document.under "rule_ids" fields).items with
          | error fault =>
              rw [hitems] at h
              cases h
          | ok items =>
              rw [hitems] at h
              cases h
              exact ⟨hpath', fun hnone =>
                Document.ne_nil_of_items hpresent hitems (Option.some.inj hnone)⟩
        · cases h
          exact ⟨hpath', nofun⟩
      · cases h
  | _ => cases h

theorem Document.orElse_orElse_null (d : Document) :
    (d.orElse .null).orElse .null = d.orElse .null := by
  cases h : d.truthy with
  | false =>
      have hnull : d.orElse .null = .null := if_neg (Bool.eq_false_iff.mp h)
      rw [hnull]
      rfl
  | true =>
      have hself : d.orElse .null = d := if_pos h
      rw [hself, hself]

theorem Settings.model_of_ofDocument {d : Document} {s : Settings}
    (h : Settings.ofDocument d = .ok s) : s.model.orElse .null = s.model := by
  simp only [Settings.ofDocument, bind_eq_ok] at h
  obtain ⟨_, -, _, -, model, -, _, -, _, -, hs⟩ := h
  rw [← Except.ok.inj hs]
  exact Document.orElse_orElse_null model

theorem Enforcement.mode_of_ofDocument {limit : Int} {d : Document} {e : Enforcement}
    (h : Enforcement.ofDocument limit d = .ok e) : e.mode ∈ ["warn", "enforce"] := by
  simp only [Enforcement.ofDocument, bind_eq_ok] at h
  obtain ⟨_, -, _, -, mode, -, _, -, _, -, _, -, _, -, he⟩ := h
  rw [← Except.ok.inj he]
  dsimp only
  split <;> decide

/-- The modes that a run can be asked for; none is asked for if the configured one is to count. -/
def runModes : List (Option String) := [none, some "warn", some "enforce"]

theorem mode_mergePolicy {c : RepoConfig} (hc : c.enforcement.mode ∈ ["warn", "enforce"])
    (learned : List Rule) (s : Option Snapshot) {mode : Option String} (hmode : mode ∈ runModes) :
    (mergePolicy c learned s mode).enforcement.mode ∈ ["warn", "enforce"] := by
  simp only [runModes, List.mem_cons, List.not_mem_nil, or_false] at hmode
  rcases hmode with rfl | rfl | rfl
  · exact hc
  · exact List.mem_cons_self ..
  · exact List.mem_cons_of_mem _ (List.mem_cons_self ..)

/-- **What has been read and merged is settled.** -/
theorem settled_of_loadPolicy {config : Document} {learned : List Document} {snapshot : Document}
    {mode : Option String} {p : Policy} (h : loadPolicy config learned snapshot mode = .ok p)
    (hmode : mode ∈ runModes) : p.Settled := by
  obtain ⟨hsoft, hhard⟩ := complete_of_loadPolicy h
  have hids := nodup_hardRules h
  obtain ⟨c, l, s, hc, -, -, rfl⟩ := loadPolicy_eq_ok.mp h
  have hread := RepoConfig.readFrom_of_ofDocument hc
  obtain ⟨entryDocs, -, hallowlist⟩ := hread.allowlist
  obtain ⟨settingsDoc, -, hsettings⟩ := hread.settings
  obtain ⟨enforcementDoc, -, henforcement⟩ := hread.enforcement
  refine ⟨hsoft, nodup_mergeById _, hhard, hids, ?_, nodup_unique _,
    Settings.model_of_ofDocument hsettings,
    mode_mergePolicy (Enforcement.mode_of_ofDocument henforcement) _ _ hmode⟩
  intro e he
  obtain ⟨d, -, hd⟩ := exists_of_mapM_eq_ok hallowlist he
  exact AllowlistEntry.settled_of_ofDocument hd

/-! ## Settled policies have the normal form -/

theorem Severity.name_mem (s : Severity) : s.name ∈ Document.severityNames := by
  cases s <;> decide

theorem RuleSource.name_mem (s : RuleSource) : s.name ∈ ["seed", "learned", "policy"] := by
  cases s <;> decide

theorem Category.name_mem (c : Category) : c.name ∈ "any" :: Document.specialistNames := by
  cases c with
  | any => decide
  | only s => cases s <;> decide

theorem Demand.name_mem (m : Demand) : m.name ∈ ["forbid_regex", "require_regex"] := by
  cases m <;> decide

theorem Target.name_mem (t : Target) : t.name ∈ ["added_lines", "file_content"] := by
  cases t <;> decide

theorem Rule.isSoftRule_toDocument {r : Rule} (h : r.Complete) : r.toDocument.IsSoftRule where
  id := ⟨r.id, h.id, rfl⟩
  scope := ⟨r.scope, h.scope, rfl⟩
  pattern := ⟨r.pattern, h.pattern, rfl⟩
  severity := ⟨r.severity.name, r.severity.name_mem, rfl⟩
  source := ⟨r.source.name, r.source.name_mem, rfl⟩

theorem HardRule.isHardRule_toDocument {r : HardRule} (h : r.Complete) :
    r.toDocument.IsHardRule where
  id := ⟨r.id, h.id, rfl⟩
  scope := ⟨r.scope, h.scope, rfl⟩
  pattern := ⟨r.pattern, h.pattern, rfl⟩
  severity := ⟨r.severity.name, r.severity.name_mem, rfl⟩
  source := ⟨r.source.name, r.source.name_mem, rfl⟩
  category := ⟨r.category.name, r.category.name_mem, rfl⟩
  mode := ⟨r.demand.name, r.demand.name_mem, rfl⟩
  target := ⟨r.target.name, r.target.name_mem, rfl⟩
  newCodeOnly := ⟨r.newCodeOnly, rfl⟩

/-- Rules with different ids are written as rules with different ids. -/
theorem hasRules_of_map {α : Type} {write : α → Document} {key : α → String} {rules : List α}
    {form : Document → Prop} (hform : ∀ r ∈ rules, form (write r))
    (hkey : ∀ r, (write r).field "id" = .ok (.text (key r))) (hids : (rules.map key).Nodup)
    {d : Document} {name : String} (hd : d.field name = .ok (.list (rules.map write))) :
    d.HasRules name form := by
  refine ⟨_, hd, List.forall_mem_map.mpr hform, ?_⟩
  have hfields : (rules.map write).map (fun r => r.field "id")
      = (rules.map key).map fun s => (.ok (.text s) : Except Fault Document) := by
    rw [List.map_map, List.map_map]
    exact List.map_congr_left fun r _ => hkey r
  rw [hfields]
  exact hids.map fun _ _ h => Document.text.inj (Except.ok.inj h)

theorem Agents.hasSettings (agents : Agents) :
    ∀ entry ∈ Specialist.all.map fun s => (s.name, (agents s).toDocument),
      entry.2.HasFlag "enabled" ∧ entry.2.HasInteger "max_findings" :=
  List.forall_mem_map.mpr fun s _ => ⟨⟨(agents s).enabled, rfl⟩, ⟨(agents s).maxFindings, rfl⟩⟩

/-- **A settled policy is written in the normal form.** -/
theorem isPolicy_toDocument {p : Policy} (h : p.Settled) : p.toDocument.IsPolicy where
  softRules := hasRules_of_map (fun r hr => Rule.isSoftRule_toDocument (h.softRules r hr))
    (fun _ => rfl) h.softIds rfl
  hardRules := hasRules_of_map (fun r hr => HardRule.isHardRule_toDocument (h.hardRules r hr))
    (fun _ => rfl) h.hardIds rfl
  ignore := ⟨p.ignore, rfl, h.ignore⟩
  settings := ⟨p.settings.toDocument, rfl, ⟨_, rfl⟩, ⟨_, rfl⟩⟩
  enforcement := ⟨p.enforcement.toDocument, rfl, ⟨_, h.mode, rfl⟩,
    ⟨_, rfl, List.forall_mem_map.mpr fun s _ => s.name_mem⟩, ⟨_, rfl⟩, ⟨_, rfl⟩⟩
  agents := ⟨p.agents.toDocument, _, rfl, rfl, rfl, p.agents.hasSettings⟩

/-! ## Settled policies are read back -/

theorem AllowlistEntry.ofDocument_toDocument {e : AllowlistEntry} (hpath : e.path ≠ "")
    (hids : e.ruleIds ≠ some []) : AllowlistEntry.ofDocument e.toDocument = .ok e := by
  obtain ⟨path, ruleIds, reason⟩ := e
  have hpresent : (Document.text path).truthy = true := bne_iff_ne.mpr hpath
  show AllowlistEntry.ofDocument (.map _) = _
  rw [AllowlistEntry.ofDocument_map]
  cases ruleIds with
  | none => exact if_pos hpresent
  | some ids =>
      cases ids with
      | nil => exact absurd rfl hids
      | cons id rest => exact if_pos hpresent

theorem Settings.ofDocument_toDocument {s : Settings} (h : s.model.orElse .null = s.model) :
    Settings.ofDocument s.toDocument = .ok s := by
  show Except.ok (Settings.mk s.maxInlineComments (s.model.orElse .null) s.contextBudget) = .ok s
  rw [h]

theorem readBlockOn_names (severities : List Severity) :
    readBlockOn (.ofTexts (severities.map Severity.name)) = .ok severities := by
  have hname : (Severity.ofName? ∘ Severity.name) = some := funext fun s => by cases s <;> rfl
  refine congrArg Except.ok ?_
  show List.filterMap _ ((severities.map Severity.name).map Document.text) = severities
  rw [List.filterMap_map, List.filterMap_map]
  show List.filterMap (Severity.ofName? ∘ Severity.name) severities = severities
  rw [hname, List.filterMap_some]

theorem Enforcement.ofDocument_toDocument {e : Enforcement} (h : e.mode ∈ ["warn", "enforce"])
    (limit : Int) : Enforcement.ofDocument limit e.toDocument = .ok e := by
  obtain ⟨mode, blockOn, newCodeOnly, maxComments⟩ := e
  have hmode : (if (Document.text mode).isText "enforce" then "enforce" else "warn") = mode := by
    simp only [List.mem_cons, List.not_mem_nil, or_false] at h
    rcases h with rfl | rfl <;> rfl
  have hblock : (Enforcement.mk mode blockOn newCodeOnly maxComments).toDocument.fieldOr "block_on"
      (.list [.text Severity.critical.name]) = .ok (.ofTexts (blockOn.map Severity.name)) := rfl
  rw [Enforcement.ofDocument, hblock, ok_bind, readBlockOn_names]
  show Except.ok (Enforcement.mk
    (if (Document.text mode).isText "enforce" then "enforce" else "warn") blockOn newCodeOnly maxComments) = _
  rw [hmode]

/-- The settings of one specialist are read from what they are written as. -/
theorem Agents.update_toDocument (agents : Agents) (s : Specialist) (settings : SpecialistSettings)
    (rest : List (Document × Document)) :
    Agents.update agents ((.text s.name, settings.toDocument) :: rest)
      = Agents.update (fun t => if t = s then settings else agents t) rest := by
  rw [Agents.update_cons s.ofName?_name rfl]
  rfl

theorem Agents.update_map_toDocument (own : Agents) (specialists : List Specialist)
    (agents : Agents) :
    Agents.update agents (specialists.map fun s => (.text s.name, (own s).toDocument))
      = .ok fun t => if t ∈ specialists then own t else agents t := by
  induction specialists generalizing agents with
  | nil => exact congrArg Except.ok (funext fun t => (if_neg List.not_mem_nil).symm)
  | cons s rest ih =>
      rw [List.map_cons, Agents.update_toDocument, ih]
      refine congrArg Except.ok (funext fun t => ?_)
      by_cases ht : t ∈ rest
      · rw [if_pos ht, if_pos (List.mem_cons_of_mem _ ht)]
      · by_cases hs : t = s
        · rw [if_neg ht, if_pos hs, if_pos (List.mem_cons.mpr (Or.inl hs)), hs]
        · rw [if_neg ht, if_neg hs, if_neg fun h => (List.mem_cons.mp h).elim hs ht]

theorem Agents.ofDocument_toDocument (agents : Agents) :
    Agents.ofDocument agents.toDocument = .ok agents := by
  have hread := Agents.update_map_toDocument agents Specialist.all fun _ => .default
  simp only [Specialist.mem_all, if_true] at hread
  exact hread

/-- The configuration of a settled policy. -/
def Policy.config (p : Policy) : RepoConfig :=
  ⟨p.softRules, p.hardRules, p.ignore, p.allowlist, p.settings, p.enforcement, p.agents⟩

theorem readSoftRules_toDocument {p : Policy} (h : ∀ r ∈ p.softRules, r.Complete) :
    readSoftRules p.toDocument = .ok p.softRules := by
  have hsoft : readList p.toDocument "soft_rules" = .ok (p.softRules.map Rule.toDocument) := rfl
  have hother : readList p.toDocument "rules" = .ok [] := rfl
  rw [readSoftRules, hsoft, ok_bind,
    mapM_map_eq_ok fun r hr => Rule.ofDocument_toDocument (h r hr) .seed "soft_rules", ok_bind,
    hother]
  cases p.softRules <;> rfl

theorem RepoConfig.ofDocument_toDocument {p : Policy} (h : p.Settled) :
    RepoConfig.ofDocument p.toDocument = .ok p.config := by
  have hraw : p.toDocument.orElse (.map []) = p.toDocument := rfl
  have hhard : readList p.toDocument "hard_rules" = .ok (p.hardRules.map HardRule.toDocument) := rfl
  have hallow : readList p.toDocument "allowlist"
      = .ok (p.allowlist.map AllowlistEntry.toDocument) := rfl
  have hsettings : readSection p.toDocument "settings" .mapping (.map [])
      = .ok p.settings.toDocument := rfl
  have henforcement : readSection p.toDocument "enforcement" .mapping (.map [])
      = .ok p.enforcement.toDocument := rfl
  have hignore : readList p.toDocument "ignore" = .ok (p.ignore.map Document.text) := rfl
  have hagents : readSection p.toDocument "agents" .mapping (.map [])
      = .ok p.agents.toDocument := rfl
  have htexts : (p.ignore.map Document.text).mapM Document.spell = .ok p.ignore :=
    mapM_map_eq_ok fun _ _ => rfl
  unfold RepoConfig.ofDocument
  simp only [hraw, readSoftRules_toDocument h.softRules, hhard, hallow, hsettings, henforcement,
    hignore, hagents, ok_bind, Settings.ofDocument_toDocument h.model,
    Enforcement.ofDocument_toDocument h.mode, Agents.ofDocument_toDocument,
    mapM_map_eq_ok fun r hr => HardRule.ofDocument_toDocument (h.hardRules r hr) .seed "hard_rules",
    mapM_map_eq_ok fun e he => AllowlistEntry.ofDocument_toDocument (h.allowlist e he).1
      (h.allowlist e he).2, htexts]
  rfl

/-- **A settled policy is read back from what it is written as.** -/
theorem loadPolicy_toDocument {p : Policy} (h : p.Settled) :
    loadPolicy p.toDocument [] .null none = .ok p := by
  refine loadPolicy_eq_ok.mpr
    ⟨p.config, [], none, RepoConfig.ofDocument_toDocument h, rfl, rfl, ?_⟩
  have hsoft : mergeById (·.id) p.softRules = p.softRules := putAll_of_nodup h.softIds
  have hhard : mergeById (·.id) p.hardRules = p.hardRules := putAll_of_nodup h.hardIds
  show Policy.mk (mergeById (·.id) p.softRules) (mergeById (·.id) p.hardRules) p.allowlist
    (unique p.ignore) p.settings p.enforcement p.agents = p
  rw [hsoft, hhard, unique_eq_self h.ignore]

/-- **Every accepted policy is normalised.** Whatever a policy was read from, it can be written in
the normal form, and read again from that alone it is the same policy. -/
theorem accepted_policy_normalised {config : Document} {learned : List Document}
    {snapshot : Document} {mode : Option String} {p : Policy}
    (h : loadPolicy config learned snapshot mode = .ok p) (hmode : mode ∈ runModes) :
    p.toDocument.IsPolicy ∧ loadPolicy p.toDocument [] .null none = .ok p :=
  have hsettled := settled_of_loadPolicy h hmode
  ⟨isPolicy_toDocument hsettled, loadPolicy_toDocument hsettled⟩

/-- A configuration with its rule under the older key, an id that is no text, an unknown choice,
repetitions, limits that are no integers, and settings of nobody. -/
def untidyConfig : Document :=
  .ofFields
    [("rules", .list [.ofFields [("id", .bool true), ("scope", .text "**"),
        ("pattern", .text "Errors keep their cause"), ("severity", .text "blocker")]]),
      ("ignore", .ofTexts ["*.lock", "docs/**", "*.lock"]),
      ("settings", .ofFields [("max_inline_comments", .text " 5 ")]),
      ("enforcement", .ofFields [("block_on", .text "warning"), ("new_code_only", .text "no")]),
      ("agents", .ofFields [("specialists", .ofFields
        [("security", .ofFields [("max_findings", .bool true)]),
          ("nobody", .ofFields [("enabled", .bool false)])])])]

/-- A learned rule without a description and with a severity of no kind. -/
def untidyRule : Document :=
  .ofFields [("id", .text "close-files"), ("scope", .text "**/*.py"), ("pattern", .text "open("),
    ("severity", .list []), ("confidence", .int 1)]

/-- The policy of both, in a run that enforces. -/
def tidyPolicy : Policy where
  softRules := [⟨"close-files", "", "**/*.py", "open(", .warning, .learned⟩,
    ⟨"True", "", "**", "Errors keep their cause", .warning, .seed⟩]
  hardRules := []
  allowlist := []
  ignore := ["*.lock", "docs/**"]
  settings := ⟨5, .null, 50000⟩
  enforcement := ⟨"enforce", [.warning], false, 5⟩
  agents := fun s => if s = .security then ⟨true, 1⟩ else .default

theorem loadPolicy_untidyConfig :
    loadPolicy untidyConfig [untidyRule] .null (some "enforce") = .ok tidyPolicy := by
  rfl

theorem accepted_policy_normalised_sample :
    tidyPolicy.toDocument.IsPolicy ∧
      loadPolicy tidyPolicy.toDocument [] .null none = .ok tidyPolicy :=
  accepted_policy_normalised loadPolicy_untidyConfig (by decide)

end ReviewGate
