import ReviewGate.Policy.Config
import ReviewGate.Proofs.Policy.Rule

/-!
# `ReviewGate.Proofs.Policy.Config` — what becomes of a configuration document

Nearly everything that a document can have wrong is told as a violated contract: `Judged` says that
an operation ends with an answer or with such a fault. The exceptions are few. Limits are read as
integers, ids of the allowlist are gone through, and the settings of specialists are taken for
mappings, all without a look at what stands there. `RepoConfig.Regular` lists what has to stand
there; a document for which it fails is never accepted, and one for which it holds is judged.

## Contents
- `Document.under`, `readList_eq_ok`, `readMapping_eq_ok`: sections of a configuration.
- `RepoConfig.ReadFrom`, `RepoConfig.readFrom_of_ofDocument`: what an accepted configuration is made
  of.
- `Judged`, `Judged.bind`, `judged_mapM`: operations that only fail with a violated contract.
- `HoldsInteger`, `AllowlistEntry.Regular`, `Agents.Regular`, `RepoConfig.Regular`: what is not looked
  at.
- `RepoConfig.regular_of_ofDocument`, `RepoConfig.judged_ofDocument`: regularity is needed, and it is
  enough.
-/

namespace ReviewGate

/-! ## Sections -/

/-- What stands under a name, null if nothing does. -/
def Document.under (name : String) (entries : List (Document × Document)) : Document :=
  (Document.lookup name entries).getD .null

variable {entries fields : List (Document × Document)}

/-- It can be written if the whole can. -/
theorem Document.spellable_under (h : (Document.map entries).spellable = true) (name : String) :
    (Document.under name entries).spellable = true := by
  unfold Document.under
  cases hlookup : Document.lookup name entries with
  | none => rfl
  | some d => exact Document.spellable_of_lookup h hlookup

theorem readSection_map (key : String) (kind : SectionKind) (absent : Document) :
    readSection (.map entries) key kind absent =
      if (Document.under key entries).isNull then .ok absent
      else if kind.fits (Document.under key entries) then .ok (Document.under key entries)
      else .error (.policy (.sectionKind key kind.name (Document.under key entries))) := rfl

/-- A section that is a list gives its items, and one that is not there none. -/
theorem readList_eq_ok {key : String} {docs : List Document} :
    readList (.map entries) key = .ok docs ↔
      Document.under key entries = .null ∧ docs = [] ∨ Document.under key entries = .list docs := by
  unfold readList
  rw [readSection_map]
  cases Document.under key entries with
  | null => exact ⟨fun h => .inl ⟨rfl, (Except.ok.inj h).symm⟩, by rintro (⟨-, rfl⟩ | h) <;> trivial⟩
  | list items =>
      exact ⟨fun h => .inr (congrArg Document.list (Except.ok.inj h)),
        by rintro (⟨h, -⟩ | h) <;> cases h; rfl⟩
  | _ => exact ⟨nofun, by rintro (⟨h, -⟩ | h) <;> cases h⟩

/-- A section that is a mapping is taken as it is, and one that is not there as an empty one. -/
theorem readMapping_eq_ok {key : String} {d : Document} :
    readSection (.map entries) key .mapping (.map []) = .ok d ↔
      ∃ fields, d = .map fields ∧
        (Document.under key entries = .null ∧ fields = [] ∨
          Document.under key entries = .map fields) := by
  rw [readSection_map]
  cases Document.under key entries with
  | null =>
      exact ⟨fun h => ⟨[], (Except.ok.inj h).symm, .inl ⟨rfl, rfl⟩⟩,
        by rintro ⟨_, rfl, ⟨-, rfl⟩ | h⟩ <;> trivial⟩
  | map own =>
      exact ⟨fun h => ⟨own, (Except.ok.inj h).symm, .inr rfl⟩,
        by rintro ⟨_, rfl, ⟨h, -⟩ | h⟩ <;> cases h; rfl⟩
  | _ => exact ⟨nofun, by rintro ⟨_, rfl, ⟨h, -⟩ | h⟩ <;> cases h⟩

/-- A section that is a mapping is what is read. -/
theorem eq_map_of_readMapping {key : String} {d : Document}
    (hd : readSection (.map entries) key .mapping (.map []) = .ok d)
    (h : Document.under key entries = .map fields) : d = .map fields := by
  obtain ⟨own, rfl, ⟨hnull, -⟩ | hmap⟩ := readMapping_eq_ok.mp hd
  · cases h.symm.trans hnull
  · exact hmap.symm.trans h

/-! ## Accepted configurations -/

/-- The parts of a configuration come from the sections of a document. -/
structure RepoConfig.ReadFrom (raw : Document) (c : RepoConfig) : Prop where
  softRules : readSoftRules raw = .ok c.softRules
  hardRules : ∃ docs : List Document,
    docs.mapM (HardRule.ofDocument .seed "hard_rules") = .ok c.hardRules
  allowlist : ∃ docs, readList raw "allowlist" = .ok docs ∧
    docs.mapM AllowlistEntry.ofDocument = .ok c.allowlist
  settings : ∃ d, readSection raw "settings" .mapping (.map []) = .ok d ∧
    Settings.ofDocument d = .ok c.settings
  enforcement : ∃ d, readSection raw "enforcement" .mapping (.map []) = .ok d ∧
    Enforcement.ofDocument c.settings.maxInlineComments d = .ok c.enforcement
  agents : ∃ d, readSection raw "agents" .mapping (.map []) = .ok d ∧
    Agents.ofDocument d = .ok c.agents

/-- **An accepted configuration has been read from its document, section by section.** -/
theorem RepoConfig.readFrom_of_ofDocument {d : Document} {c : RepoConfig}
    (h : RepoConfig.ofDocument d = .ok c) : RepoConfig.ReadFrom (d.orElse (.map [])) c := by
  simp only [RepoConfig.ofDocument, bind_eq_ok] at h
  obtain ⟨soft, hsoft, hardDocs, -, hard, hhard, h⟩ := h
  obtain ⟨entryDocs, hentryDocs, allowlist, hallowlist, h⟩ := h
  obtain ⟨settingsDoc, hsettingsDoc, settings, hsettings, h⟩ := h
  obtain ⟨enforcementDoc, henforcementDoc, enforcement, henforcement, h⟩ := h
  obtain ⟨_, -, ignore, -, agentsDoc, hagentsDoc, agents, hagents, hc⟩ := h
  rw [← Except.ok.inj hc]
  exact ⟨hsoft, ⟨hardDocs, hhard⟩, ⟨entryDocs, hentryDocs, hallowlist⟩,
    ⟨settingsDoc, hsettingsDoc, hsettings⟩, ⟨enforcementDoc, henforcementDoc, henforcement⟩,
    ⟨agentsDoc, hagentsDoc, hagents⟩⟩

/-! ## What is not looked at -/

/-- Nothing stands under the name, or a value that gives an integer. -/
def HoldsInteger (name : String) (fields : List (Document × Document)) : Prop :=
  ∀ value, Document.lookup name fields = some value → ∃ n, value.toInteger = .ok n

/-- The ids that an entry of the allowlist names can be gone through. -/
def AllowlistEntry.Regular (d : Document) : Prop :=
  ∀ fields, d = .map fields → (Document.under "path" fields).truthy = true →
    (Document.under "rule_ids" fields).truthy = true →
    ∃ ids, (Document.under "rule_ids" fields).items = .ok ids

/-- The settings of a specialist are a mapping whose limit, if it has one, gives an integer. -/
def SpecialistSettings.Regular (values : Document) : Prop :=
  ∃ fields, values = .map fields ∧ HoldsInteger "max_findings" fields

/-- The section on specialists is a mapping, and so are the settings of each specialist that is
known and has any. -/
def Agents.Regular (specialists : Document) : Prop :=
  ∃ entries, specialists = .map entries ∧
    ∀ name values, (Document.text name, values) ∈ entries →
      (Specialist.ofName? name).isSome = true → values.truthy = true →
      SpecialistSettings.Regular values

/-- Wherever a configuration is read without a look at what stands there, it is what is needed. -/
structure RepoConfig.Regular (entries : List (Document × Document)) : Prop where
  allowlist : ∀ items, Document.under "allowlist" entries = .list items →
    ∀ d ∈ items, AllowlistEntry.Regular d
  settings : ∀ fields, Document.under "settings" entries = .map fields →
    HoldsInteger "max_inline_comments" fields ∧ HoldsInteger "context_budget" fields
  enforcement : ∀ fields, Document.under "enforcement" entries = .map fields →
    HoldsInteger "max_comments" fields
  agents : ∀ fields, Document.under "agents" entries = .map fields →
    (Document.under "specialists" fields).truthy = true →
    Agents.Regular (Document.under "specialists" fields)

/-- A limit gives an integer if it is absent, whatever it is then. -/
theorem holdsInteger_iff {name : String} (absent : Int) :
    HoldsInteger name fields ↔
      ∃ n, ((Document.lookup name fields).getD (.int absent)).toInteger = .ok n := by
  unfold HoldsInteger
  cases Document.lookup name fields with
  | none => exact ⟨fun _ => ⟨absent, rfl⟩, fun _ => nofun⟩
  | some value =>
      exact ⟨fun h => h value rfl, fun h _ hvalue => Option.some.inj hvalue ▸ h⟩

/-! ## Regularity is needed -/

theorem AllowlistEntry.ofDocument_map :
    AllowlistEntry.ofDocument (.map fields) =
      if (Document.under "path" fields).truthy then do
        let path ← (Document.under "path" fields).spell
        let ruleIds ← if (Document.under "rule_ids" fields).truthy
          then some <$> (Document.under "rule_ids" fields).items
          else pure none
        return ⟨path, ruleIds, Document.under "reason" fields⟩
      else .error (.policy .allowlistPath) := by
  show (if !(Document.under "path" fields).truthy then _ else _) = _
  cases (Document.under "path" fields).truthy <;> rfl

theorem AllowlistEntry.regular_of_ofDocument {d : Document} {e : AllowlistEntry}
    (h : AllowlistEntry.ofDocument d = .ok e) : AllowlistEntry.Regular d := by
  rintro fields rfl hpath hids
  rw [AllowlistEntry.ofDocument_map, if_pos hpath] at h
  obtain ⟨_, -, h⟩ := bind_eq_ok.mp h
  rw [if_pos hids] at h
  obtain ⟨_, hread, -⟩ := bind_eq_ok.mp h
  cases hitems : (Document.under "rule_ids" fields).items with
  | ok ids => exact ⟨ids, rfl⟩
  | error fault =>
      rw [hitems] at hread
      cases hread

theorem Settings.regular_of_ofDocument {s : Settings}
    (h : Settings.ofDocument (.map fields) = .ok s) :
    HoldsInteger "max_inline_comments" fields ∧ HoldsInteger "context_budget" fields := by
  simp only [Settings.ofDocument, bind_eq_ok] at h
  obtain ⟨_, hcomments, n, hn, _, _, _, hbudget, m, hm, -⟩ := h
  cases hcomments
  cases hbudget
  exact ⟨(holdsInteger_iff 3).mpr ⟨n, hn⟩, (holdsInteger_iff 50000).mpr ⟨m, hm⟩⟩

theorem Enforcement.regular_of_ofDocument {limit : Int} {e : Enforcement}
    (h : Enforcement.ofDocument limit (.map fields) = .ok e) : HoldsInteger "max_comments" fields := by
  simp only [Enforcement.ofDocument, bind_eq_ok] at h
  obtain ⟨_, _, _, _, _, _, _, _, _, _, _, hcomments, n, hn, -⟩ := h
  cases hcomments
  exact (holdsInteger_iff limit).mpr ⟨n, hn⟩

/-- The settings of one specialist are read and put in place of the old ones. -/
theorem Agents.update_cons {name : String} {s : Specialist}
    (hname : Specialist.ofName? name = some s) {values : Document} (hvalues : values.truthy = true)
    (agents : Agents) (rest : List (Document × Document)) :
    Agents.update agents ((.text name, values) :: rest) = (do
      let enabled ← readFlag (agents s).enabled "enabled" (← values.field "enabled")
      let maxFindings ←
        (← values.fieldOr "max_findings" (.int (agents s).maxFindings)).toInteger
      Agents.update (fun t => if t = s then ⟨enabled, maxFindings⟩ else agents t) rest) := by
  rw [Agents.update]
  simp only [hname, if_pos hvalues]

/-- An entry that names no specialist, or has no value, is passed over. -/
theorem Agents.update_cons_of_skipped {agents : Agents} {name values : Document}
    (h : ∀ word s, name = .text word → Specialist.ofName? word = some s → values.truthy = false)
    (rest : List (Document × Document)) :
    Agents.update agents ((name, values) :: rest) = Agents.update agents rest := by
  cases name with
  | text word =>
      rw [Agents.update]
      cases hname : Specialist.ofName? word with
      | none => rfl
      | some s => exact if_neg (Bool.eq_false_iff.mp (h word s rfl hname))
  | _ => rfl

/-- An entry names a specialist and has a value, or it is passed over. -/
theorem Agents.counts_or_skipped (name values : Document) :
    (∃ word s, name = .text word ∧ Specialist.ofName? word = some s ∧ values.truthy = true) ∨
      ∀ word s, name = .text word → Specialist.ofName? word = some s → values.truthy = false := by
  by_cases hcounts : ∃ word s, name = .text word ∧ Specialist.ofName? word = some s ∧
      values.truthy = true
  · exact .inl hcounts
  · refine .inr fun word s hword hname => Bool.eq_false_iff.mpr fun hvalues => ?_
    exact hcounts ⟨word, s, hword, hname, hvalues⟩

theorem Agents.regular_of_update {agents updated : Agents} {named : List (Document × Document)}
    (h : Agents.update agents named = .ok updated) : Agents.Regular (.map named) := by
  refine ⟨named, rfl, ?_⟩
  induction named generalizing agents with
  | nil => exact fun _ _ hmem => absurd hmem List.not_mem_nil
  | cons entry rest ih =>
      obtain ⟨key, own⟩ := entry
      obtain ⟨word, s, rfl, hname, hown⟩ | hskipped := Agents.counts_or_skipped key own
      · rw [Agents.update_cons hname hown] at h
        obtain ⟨flag, hflag, h⟩ := bind_eq_ok.mp h
        obtain ⟨enabled, -, h⟩ := bind_eq_ok.mp h
        obtain ⟨limit, hlimit, h⟩ := bind_eq_ok.mp h
        obtain ⟨n, hn, hrest⟩ := bind_eq_ok.mp h
        intro name values hmem hknown hvalues
        rcases List.mem_cons.mp hmem with heq | hmem
        · obtain ⟨-, rfl⟩ := Prod.mk.inj heq
          cases values with
          | map fields =>
              cases hlimit
              exact ⟨fields, rfl, (holdsInteger_iff _).mpr ⟨n, hn⟩⟩
          | _ => cases hflag
        · exact ih hrest name values hmem hknown hvalues
      · rw [Agents.update_cons_of_skipped hskipped] at h
        intro name values hmem hknown hvalues
        rcases List.mem_cons.mp hmem with heq | hmem
        · obtain ⟨rfl, rfl⟩ := Prod.mk.inj heq
          obtain ⟨s, hname⟩ := Option.isSome_iff_exists.mp hknown
          exact absurd hvalues (Bool.eq_false_iff.mp (hskipped name s rfl hname))
        · exact ih h name values hmem hknown hvalues

theorem Agents.regular_of_ofDocument {agents : Agents} (h : Agents.ofDocument (.map fields) = .ok agents)
    (hpresent : (Document.under "specialists" fields).truthy = true) :
    Agents.Regular (Document.under "specialists" fields) := by
  obtain ⟨specialists, hspecialists, h⟩ := bind_eq_ok.mp h
  obtain rfl : Document.under "specialists" fields = specialists := Except.ok.inj hspecialists
  obtain ⟨named, hnamed, h⟩ := bind_eq_ok.mp h
  rw [Document.orElse, if_pos hpresent] at hnamed
  cases hmap : Document.under "specialists" fields with
  | map own =>
      rw [hmap] at hnamed
      cases hnamed
      exact Agents.regular_of_update h
  | _ =>
      rw [hmap] at hnamed
      cases hnamed

/-- **A document that is accepted is regular.** -/
theorem RepoConfig.regular_of_ofDocument {c : RepoConfig}
    (h : RepoConfig.ofDocument (.map entries) = .ok c) : RepoConfig.Regular entries := by
  have hraw : (Document.map entries).orElse (.map []) = .map entries := by
    cases entries <;> rfl
  have hread := hraw ▸ RepoConfig.readFrom_of_ofDocument h
  refine ⟨?_, ?_, ?_, ?_⟩
  · intro items hitems d hd
    obtain ⟨docs, hdocs, hallowlist⟩ := hread.allowlist
    rcases readList_eq_ok.mp hdocs with ⟨hnull, -⟩ | hlist
    · cases hitems.symm.trans hnull
    · cases hitems.symm.trans hlist
      obtain ⟨e, he⟩ := exists_eq_ok_of_mapM hallowlist hd
      exact AllowlistEntry.regular_of_ofDocument he
  · intro fields hfields
    obtain ⟨d, hd, hsettings⟩ := hread.settings
    obtain rfl := eq_map_of_readMapping hd hfields
    exact Settings.regular_of_ofDocument hsettings
  · intro fields hfields
    obtain ⟨d, hd, henforcement⟩ := hread.enforcement
    obtain rfl := eq_map_of_readMapping hd hfields
    exact Enforcement.regular_of_ofDocument henforcement
  · intro fields hfields
    obtain ⟨d, hd, hagents⟩ := hread.agents
    obtain rfl := eq_map_of_readMapping hd hfields
    exact Agents.regular_of_ofDocument hagents

/-! ## Violated contracts -/

variable {α β : Type}

/-- The operation gives an answer, or says which contract is violated. -/
def Judged (x : Except Fault α) : Prop :=
  (∃ a, x = .ok a) ∨ ∃ cause, x = .error (.policy cause)

namespace Judged

theorem ok (a : α) : Judged (.ok a) := .inl ⟨a, rfl⟩

theorem violated (cause : PolicyFault) : Judged (.error (.policy cause) : Except Fault α) :=
  .inr ⟨cause, rfl⟩

theorem bind {x : Except Fault α} {k : α → Except Fault β} (hx : Judged x)
    (hk : ∀ a, x = .ok a → Judged (k a)) : Judged (x >>= k) := by
  rcases hx with ⟨a, rfl⟩ | ⟨cause, rfl⟩
  · exact hk a rfl
  · exact violated cause

/-- A field of a mapping is there, and it can be written if the mapping can. -/
theorem bind_field {k : Document → Except Fault β} (h : (Document.map fields).spellable = true)
    (name : String) (hk : ∀ x, x.spellable = true → Judged (k x)) :
    Judged ((Document.map fields).field name >>= k) :=
  hk _ (Document.spellable_under h name)

theorem bind_fieldOr {k : Document → Except Fault β} (h : (Document.map fields).spellable = true)
    (name : String) {absent : Document} (habsent : absent.spellable = true)
    (hk : ∀ x, x.spellable = true → Judged (k x)) :
    Judged ((Document.map fields).fieldOr name absent >>= k) := by
  refine hk _ ?_
  cases hlookup : Document.lookup name fields with
  | none => exact habsent
  | some x => exact Document.spellable_of_lookup h hlookup

theorem bind_spell {x : Document} {k : String → Except Fault β} (h : x.spellable = true)
    (hk : ∀ s, Judged (k s)) : Judged (x.spell >>= k) := by
  rw [Document.spell_of_spellable h]
  exact hk _

/-- A limit that gives an integer is read. -/
theorem bind_integer {name : String} {k : Int → Except Fault β} (h : HoldsInteger name fields)
    (absent : Int) (hk : ∀ n, Judged (k n)) :
    Judged ((Document.map fields).fieldOr name (.int absent) >>= fun d => d.toInteger >>= k) := by
  obtain ⟨n, hn⟩ := (holdsInteger_iff absent).mp h
  show Judged (((Document.lookup name fields).getD (.int absent)).toInteger >>= k)
  rw [hn]
  exact hk n

end Judged

theorem judged_mapM {f : α → Except Fault β} {xs : List α} (h : ∀ x ∈ xs, Judged (f x)) :
    Judged (xs.mapM f) := by
  induction xs with
  | nil => exact .ok []
  | cons x rest ih =>
      rw [List.mapM_cons]
      refine (h x (List.mem_cons_self ..)).bind fun y _ => ?_
      exact (ih fun z hz => h z (List.mem_cons_of_mem _ hz)).bind fun ys _ => .ok _

/-! ## Regularity is enough -/

theorem judged_readSection (key : String) (kind : SectionKind) (absent : Document) :
    Judged (readSection (.map entries) key kind absent) := by
  rw [readSection_map]
  split
  · exact .ok _
  · split
    · exact .ok _
    · exact .violated _

theorem judged_readList (key : String) : Judged (readList (.map entries) key) := by
  refine (judged_readSection key .list (.list [])).bind fun d hd => ?_
  rw [readSection_map] at hd
  cases hvalue : Document.under key entries <;> rw [hvalue] at hd <;> cases hd <;> exact .ok _

/-- The items of a section can be written if the whole can. -/
theorem spellable_of_readList (h : (Document.map entries).spellable = true) {key : String}
    {docs : List Document} (hdocs : readList (.map entries) key = .ok docs) {d : Document}
    (hd : d ∈ docs) : d.spellable = true := by
  have hwhole := Document.spellable_under h key
  rcases readList_eq_ok.mp hdocs with ⟨-, rfl⟩ | hlist
  · exact absurd hd List.not_mem_nil
  · exact Document.spellable_list_iff.mp (hlist ▸ hwhole) d hd

/-- So can a section that is a mapping. -/
theorem spellable_of_readMapping (h : (Document.map entries).spellable = true) {key : String}
    {d : Document} (hd : readSection (.map entries) key .mapping (.map []) = .ok d) :
    d.spellable = true := by
  have hwhole := Document.spellable_under h key
  obtain ⟨fields, rfl, ⟨-, rfl⟩ | hmap⟩ := readMapping_eq_ok.mp hd
  · rfl
  · exact hmap ▸ hwhole

theorem judged_checkRule {d : Document} (h : d.spellable = true) (place : String) :
    Judged (checkRule place d) := by
  cases d with
  | map fields =>
      simp only [checkRule]
      split
      · exact .ok ()
      · have hid : ((Document.lookup "id" fields).getD (.text "<no id>")).spellable = true := by
          cases hlookup : Document.lookup "id" fields with
          | none => rfl
          | some x => exact Document.spellable_of_lookup h hlookup
        rw [PolicyFault.citing, if_pos hid]
        exact .violated _
  | _ => exact .violated _

theorem judged_readFlag {d : Document} (h : d.spellable = true) (absent : Bool) (key : String) :
    Judged (readFlag absent key d) := by
  have hword : Judged (do
      let word := Text.toLower (Text.strip (← d.spell))
      if ["true", "yes", "on", "1"].contains word then return true
      else if ["false", "no", "off", "0"].contains word then return false
      else throw (.policy (.flag key d))) := by
    refine .bind_spell h fun s => ?_
    show Judged (if _ then _ else if _ then _ else _)
    split
    · exact .ok true
    · split
      · exact .ok false
      · exact .violated _
  cases d with
  | null => exact .ok absent
  | bool b => exact .ok b
  | _ => exact hword

theorem Rule.judged_ofDocument {d : Document} (h : d.spellable = true) (source : RuleSource)
    (place : String) : Judged (Rule.ofDocument source place d) := by
  refine (judged_checkRule h place).bind fun _ hcheck => ?_
  obtain ⟨fields, rfl, -⟩ := checkRule_eq_ok.mp hcheck
  refine .bind_field h "id" fun id hid => .bind_spell hid fun _ => ?_
  refine .bind_fieldOr h "description" rfl fun description hdescription =>
    .bind_spell hdescription fun _ => ?_
  refine .bind_field h "scope" fun scope hscope => .bind_spell hscope fun _ => ?_
  refine .bind_field h "pattern" fun pattern hpattern => .bind_spell hpattern fun _ => ?_
  exact .ok _

theorem HardRule.judged_ofDocument {d : Document} (h : d.spellable = true) (source : RuleSource)
    (place : String) : Judged (HardRule.ofDocument source place d) := by
  refine (judged_checkRule h place).bind fun _ hcheck => ?_
  obtain ⟨fields, rfl, -⟩ := checkRule_eq_ok.mp hcheck
  refine .bind_field h "id" fun id hid => .bind_spell hid fun _ => ?_
  refine .bind_fieldOr h "description" rfl fun description hdescription =>
    .bind_spell hdescription fun _ => ?_
  refine .bind_field h "scope" fun scope hscope => .bind_spell hscope fun _ => ?_
  refine .bind_field h "pattern" fun pattern hpattern => .bind_spell hpattern fun _ => ?_
  have hflag := Document.spellable_under h "new_code_only"
  exact (judged_readFlag hflag true "new_code_only").bind fun _ _ => .ok _

theorem AllowlistEntry.judged_ofDocument {d : Document} (h : d.spellable = true)
    (hregular : AllowlistEntry.Regular d) : Judged (AllowlistEntry.ofDocument d) := by
  cases d with
  | map fields =>
      rw [AllowlistEntry.ofDocument_map]
      split
      · next hpath =>
        refine .bind_spell (Document.spellable_under h "path") fun _ => ?_
        split
        · next hids =>
          obtain ⟨ids, hitems⟩ := hregular fields rfl hpath hids
          rw [hitems]
          exact .ok _
        · exact .ok _
      · exact .violated _
  | _ => exact .violated _

theorem Settings.judged_ofDocument (hcomments : HoldsInteger "max_inline_comments" fields)
    (hbudget : HoldsInteger "context_budget" fields) :
    Judged (Settings.ofDocument (.map fields)) :=
  .bind_integer hcomments 3 fun _ => .bind_integer hbudget 50000 fun _ => .ok _

theorem judged_readBlockOn (d : Document) : Judged (readBlockOn d) := by
  cases d with
  | text s => exact .ok _
  | list items => exact .ok _
  | _ => exact .violated _

theorem Enforcement.judged_ofDocument (h : (Document.map fields).spellable = true)
    (hcomments : HoldsInteger "max_comments" fields) (limit : Int) :
    Judged (Enforcement.ofDocument limit (.map fields)) := by
  refine (judged_readBlockOn _).bind fun _ _ => ?_
  have hflag := Document.spellable_under h "new_code_only"
  refine (judged_readFlag hflag true "new_code_only").bind fun _ _ => ?_
  exact .bind_integer hcomments limit fun _ => .ok _

theorem Agents.judged_update {named : List (Document × Document)}
    (h : (Document.map named).spellable = true) (hregular : Agents.Regular (.map named))
    (agents : Agents) : Judged (Agents.update agents named) := by
  obtain ⟨_, hnamed, hregular⟩ := hregular
  cases hnamed
  have hspellable := Document.spellable_map_iff.mp h
  clear h
  induction named generalizing agents with
  | nil => exact .ok agents
  | cons entry rest ih =>
      obtain ⟨key, values⟩ := entry
      have hrest (agents : Agents) : Judged (Agents.update agents rest) :=
        ih agents (fun name own hmem => hregular name own (List.mem_cons_of_mem _ hmem))
          fun e he => hspellable e (List.mem_cons_of_mem _ he)
      obtain ⟨word, s, rfl, hname, hvalues⟩ | hskipped := Agents.counts_or_skipped key values
      · obtain ⟨fields, rfl, hlimit⟩ :=
          hregular word values (List.mem_cons_self ..) (Option.isSome_of_eq_some hname) hvalues
        have hfields := (hspellable _ (List.mem_cons_self ..)).2
        rw [Agents.update_cons hname hvalues]
        refine .bind_field hfields "enabled" fun flag hflag => ?_
        refine (judged_readFlag hflag _ _).bind fun _ _ => ?_
        exact .bind_integer hlimit _ fun _ => hrest _
      · rw [Agents.update_cons_of_skipped hskipped]
        exact hrest agents

theorem Agents.judged_ofDocument (h : (Document.map fields).spellable = true)
    (hregular : (Document.under "specialists" fields).truthy = true →
      Agents.Regular (Document.under "specialists" fields)) :
    Judged (Agents.ofDocument (.map fields)) := by
  have hspecialists := Document.spellable_under h "specialists"
  show Judged (((Document.under "specialists" fields).orElse (.map [])).entries >>=
    Agents.update fun _ => .default)
  unfold Document.orElse
  split
  · next hpresent =>
    obtain ⟨named, hnamed, hentries⟩ := hregular hpresent
    rw [hnamed] at hspecialists ⊢
    exact Agents.judged_update hspecialists ⟨named, rfl, hentries⟩ _
  · exact .ok _

theorem judged_readSoftRules (h : (Document.map entries).spellable = true) :
    Judged (readSoftRules (.map entries)) := by
  refine (judged_readList "soft_rules").bind fun docs hdocs => ?_
  refine (judged_mapM fun d hd =>
    Rule.judged_ofDocument (spellable_of_readList h hdocs hd) _ _).bind fun soft _ => ?_
  split
  · refine (judged_readList "rules").bind fun docs hdocs => ?_
    exact judged_mapM fun d hd => Rule.judged_ofDocument (spellable_of_readList h hdocs hd) _ _
  · exact .ok soft

/-- **A regular document that can be written is accepted, or it violates a contract.** -/
theorem RepoConfig.judged_ofDocument (h : (Document.map entries).spellable = true)
    (hregular : RepoConfig.Regular entries) : Judged (RepoConfig.ofDocument (.map entries)) := by
  have hraw : (Document.map entries).orElse (.map []) = .map entries := by
    cases entries <;> rfl
  unfold RepoConfig.ofDocument
  simp only [hraw]
  refine (judged_readSoftRules h).bind fun _ _ => ?_
  refine (judged_readList "hard_rules").bind fun docs hdocs => ?_
  refine (judged_mapM fun d hd =>
    HardRule.judged_ofDocument (spellable_of_readList h hdocs hd) _ _).bind fun _ _ => ?_
  refine (judged_readList "allowlist").bind fun docs hdocs => ?_
  refine Judged.bind (judged_mapM fun d hd => ?allowlist) fun _ _ => ?_
  case allowlist =>
    refine AllowlistEntry.judged_ofDocument (spellable_of_readList h hdocs hd) ?_
    rcases readList_eq_ok.mp hdocs with ⟨-, rfl⟩ | hlist
    · exact absurd hd List.not_mem_nil
    · exact hregular.allowlist docs hlist d hd
  refine (judged_readSection "settings" .mapping (.map [])).bind fun d hd => ?_
  refine Judged.bind ?settings fun settings _ => ?_
  case settings =>
    obtain ⟨fields, rfl, ⟨-, rfl⟩ | hmap⟩ := readMapping_eq_ok.mp hd
    · exact .ok _
    · obtain ⟨hcomments, hbudget⟩ := hregular.settings fields hmap
      exact Settings.judged_ofDocument hcomments hbudget
  refine (judged_readSection "enforcement" .mapping (.map [])).bind fun d hd => ?_
  refine Judged.bind ?enforcement fun _ _ => ?_
  case enforcement =>
    have hspellable := spellable_of_readMapping h hd
    obtain ⟨fields, rfl, ⟨-, rfl⟩ | hmap⟩ := readMapping_eq_ok.mp hd
    · exact .ok _
    · exact Enforcement.judged_ofDocument hspellable (hregular.enforcement fields hmap) _
  refine (judged_readList "ignore").bind fun docs hdocs => ?_
  refine Judged.bind (judged_mapM fun d hd => ?ignore) fun _ _ => ?_
  case ignore =>
    rw [Document.spell_of_spellable (spellable_of_readList h hdocs hd)]
    exact .ok _
  refine (judged_readSection "agents" .mapping (.map [])).bind fun d hd => ?_
  refine Judged.bind ?agents fun _ _ => .ok _
  case agents =>
    have hspellable := spellable_of_readMapping h hd
    obtain ⟨fields, rfl, ⟨-, rfl⟩ | hmap⟩ := readMapping_eq_ok.mp hd
    · exact .ok _
    · exact Agents.judged_ofDocument hspellable (hregular.agents fields hmap)

end ReviewGate
