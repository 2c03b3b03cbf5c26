import ReviewGate.Proofs.Document.Key
import ReviewGate.Proofs.Policy.Config
import ReviewGate.Proofs.Review.Allowlist

/-!
# `ReviewGate.Proofs.Review.Listed` — rules that the allowlist names

The id of a hard rule is the text of what the configuration gives as its id, whatever kind of value
that is. The ids that an entry of the allowlist lists are kept as they stand there, and a rule is
looked up among them by its id, a text. So an entry excuses a rule exactly if it lists the text. An id
that is given as a text is its own text, and listing it works; one that is given as a number or a date
is never found under the value with which the rule was defined.

## Contents
- `Document.ListsRule`: a configuration with a rule and an entry that lists its id.
- `exists_rule_of_loadPolicy`, `exists_entry_of_loadPolicy`: what the loaded policy has of them.
- `HardRule.findings_of_excused`, `not_mem_hardRuleFindings`: an excused rule finds nothing.
- `listed_rule_excused`: rules that an entry lists.
- `listed_number_not_excused`: one that it lists in vain.
-/

namespace ReviewGate

open Diff

/-- The configuration has a hard rule with the id `v`, and for the paths that `g` names an entry of
the allowlist that lists the ids `ids`, with `v` among them. -/
structure Document.ListsRule (config v g : Document) (ids : List Document) : Prop where
  rule : ∃ rules, config.fieldIn "hard_rules" = .list rules ∧ ∃ d ∈ rules, d.fieldIn "id" = v
  entry : ∃ entries, config.fieldIn "allowlist" = .list entries ∧
    ∃ d ∈ entries, d.fieldIn "path" = g ∧ (d.fieldIn "rule_ids").items = .ok ids
  listed : v ∈ ids

/-! ## What is read -/

/-- A section that is a list is read as it is. -/
theorem eq_of_readList {config : Document} {key : String} {docs items : List Document}
    (h : readList (config.orElse (.map [])) key = .ok docs)
    (hitems : config.fieldIn key = .list items) : docs = items := by
  rw [← config.fieldIn_orElse] at hitems
  cases hraw : config.orElse (.map []) with
  | map sections =>
      rw [hraw] at h hitems
      rcases readList_eq_ok.mp h with ⟨hnull, -⟩ | hlist
      · cases hitems.symm.trans hnull
      · exact Document.list.inj (hlist.symm.trans hitems)
  | _ =>
      rw [hraw] at h
      cases h

/-- The id of a hard rule is the text of the id in its document. -/
theorem HardRule.spell_of_ofDocument {source : RuleSource} {place : String} {d : Document}
    {r : HardRule} (h : HardRule.ofDocument source place d = .ok r) :
    (d.fieldIn "id").spell = .ok r.id := by
  simp only [HardRule.ofDocument, bind_eq_ok] at h
  obtain ⟨_, hcheck, id, hid, idText, hidText, _, _, _, _, _, _, _, _, h⟩ := h
  obtain ⟨_, _, _, _, _, _, _, _, _, _, _, _, _, _, _, _, _, _, _, _, hr⟩ := h
  obtain ⟨entries, rfl, -⟩ := checkRule_eq_ok.mp hcheck
  obtain rfl := Except.ok.inj hid
  rw [← Except.ok.inj hr]
  exact hidText

/-- What has items counts as present. -/
theorem Document.truthy_of_items {d : Document} {ids : List Document} (h : d.items = .ok ids)
    (hne : ids ≠ []) : d.truthy = true := by
  cases d with
  | list _ | text _ | map _ | bytes _ | set _ =>
      obtain rfl := Except.ok.inj h
      simpa [Document.truthy] using hne
  | _ => cases h

/-- An entry of the allowlist names paths by a text and keeps the ids that its document lists. -/
theorem AllowlistEntry.parts_of_ofDocument {d : Document} {e : AllowlistEntry}
    (h : AllowlistEntry.ofDocument d = .ok e) {ids : List Document}
    (hids : (d.fieldIn "rule_ids").items = .ok ids) (hne : ids ≠ []) :
    (d.fieldIn "path").spell = .ok e.path ∧ e.ruleIds = some ids := by
  cases d with
  | map fields =>
      rw [AllowlistEntry.ofDocument_map] at h
      split at h
      · obtain ⟨path, hpath, h⟩ := bind_eq_ok.mp h
        have hpresent : (Document.under "rule_ids" fields).truthy = true :=
          Document.truthy_of_items hids hne
        have hlist : (Document.under "rule_ids" fields).items = .ok ids := hids
        rw [if_pos hpresent, hlist] at h
        obtain rfl := Except.ok.inj h
        exact ⟨hpath, rfl⟩
      · cases h
  | _ => cases h

/-- An entry that lists ids excuses the rules whose ids are there as texts. -/
theorem AllowlistEntry.excuses_iff {e : AllowlistEntry} {ids : List Document}
    (hids : e.ruleIds = some ids) (hne : ids ≠ []) (ruleId : String) :
    e.excuses ruleId = true ↔ .text ruleId ∈ ids := by
  unfold AllowlistEntry.excuses
  rw [hids]
  simp only [List.isEmpty_iff, hne, List.any_eq_true, isText_iff, Bool.or_eq_true, false_or]
  constructor
  · rintro ⟨_, hmem, rfl⟩
    exact hmem
  · exact fun hmem => ⟨_, hmem, rfl⟩

/-! ## Loaded policies -/

section

variable {config : Document} {learned : List Document} {snapshot : Document} {mode : Option String}
  {p : Policy} (h : loadPolicy config learned snapshot mode = .ok p)
include h

/-- A rule of the configuration is in force under its id, perhaps as another rule with that id
says. -/
theorem exists_rule_of_loadPolicy {rules : List Document}
    (hrules : config.fieldIn "hard_rules" = .list rules) {d : Document} (hd : d ∈ rules) :
    ∃ id, (d.fieldIn "id").spell = .ok id ∧ ∃ rule ∈ p.hardRules, rule.id = id := by
  obtain ⟨c, l, stored, hc, -, -, rfl⟩ := loadPolicy_eq_ok.mp h
  simp only [RepoConfig.ofDocument, bind_eq_ok] at hc
  obtain ⟨_, -, docs, hdocs, hard, hhard, hc⟩ := hc
  obtain ⟨_, -, _, -, _, -, _, -, _, -, _, -, _, -, _, -, _, -, _, -, hc⟩ := hc
  obtain rfl := eq_of_readList hdocs hrules
  obtain ⟨r, hr, hread⟩ := exists_mem_of_mapM hhard hd
  have hmem : r ∈ c.hardRules := by
    rw [← Except.ok.inj hc]
    exact hr
  have hkey : r.id ∈ (((stored.map (·.hardRules)).getD []) ++ c.hardRules).map (·.id) :=
    List.mem_map_of_mem (List.mem_append_right _ hmem)
  obtain ⟨rule, hrule, hid⟩ := List.mem_map.mp (mem_map_putAll [] _ (Or.inr hkey))
  exact ⟨r.id, HardRule.spell_of_ofDocument hread, rule, hrule, hid⟩

/-- An entry of the configuration's allowlist is in force as it stands. -/
theorem exists_entry_of_loadPolicy {entries : List Document}
    (hentries : config.fieldIn "allowlist" = .list entries) {d : Document} (hd : d ∈ entries) :
    ∃ e ∈ p.allowlist, AllowlistEntry.ofDocument d = .ok e := by
  obtain ⟨c, l, stored, hc, -, -, rfl⟩ := loadPolicy_eq_ok.mp h
  obtain ⟨docs, hdocs, hallowlist⟩ := (RepoConfig.readFrom_of_ofDocument hc).allowlist
  obtain rfl := eq_of_readList hdocs hentries
  exact exists_mem_of_mapM hallowlist hd

end

/-! ## Excused rules -/

/-- No entry excuses a rule of which the allowlist says that it counts. -/
theorem not_excuses_of_excusedBy {path ruleId : String} {entries : List AllowlistEntry}
    (h : excusedBy path ruleId entries = .ok false) {e : AllowlistEntry} (he : e ∈ entries)
    (hmatch : Glob.matchesPath path e.path = .ok true) : e.excuses ruleId = false := by
  induction entries with
  | nil => exact absurd he List.not_mem_nil
  | cons e' rest ih =>
      obtain ⟨covered, hcovered, h⟩ := bind_eq_ok.mp h
      split at h
      · cases h
      · next hexcuses =>
        rcases List.mem_cons.mp he with rfl | he
        · obtain rfl := Except.ok.inj (hcovered.symm.trans hmatch)
          exact Bool.eq_false_iff.mpr fun h => hexcuses (by rw [h]; rfl)
        · exact ih h he

section

variable {p : Policy} {e : AllowlistEntry} (he : e ∈ p.allowlist) {id : String}
  (hexcuses : e.excuses id = true)
include he hexcuses

/-- **What the hard rules find has no finding of an excused rule** on a path that the entry covers. -/
theorem not_mem_hardRuleFindings {specialist : String} {routed : List Routed} {contents : Contents}
    {found : List Finding} (hfound : hardRuleFindings p specialist routed contents = .ok found)
    {x : Finding} (hx : x ∈ found) (hid : x.ruleId = .text id) {path : String}
    (hfile : x.file = .text path) : Glob.matchesPath path e.path ≠ .ok true := by
  intro hmatch
  obtain ⟨perFile, hperFile, hfound⟩ := bind_eq_ok.mp hfound
  obtain rfl := Except.ok.inj hfound
  obtain ⟨perRule, hperRule, hx⟩ := List.mem_flatten.mp hx
  obtain ⟨lists, hlists, rfl⟩ := List.mem_map.mp hperRule
  obtain ⟨own, hown, hx⟩ := List.mem_flatten.mp hx
  obtain ⟨r, -, hrules⟩ := exists_of_mapM_eq_ok hperFile hlists
  obtain ⟨rule, -, hrule⟩ := exists_of_mapM_eq_ok hrules hown
  rw [rule.eq_report_of_findings hrule] at hx
  obtain ⟨hconcerns, n, -, -, rfl⟩ := rule.cause_of_mem_report hx
  obtain ⟨-, hlist⟩ := HardRule.concerns_eq_true_iff.mp hconcerns
  obtain rfl : rule.id = id := Document.text.inj hid
  obtain rfl : r.file.path = path := Document.text.inj hfile
  have hnot := not_excuses_of_excusedBy hlist he hmatch
  exact absurd hexcuses (Bool.eq_false_iff.mp hnot)

/-- **An excused rule finds nothing**, whatever its pattern is, as long as its scope and the globs of
the allowlist can be tried. -/
theorem HardRule.findings_of_excused {rule : HardRule} (hid : rule.id = id) {f : ChangedFile}
    (hmatch : Glob.matchesPath f.path e.path = .ok true)
    (hscope : ∃ b, Glob.matchesPath f.path rule.scope = .ok b)
    (hglobs : ∀ e ∈ p.allowlist, ∃ b, Glob.matchesPath f.path e.path = .ok b)
    (specialist content : String) : rule.findings p specialist f content = .ok [] := by
  obtain ⟨inScope, hinScope⟩ := hscope
  obtain ⟨excused, hexcused, hiff⟩ :
      ∃ b, excusedBy f.path rule.id p.allowlist = .ok b ∧ (b = true ↔ _) := excusedBy_ok hglobs
  obtain rfl : excused = true := hiff.mpr ⟨e, he, hmatch, hid ▸ hexcuses⟩
  have hconcerns : rule.concerns p f.path = .ok false := by
    rw [HardRule.concerns, hinScope, isAllowlisted, hexcused]
    cases inScope <;> rfl
  rw [HardRule.findings, hconcerns]
  rfl

end

/-- **A rule is excused where an entry lists the text of its id.** If a configuration that is accepted
has a hard rule with the id `v` and an entry of the allowlist that lists `v`, a rule is in force under
the text of `v`, and so is the entry, which excuses the rules whose ids it lists as texts. If `v` is a
text, this is one of them. If it is, then on a path that the entry covers no specialist gets a finding
of the rule, whatever files and contents there are; the rule itself gives an empty list, even if its
pattern is none, unless its scope or a glob of the allowlist cannot be tried. -/
theorem listed_rule_excused {config : Document} {learned : List Document} {snapshot : Document}
    {mode : Option String} {p : Policy} (h : loadPolicy config learned snapshot mode = .ok p)
    {v g : Document} {ids : List Document} (hlists : config.ListsRule v g ids) :
    ∃ id glob, v.spell = .ok id ∧ g.spell = .ok glob ∧
      (∃ rule ∈ p.hardRules, rule.id = id) ∧
      (∃ e ∈ p.allowlist, e.path = glob ∧ ∀ ruleId, e.excuses ruleId = true ↔ .text ruleId ∈ ids) ∧
      ((∃ s, v = .text s) → .text id ∈ ids) ∧
      (.text id ∈ ids → ∀ specialist,
        (∀ routed contents found, hardRuleFindings p specialist routed contents = .ok found →
          ∀ x ∈ found, x.ruleId = .text id → ∀ path, x.file = .text path →
            Glob.matchesPath path glob ≠ .ok true) ∧
        ∀ rule ∈ p.hardRules, rule.id = id → ∀ (f : ChangedFile) (content : String),
          Glob.matchesPath f.path glob = .ok true →
          (∃ b, Glob.matchesPath f.path rule.scope = .ok b) →
          (∀ e ∈ p.allowlist, ∃ b, Glob.matchesPath f.path e.path = .ok b) →
          rule.findings p specialist f content = .ok []) := by
  obtain ⟨rules, hrules, d, hd, rfl⟩ := hlists.rule
  obtain ⟨entries, hentries, d', hd', rfl, hids⟩ := hlists.entry
  have hne : ids ≠ [] := List.ne_nil_of_mem hlists.listed
  obtain ⟨id, hid, hrule⟩ := exists_rule_of_loadPolicy h hrules hd
  obtain ⟨e, he, hread⟩ := exists_entry_of_loadPolicy h hentries hd'
  obtain ⟨hpath, hruleIds⟩ := AllowlistEntry.parts_of_ofDocument hread hids hne
  have hexcuses := AllowlistEntry.excuses_iff hruleIds hne
  refine ⟨id, e.path, hid, hpath, hrule, ⟨e, he, rfl, hexcuses⟩, ?_, fun hlisted specialist => ?_⟩
  · rintro ⟨s, hs⟩
    rw [hs] at hid
    obtain rfl : s = id := Except.ok.inj hid
    exact hs ▸ hlists.listed
  · have hexcused : e.excuses id = true := (hexcuses id).mpr hlisted
    exact ⟨fun _ _ _ hfound _ hx hxid _ hfile =>
        not_mem_hardRuleFindings he hexcused hfound hx hxid hfile,
      fun _ _ hrid _ content hmatch hscope hglobs =>
        HardRule.findings_of_excused he hexcused hrid hmatch hscope hglobs specialist content⟩

/-! ## A rule with a number -/

/-- A configuration with a rule against the letter b that does not count in `src`. -/
def listedConfig (id : Document) : Document :=
  .ofFields
    [("hard_rules", .list [.ofFields
        [("id", id), ("scope", .text "**/*.go"), ("pattern", .text "b")]]),
      ("allowlist", .list [.ofFields [("path", .text "src/**"), ("rule_ids", .list [id])]])]

/-- The rule of the configuration. -/
def listedRule (id : String) : HardRule where
  id := id
  description := ""
  scope := "**/*.go"
  pattern := "b"
  severity := .critical
  source := .seed
  category := .any
  demand := .forbid
  target := .addedLines
  message := .null
  newCodeOnly := true

/-- The policy of the configuration. -/
def listedPolicy (id : String) (listed : Document) : Policy where
  softRules := []
  hardRules := [listedRule id]
  allowlist := [⟨"src/**", some [listed], .null⟩]
  ignore := []
  settings := ⟨3, .null, 50000⟩
  enforcement := .default
  agents := fun _ => .default

theorem loadPolicy_listedConfig {id : Document} {s : String} (htruthy : id.truthy = true)
    (hspell : id.spell = .ok s) :
    loadPolicy (listedConfig id) [] .null none = .ok (listedPolicy s id) := by
  let rule : Document :=
    .ofFields [("id", id), ("scope", .text "**/*.go"), ("pattern", .text "b")]
  have hcheck : checkRule "hard_rules" rule = .ok () := by
    refine checkRule_eq_ok.mpr ⟨_, rfl, fun name hname => ?_⟩
    simp only [requiredFields, List.mem_cons, List.not_mem_nil, or_false] at hname
    obtain rfl | rfl | rfl := hname
    · exact htruthy
    · rfl
    · rfl
  have hrule : HardRule.ofDocument .seed "hard_rules" rule = .ok (listedRule s) :=
    bind_eq_ok.mpr ⟨(), hcheck, bind_eq_ok.mpr ⟨id, rfl, bind_eq_ok.mpr ⟨s, hspell, rfl⟩⟩⟩
  have hrules : [rule].mapM (HardRule.ofDocument .seed "hard_rules") = .ok [listedRule s] := by
    rw [List.mapM_cons, hrule]
    rfl
  have hconfig : RepoConfig.ofDocument (listedConfig id) = .ok
      ⟨[], [listedRule s], [], (listedPolicy s id).allowlist, (listedPolicy s id).settings,
        .default, (listedPolicy s id).agents⟩ :=
    bind_eq_ok.mpr ⟨[], rfl, bind_eq_ok.mpr ⟨[rule], rfl, bind_eq_ok.mpr ⟨_, hrules, rfl⟩⟩⟩
  exact loadPolicy_of_ofDocument hconfig none

/-- A file with the letter. -/
def letterFile : ChangedFile where
  path := "src/app.go"
  status := .modified
  hunks := [⟨"@@ -1 +1,2 @@", 1, 1, 1, 2, " package app\n+b"⟩]
  patch := "@@ -1 +1,2 @@\n package app\n+b"

theorem listsRule_listedConfig (id : Document) :
    (listedConfig id).ListsRule id (.text "src/**") [id] where
  rule := ⟨_, rfl, _, List.mem_singleton.mpr rfl, rfl⟩
  entry := ⟨_, rfl, _, List.mem_singleton.mpr rfl, rfl, rfl⟩
  listed := List.mem_singleton.mpr rfl

theorem matchesPath_letterFile : Glob.matchesPath letterFile.path "src/**" = .ok true :=
  eq_ok_of_toOption (by decide +kernel)

/-- A rule with a text as its id finds nothing in `src`. -/
theorem listed_rule_excused_sample :
    loadPolicy (listedConfig (.text "no-b")) [] .null none
        = .ok (listedPolicy "no-b" (.text "no-b")) ∧
      (listedConfig (.text "no-b")).ListsRule (.text "no-b") (.text "src/**") [.text "no-b"] ∧
      Glob.matchesPath letterFile.path "src/**" = .ok true ∧
      (listedRule "no-b").findings (listedPolicy "no-b" (.text "no-b")) "security" letterFile ""
        = .ok [] := by
  have hload := loadPolicy_listedConfig (rfl : (Document.text "no-b").truthy = true) rfl
  have hlists := listsRule_listedConfig (.text "no-b")
  obtain ⟨id, glob, hid, hglob, -, -, htext, hexcused⟩ := listed_rule_excused hload hlists
  obtain rfl : "no-b" = id := Except.ok.inj hid
  obtain rfl : "src/**" = glob := Except.ok.inj hglob
  refine ⟨hload, hlists, matchesPath_letterFile, ?_⟩
  refine (hexcused (htext ⟨_, rfl⟩) "security").2 _ (List.mem_singleton.mpr rfl) rfl letterFile ""
    matchesPath_letterFile (exists_eq_ok (by decide +kernel)) fun e he => ?_
  rw [List.mem_singleton.mp he]
  exact ⟨true, matchesPath_letterFile⟩

/-- A rule with a number as its id still finds the letter there. -/
theorem listed_number_not_excused :
    loadPolicy (listedConfig (.int 42)) [] .null none = .ok (listedPolicy "42" (.int 42)) ∧
      (listedConfig (.int 42)).ListsRule (.int 42) (.text "src/**") [.int 42] ∧
      Glob.matchesPath letterFile.path "src/**" = .ok true ∧
      ∃ x, hardRuleFindings (listedPolicy "42" (.int 42)) "security" [Routed.ofFile letterFile]
          (fun _ => "") = .ok [x] ∧
        x.ruleId = .text "42" ∧ x.file = .text letterFile.path := by
  have hspell : (Document.int 42).spell = .ok "42" := eq_ok_of_toOption (by decide +kernel)
  have hload := loadPolicy_listedConfig rfl hspell
  have hfound : ((hardRuleFindings (listedPolicy "42" (.int 42)) "security"
      [Routed.ofFile letterFile] fun _ => "").toOption.map fun found =>
        found.map fun x => x.ruleId.isText "42" && x.file.isText letterFile.path)
        = some [true] := by
    decide +kernel
  obtain ⟨found, hfound, hone⟩ := exists_eq_ok_of_map hfound
  obtain ⟨x, rest, rfl, hx, hrest⟩ := List.map_eq_cons_iff.mp hone
  obtain rfl := List.map_eq_nil_iff.mp hrest
  rw [Bool.and_eq_true, isText_iff, isText_iff] at hx
  exact ⟨hload, listsRule_listedConfig _, matchesPath_letterFile, x, hfound, hx⟩

end ReviewGate
