import ReviewGate.Mining.Conventions
import ReviewGate.Proofs.Document.Key
import ReviewGate.Proofs.Policy.Learned
import ReviewGate.Proofs.Policy.Merge

/-!
# `ReviewGate.Proofs.Mining.Effect` — what is learned takes effect

A rule makes a long way from the answer of a model to the policy of a run. It is read from the
answer, written behind the rules that are stored, read from there with them, and merged with the
configured ones. On the way nothing may change it or take its place. What is read from an answer is
complete, so it is read back as it was written; and its id is neither that of a stored rule nor that
of another new one, so of the rules with its id it is the last unless one is configured.

Only one thing keeps an answer from being read: an entry whose confidence is an integer of which
there is no double (`huge_confidence_not_read`).

## Contents
- `NamedByText`: entries whose ids are texts.
- `conventionOf?_of_check`, `conventionOf?_cases`: what becomes of one entry.
- `conventionsFrom_cases`, `conventionsOf_cases`: what becomes of an answer.
- `filter_mergePolicy_learned`: a learned rule in a policy.
- `mined_rules_take_effect`: from the answer to the policy.
-/

namespace ReviewGate

open Number

namespace Mining

variable (origin : Origin) {fields : List (Document × Document)}

/-- If the entry has an id, it is a text. -/
def NamedByText (entry : Document) : Prop :=
  ∀ fields name, entry = .map fields → Document.lookup "id" fields = some name →
    name.truthy = true → ∃ s, name = .text s

/-! ## One entry -/

theorem confidenceOf_of_huge {d : Document} (h : d.Huge) :
    confidenceOf d = .error .numberRange := by
  unfold confidenceOf
  rw [toDouble_eq_numberRange_iff.mpr h]

/-- A confidence is read unless it is huge. -/
theorem confidenceOf_cases (d : Document) :
    (∃ x, confidenceOf d = .ok x) ∨ confidenceOf d = .error .numberRange ∧ d.Huge := by
  unfold confidenceOf
  cases h : d.toDouble with
  | ok x => exact .inl ⟨_, rfl⟩
  | error fault =>
      obtain ⟨rfl, hhuge⟩ | rfl | rfl := fault_of_toDouble h
      · exact .inr ⟨rfl, hhuge⟩
      · exact .inl ⟨_, rfl⟩
      · exact .inl ⟨_, rfl⟩

/-- An entry without all that a rule needs is dropped. -/
theorem conventionOf?_of_incomplete {entry : Document}
    (hcheck : checkRule "learned rules" entry ≠ .ok ()) (seen : List Document.Key) :
    conventionOf? origin seen entry = .ok none := by
  cases entry with
  | map fields =>
      refine if_pos ?_
      by_contra hall
      simp only [Bool.or_eq_true, not_or, Bool.not_eq_true', Bool.not_eq_false] at hall
      refine hcheck (checkRule_eq_ok.mpr ⟨fields, rfl, fun name hname => ?_⟩)
      simp only [requiredFields, List.mem_cons, List.not_mem_nil, or_false] at hname
      rcases hname with rfl | rfl | rfl
      · exact hall.1.1
      · exact hall.1.2
      · exact hall.2
  | _ => rfl

/-- The confidence that an entry gives, zero if it gives none. -/
def confidenceIn : Document → Document
  | .map fields => (Document.lookup "confidence" fields).getD (.float (Binary64.zero false))
  | _ => .float (Binary64.zero false)

/-- An entry with all that a rule needs: its id is looked up, and then its confidence is read. -/
theorem conventionOf?_of_check {entry : Document}
    (hcheck : checkRule "learned rules" entry = .ok ()) :
    ∃ rule : Binary64 → LearnedRule,
      (∀ x, (rule x).id = (entry.fieldIn "id").plain ∧ (rule x).confidence = x ∧
        (rule x).toRule.Complete) ∧
      ∀ seen, conventionOf? origin seen entry = (do
        let key ← (entry.fieldIn "id").keyOf
        if seen.contains key then return none
        let confidence ← confidenceOf (confidenceIn entry)
        return some (key, rule confidence)) := by
  obtain ⟨fields, rfl, hall⟩ := checkRule_eq_ok.mp hcheck
  have hid := hall "id" (by decide)
  have hscope := hall "scope" (by decide)
  have hpattern := hall "pattern" (by decide)
  let get (name : String) : Document := (Document.lookup name fields).getD .null
  refine ⟨fun confidence => ⟨(get "id").plain,
    ((Document.lookup "description" fields).getD (.text "")).plain, (get "scope").plain,
    (get "pattern").plain, .ofDocument .warning (get "severity"), confidence, origin.number,
    origin.mergedAt⟩, fun x => ⟨rfl, rfl, plain_ne_empty hid, plain_ne_empty hscope,
    plain_ne_empty hpattern⟩, fun seen => ?_⟩
  have hpresent : ¬(!(get "id").truthy || !(get "scope").truthy || !(get "pattern").truthy)
      = true := by
    simp only [get, hid, hscope, hpattern]
    decide
  show (if _ then _ else (get "id").keyOf >>= _) = _
  rw [if_neg hpresent]
  rfl

/-- Such an entry gives a complete rule if its id is a new text and its confidence can be read. -/
theorem conventionOf?_of_checkRule (hcheck : checkRule "learned rules" (.map fields) = .ok ())
    (hname : NamedByText (.map fields)) (seen : List Document.Key) :
    ∃ (s : String) (rule : Binary64 → LearnedRule),
      (∀ x, (rule x).id = s ∧ (rule x).toRule.Complete) ∧
      conventionOf? origin seen (.map fields) =
        if seen.contains (.text s) then .ok none
        else do
          let confidence ← confidenceOf
            ((Document.lookup "confidence" fields).getD (.float (Binary64.zero false)))
          return some (.text s, rule confidence) := by
  obtain ⟨rule, hrule, hread⟩ := conventionOf?_of_check origin hcheck
  obtain ⟨_, hfields, hall⟩ := checkRule_eq_ok.mp hcheck
  cases hfields
  have hid := hall "id" (by decide)
  obtain ⟨s, hs⟩ : ∃ s, (Document.map fields).fieldIn "id" = .text s := by
    show ∃ s, (Document.lookup "id" fields).getD .null = .text s
    cases hlookup : Document.lookup "id" fields with
    | none =>
        rw [hlookup] at hid
        cases hid
    | some name =>
        rw [hlookup] at hid
        exact hname fields name rfl hlookup hid
  refine ⟨s, rule, fun x => ?_, ?_⟩
  · obtain ⟨hname, -, hcomplete⟩ := hrule x
    exact ⟨hname.trans (congrArg Document.plain hs), hcomplete⟩
  · rw [hread, hs]
    rfl

/-- **An entry gives nothing, a complete rule with a new id, or a fault because of a huge
confidence.** -/
theorem conventionOf?_cases {entry : Document} (hname : NamedByText entry)
    (seen : List Document.Key) :
    conventionOf? origin seen entry = .ok none ∨
      (∃ r, conventionOf? origin seen entry = .ok (some (.text r.id, r)) ∧
        Document.Key.text r.id ∉ seen ∧ r.toRule.Complete) ∨
      conventionOf? origin seen entry = .error .numberRange ∧ LearnedRule.Overflows entry := by
  by_cases hcheck : checkRule "learned rules" entry = .ok ()
  case neg => exact .inl (conventionOf?_of_incomplete origin hcheck seen)
  obtain ⟨fields, rfl, -⟩ := checkRule_eq_ok.mp hcheck
  obtain ⟨s, rule, hrule, hread⟩ := conventionOf?_of_checkRule origin hcheck hname seen
  rw [hread]
  by_cases hseen : seen.contains (.text s) = true
  case pos => exact .inl (if_pos hseen)
  rw [if_neg hseen]
  have hnew : Document.Key.text s ∉ seen := fun hmem => hseen (List.contains_iff_mem.mpr hmem)
  obtain ⟨x, hx⟩ | ⟨hfault, hhuge⟩ := confidenceOf_cases
    ((Document.lookup "confidence" fields).getD (.float (Binary64.zero false)))
  · obtain ⟨hid, hcomplete⟩ := hrule x
    refine .inr (.inl ⟨rule x, ?_, hid ▸ hnew, hcomplete⟩)
    rw [hx, hid]
    rfl
  · refine .inr (.inr ⟨?_, hcheck, ?_⟩)
    · rw [hfault]
      rfl
    · obtain ⟨value, hlookup, hhuge⟩ := exists_huge_of_lookup hhuge
      exact ⟨fields, value, rfl, hlookup, hhuge⟩

/-! ## An answer -/

/-- **The rules of entries are complete and have new ids, no two the same.** Where there are none, it
is because of a huge confidence. -/
theorem conventionsFrom_cases {entries : List Document} (hnames : ∀ e ∈ entries, NamedByText e)
    (seen : List Document.Key) :
    (∃ new, conventionsFrom origin seen entries = .ok new ∧
      (∀ r ∈ new, Document.Key.text r.id ∉ seen ∧ r.toRule.Complete) ∧
      (new.map (·.id)).Nodup) ∨
    conventionsFrom origin seen entries = .error .numberRange ∧
      ∃ e ∈ entries, LearnedRule.Overflows e := by
  induction entries generalizing seen with
  | nil => exact .inl ⟨[], rfl, fun _ hr => absurd hr List.not_mem_nil, List.nodup_nil⟩
  | cons entry rest ih =>
      obtain ⟨hname, hrest⟩ := List.forall_mem_cons.mp hnames
      rw [conventionsFrom]
      obtain hnone | ⟨r, hr, hnew, hcomplete⟩ | ⟨hfault, hoverflows⟩ :=
        conventionOf?_cases origin hname seen
      · rw [hnone, ok_bind]
        refine (ih hrest seen).imp_right fun ⟨hfault, e, he, hoverflows⟩ => ?_
        exact ⟨hfault, e, List.mem_cons_of_mem _ he, hoverflows⟩
      · rw [hr, ok_bind]
        dsimp only
        -- from here on the id of the rule is among those that were seen
        obtain ⟨new, hread, hall, hnodup⟩ | ⟨hfault, e, he, hoverflows⟩ :=
          ih hrest (.text r.id :: seen)
        · rw [hread]
          refine .inl ⟨r :: new, rfl, ?_, ?_⟩
          · rw [List.forall_mem_cons]
            refine ⟨⟨hnew, hcomplete⟩, fun r' hr' => ?_⟩
            obtain ⟨hunseen, hcomplete'⟩ := hall r' hr'
            exact ⟨fun hmem => hunseen (List.mem_cons_of_mem _ hmem), hcomplete'⟩
          · rw [List.map_cons, List.nodup_cons]
            refine ⟨fun hmem => ?_, hnodup⟩
            obtain ⟨r', hr', hid⟩ := List.mem_map.mp hmem
            exact (hall r' hr').1 (hid ▸ List.mem_cons_self ..)
        · rw [hfault]
          exact .inr ⟨rfl, e, List.mem_cons_of_mem _ he, hoverflows⟩
      · rw [hfault]
        exact .inr ⟨rfl, entry, List.mem_cons_self .., hoverflows⟩

/-- The items of an answer that is a list. -/
def itemsOf : Document → List Document
  | .list items => items
  | _ => []

/-- **The rules of an answer can be put behind those that are known.** -/
theorem conventionsOf_cases {answer : Document} (hnames : ∀ e ∈ itemsOf answer, NamedByText e)
    (known : List String) :
    (∃ new, conventionsOf origin known answer = .ok new ∧
      (∀ r ∈ new, r.id ∉ known ∧ r.toRule.Complete) ∧ (new.map (·.id)).Nodup) ∨
    conventionsOf origin known answer = .error .numberRange ∧
      ∃ e ∈ itemsOf answer, LearnedRule.Overflows e := by
  cases answer with
  | list items =>
      obtain ⟨new, hread, hall, hnodup⟩ | hfault :=
        conventionsFrom_cases origin hnames (known.map .text)
      · refine .inl ⟨new, hread, fun r hr => ⟨fun hknown => ?_, (hall r hr).2⟩, hnodup⟩
        exact (hall r hr).1 (List.mem_map_of_mem hknown)
      · exact .inr hfault
  | _ => exact .inl ⟨[], rfl, fun _ hr => absurd hr List.not_mem_nil, List.nodup_nil⟩

end Mining

/-! ## A policy -/

/-- **A new rule that is confident enough is the only one of a policy with its id**, unless one is
configured. -/
theorem filter_mergePolicy_learned {rules new : List LearnedRule} (hnodup : (new.map (·.id)).Nodup)
    {r : LearnedRule} (hr : r ∈ new) (hconfident : leastConfidence.le r.confidence = true)
    {c : RepoConfig} (hfree : r.id ∉ c.softRules.map (·.id)) (mode : Option String) :
    (mergePolicy c (confidentRules (rules ++ new)) none mode).softRules.filter (·.id == r.id)
      = [r.toRule] := by
  have hconfidentRules : confidentRules (rules ++ new)
      = confidentRules rules ++ confidentRules new := by
    unfold confidentRules
    rw [List.filter_append, List.map_append]
  have hids : ((confidentRules new).reverse.map (·.id)).Nodup := by
    rw [List.map_reverse, List.nodup_reverse]
    unfold confidentRules
    rw [List.map_map]
    exact hnodup.sublist (List.filter_sublist.map _)
  have hmem : r.toRule ∈ (confidentRules new).reverse := by
    rw [List.mem_reverse]
    exact List.mem_map_of_mem (List.mem_filter.mpr ⟨hr, hconfident⟩)
  have hunconfigured : r.id ∉ c.softRules.reverse.map (·.id) := by
    rw [List.map_reverse, List.mem_reverse]
    exact hfree
  have hnew : itemOf (·.id) r.id (confidentRules new).reverse = some r.toRule :=
    itemOf_of_mem hids hmem
  -- counted from the end, the configured rules come first and then the new ones
  have hlast : itemOf (·.id) r.id (confidentRules (rules ++ new) ++ c.softRules).reverse
      = some r.toRule := by
    rw [hconfidentRules, List.reverse_append, List.reverse_append, itemOf_append, itemOf_append,
      itemOf_eq_none hunconfigured, hnew]
    rfl
  show (mergeById (·.id) ([] ++ confidentRules (rules ++ new) ++ c.softRules)).filter _ = _
  rw [List.nil_append, filter_mergeById, hlast]
  rfl

/-- **What is learned takes effect.** The new rules of an answer are read back behind the stored ones,
and each of them that is confident enough is the only soft rule with its id in the policy of the next
run, unless one is configured. An answer from which they cannot be read has an entry with a huge
confidence. -/
theorem mined_rules_take_effect {config : Document} {mode : Option String} {p₀ : Policy}
    (hconfig : loadPolicy config [] .null mode = .ok p₀) {stored : List Document}
    {rules : List LearnedRule} (hstored : parseLearned stored = .ok rules) (origin : Mining.Origin)
    {answer : Document} (hnames : ∀ e ∈ Mining.itemsOf answer, Mining.NamedByText e) :
    (Mining.conventionsOf origin (rules.map (·.id)) answer = .error .numberRange ∧
        ∃ e ∈ Mining.itemsOf answer, LearnedRule.Overflows e) ∨
      ∃ new, Mining.conventionsOf origin (rules.map (·.id)) answer = .ok new ∧
        parseLearned (stored ++ new.map LearnedRule.toDocument) = .ok (rules ++ new) ∧
        ∃ c p, RepoConfig.ofDocument config = .ok c ∧
          loadPolicy config (stored ++ new.map LearnedRule.toDocument) .null mode = .ok p ∧
          ∀ r ∈ new, leastConfidence.le r.confidence = true → r.id ∉ c.softRules.map (·.id) →
            p.softRules.filter (·.id == r.id)
              = [⟨r.id, r.description, r.scope, r.pattern, r.severity, .learned⟩] := by
  obtain ⟨c, _, _, hc, -⟩ := loadPolicy_eq_ok.mp hconfig
  obtain ⟨new, hnew, hall, hnodup⟩ | hfault :=
    Mining.conventionsOf_cases origin hnames (rules.map (·.id))
  · have hread : parseLearned (stored ++ new.map LearnedRule.toDocument) = .ok (rules ++ new) := by
      rw [parseLearned_append, hstored, parseLearned_toDocument fun r hr => (hall r hr).2]
      rfl
    refine .inr ⟨new, hnew, hread, c, _, hc,
      loadPolicy_eq_ok.mpr ⟨c, rules ++ new, none, hc, hread, rfl, rfl⟩, ?_⟩
    intro r hr hconfident hfree
    exact filter_mergePolicy_learned hnodup hr hconfident hfree mode
  · exact .inl hfault

/-- A merged change. -/
def mergedSeven : Mining.Origin := ⟨.int 7, .text "2024-05-02"⟩

/-- An entry of an answer. -/
def closeFilesEntry : Document :=
  .ofFields [("id", .text "close-files"), ("description", .text "Files are closed"),
    ("scope", .text "**/*.py"), ("pattern", .text "open("), ("severity", .text "critical"),
    ("confidence", .int 1)]

/-- The rule that is learned from it. -/
def closeFiles : LearnedRule :=
  ⟨"close-files", "Files are closed", "**/*.py", "open(", .critical, .finite false 1 0, .int 7,
    .text "2024-05-02"⟩

theorem mined_rules_take_effect_sample :
    ∃ p, loadPolicy sampleConfig [closeFiles.toDocument] .null none = .ok p ∧
      p.softRules.filter (·.id == "close-files")
        = [⟨"close-files", "Files are closed", "**/*.py", "open(", .critical, .learned⟩] := by
  have hstored : parseLearned [] = .ok [] := rfl
  have hnames : ∀ e ∈ Mining.itemsOf (.list [closeFilesEntry]), Mining.NamedByText e := by
    intro e he fields name hfields hlookup _
    obtain rfl := List.mem_singleton.mp he
    cases hfields
    exact ⟨"close-files", (Option.some.inj hlookup).symm⟩
  have hlearned : Mining.conventionsOf mergedSeven [] (.list [closeFilesEntry])
      = .ok [closeFiles] := by rfl
  obtain ⟨hfault, -⟩ | ⟨new, hnew, -, c, p, hc, hp, heffect⟩ :=
    mined_rules_take_effect loadPolicy_sampleConfig hstored mergedSeven hnames
  · cases hfault.symm.trans hlearned
  · cases hnew.symm.trans hlearned
    have hfree : closeFiles.id ∉ c.softRules.map (·.id) := by
      cases hc
      exact List.not_mem_nil
    exact ⟨p, hp, heffect closeFiles (List.mem_singleton.mpr rfl) (by decide) hfree⟩

/-- An answer with one entry, whose confidence is an integer beyond the doubles, cannot be read at all.
-/
theorem huge_confidence_not_read :
    loadPolicy sampleConfig [] .null none = .ok samplePolicy ∧ parseLearned [] = .ok [] ∧
      (∀ e ∈ Mining.itemsOf (.list [hugeRule]), Mining.NamedByText e) ∧
      Mining.conventionsOf mergedSeven [] (.list [hugeRule]) = .error .numberRange := by
  have hname : Mining.NamedByText hugeRule := by
    intro fields name hfields hlookup _
    cases hfields
    exact ⟨"close-files", (Option.some.inj hlookup).symm⟩
  obtain ⟨hcheck, fields, value, hfields, hlookup, hhuge⟩ := overflows_hugeRule
  rw [hfields] at hcheck hname
  obtain ⟨s, rule, -, hread⟩ := Mining.conventionOf?_of_checkRule mergedSeven hcheck hname []
  have hentry : Mining.conventionOf? mergedSeven [] hugeRule = .error .numberRange := by
    rw [hfields, hread, hlookup, Option.getD_some, Mining.confidenceOf_of_huge hhuge]
    rfl
  refine ⟨loadPolicy_sampleConfig, rfl, ?_, ?_⟩
  · exact List.forall_mem_singleton.mpr (hfields ▸ hname)
  · show Mining.conventionsFrom mergedSeven [] [hugeRule] = _
    rw [Mining.conventionsFrom, hentry]
    rfl

end ReviewGate
