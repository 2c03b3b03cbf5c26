import ReviewGate.Policy.Learned
import ReviewGate.Proofs.Document.Spelling
import ReviewGate.Proofs.Routing.Specialist
import ReviewGate.Proofs.Sequence

/-!
# `ReviewGate.Proofs.Policy.Rule` — rules are written and read

Rules are read with much tolerance: required fields may hold any value that counts as present, an
unknown choice becomes the default one, a missing field too. What has been read has none of this
left. It is complete, its choices are known ones, and it is written with every field that reading
looks at, so that it is read back as it is.

## Contents
- `Complete`: the required fields of a rule are there.
- `checkRule_eq_ok`: the check of a rule document; `truthy_field`, `spell_field_ne_empty`: what it
  promises.
- `Rule.complete_of_ofDocument`, and the like for hard and learned rules.
- `Rule.ofDocument_toDocument`, `HardRule.ofDocument_toDocument`: complete rules are read back.
-/

namespace ReviewGate

/-- Nothing that a rule needs is empty. -/
structure Complete (id scope pattern : String) : Prop where
  id : id ≠ ""
  scope : scope ≠ ""
  pattern : pattern ≠ ""

/-- A soft rule has all that it needs. -/
def Rule.Complete (r : Rule) : Prop := ReviewGate.Complete r.id r.scope r.pattern

/-- A hard rule has all that it needs. -/
def HardRule.Complete (r : HardRule) : Prop := ReviewGate.Complete r.id r.scope r.pattern

/-! ## The check of a document -/

theorem checkRule_eq_ok {place : String} {d : Document} :
    checkRule place d = .ok () ↔
      ∃ entries, d = .map entries ∧
        ∀ name ∈ requiredFields, ((Document.lookup name entries).getD .null).truthy = true := by
  cases d with
  | map entries =>
      have hmissing : (requiredFields.filter fun name =>
            !((Document.lookup name entries).getD .null).truthy).isEmpty = true ↔
          ∀ name ∈ requiredFields, ((Document.lookup name entries).getD .null).truthy = true := by
        rw [List.isEmpty_iff, List.filter_eq_nil_iff]
        simp only [Bool.not_eq_true', Bool.not_eq_false]
      simp only [checkRule]
      split
      · next h => exact ⟨fun _ => ⟨entries, rfl, hmissing.mp h⟩, fun _ => rfl⟩
      · next h =>
          refine ⟨nofun, ?_⟩
          rintro ⟨_, hentries, hall⟩
          rw [← Document.map.inj hentries] at hall
          exact absurd (hmissing.mpr hall) h
  | _ => exact ⟨nofun, fun ⟨_, h, _⟩ => nomatch h⟩

/-- A required field that was checked counts as present. -/
theorem truthy_field {place : String} {d : Document} (hcheck : checkRule place d = .ok ())
    {name : String} (hname : name ∈ requiredFields) {x : Document} (hx : d.field name = .ok x) :
    x.truthy = true := by
  obtain ⟨entries, rfl, hall⟩ := checkRule_eq_ok.mp hcheck
  exact Except.ok.inj hx ▸ hall name hname

/-- So it has a text. -/
theorem spell_field_ne_empty {place : String} {d : Document} (hcheck : checkRule place d = .ok ())
    {name : String} (hname : name ∈ requiredFields) {x : Document} (hx : d.field name = .ok x)
    {s : String} (hs : x.spell = .ok s) : s ≠ "" :=
  Document.spell_ne_empty (truthy_field hcheck hname hx) hs

/-! ## Rules that were read -/

/-- **A soft rule that was read is complete.** -/
theorem Rule.complete_of_ofDocument {source : RuleSource} {place : String} {d : Document} {r : Rule}
    (h : Rule.ofDocument source place d = .ok r) : r.Complete := by
  simp only [Rule.ofDocument, bind_eq_ok] at h
  obtain ⟨_, hcheck, id, hid, idText, hidText, _, _, _, _, h⟩ := h
  obtain ⟨scope, hscope, scopeText, hscopeText, h⟩ := h
  obtain ⟨pattern, hpattern, patternText, hpatternText, _, _, _, _, hr⟩ := h
  rw [← Except.ok.inj hr]
  exact ⟨spell_field_ne_empty hcheck (by decide) hid hidText,
    spell_field_ne_empty hcheck (by decide) hscope hscopeText,
    spell_field_ne_empty hcheck (by decide) hpattern hpatternText⟩

/-- **A hard rule that was read is complete.** -/
theorem HardRule.complete_of_ofDocument {source : RuleSource} {place : String} {d : Document}
    {r : HardRule} (h : HardRule.ofDocument source place d = .ok r) : r.Complete := by
  simp only [HardRule.ofDocument, bind_eq_ok] at h
  obtain ⟨_, hcheck, id, hid, idText, hidText, _, _, _, _, h⟩ := h
  obtain ⟨scope, hscope, scopeText, hscopeText, h⟩ := h
  obtain ⟨pattern, hpattern, patternText, hpatternText, h⟩ := h
  obtain ⟨_, _, _, _, _, _, _, _, _, _, _, _, _, _, _, _, hr⟩ := h
  rw [← Except.ok.inj hr]
  exact ⟨spell_field_ne_empty hcheck (by decide) hid hidText,
    spell_field_ne_empty hcheck (by decide) hscope hscopeText,
    spell_field_ne_empty hcheck (by decide) hpattern hpatternText⟩

/-- **The soft rule of a learned rule that was read is complete.** -/
theorem LearnedRule.complete_of_ofDocument {d : Document} {r : LearnedRule}
    (h : LearnedRule.ofDocument d = .ok r) : r.toRule.Complete := by
  simp only [LearnedRule.ofDocument, bind_eq_ok] at h
  obtain ⟨_, hcheck, _, _, id, hid, _, _, scope, hscope, pattern, hpattern, h⟩ := h
  obtain ⟨_, _, _, _, _, _, _, _, _, _, hr⟩ := h
  rw [← Except.ok.inj hr]
  exact ⟨plain_ne_empty (truthy_field hcheck (by decide) hid),
    plain_ne_empty (truthy_field hcheck (by decide) hscope),
    plain_ne_empty (truthy_field hcheck (by decide) hpattern)⟩

/-! ## Names of choices -/

theorem Severity.ofDocument_name (absent s : Severity) : ofDocument absent (.text s.name) = s := by
  cases s <;> rfl

theorem RuleSource.ofDocument_name (absent s : RuleSource) :
    ofDocument absent (.text s.name) = s := by
  cases s <;> rfl

theorem Category.ofDocument_name (c : Category) : ofDocument (.text c.name) = c := by
  cases c with
  | any => rfl
  | only s =>
      unfold Category.ofDocument Category.name
      simp only [s.ofName?_name]

theorem Demand.ofDocument_name (m : Demand) :
    (if (Document.text m.name).isText Demand.require.name then Demand.require else .forbid) = m := by
  cases m <;> rfl

theorem Target.ofDocument_name (t : Target) :
    (if (Document.text t.name).isText Target.fileContent.name then Target.fileContent
      else .addedLines) = t := by
  cases t <;> rfl

/-! ## Fields that were written -/

theorem lookup_fields (name : String) (fields : List (String × Document)) :
    Document.lookup name (fields.map fun (n, value) => (.text n, value)) = fields.lookup name := by
  induction fields with
  | nil => rfl
  | cons field rest ih =>
      obtain ⟨n, value⟩ := field
      unfold Document.lookup at ih ⊢
      rw [List.map_cons, List.find?_cons, List.lookup_cons, ← ih]
      show Option.map _ (match (n == name) with
        | true => _
        | false => _) = _
      rw [BEq.comm]
      cases name == n <;> rfl

theorem field_ofFields (name : String) (fields : List (String × Document)) :
    (Document.ofFields fields).field name = .ok ((fields.lookup name).getD .null) := by
  rw [← lookup_fields]
  rfl

theorem checkRule_ofFields {id scope pattern : String} (h : Complete id scope pattern)
    {fields : List (String × Document)} (hid : fields.lookup "id" = some (.text id))
    (hscope : fields.lookup "scope" = some (.text scope))
    (hpattern : fields.lookup "pattern" = some (.text pattern)) (place : String) :
    checkRule place (.ofFields fields) = .ok () := by
  refine checkRule_eq_ok.mpr ⟨_, rfl, fun name hname => ?_⟩
  rw [lookup_fields]
  simp only [requiredFields, List.mem_cons, List.not_mem_nil, or_false] at hname
  rcases hname with rfl | rfl | rfl
  · rw [hid]
    exact bne_iff_ne.mpr h.id
  · rw [hscope]
    exact bne_iff_ne.mpr h.scope
  · rw [hpattern]
    exact bne_iff_ne.mpr h.pattern

/-! ## Rules that were written -/

/-- **A complete soft rule is read back as it is.** -/
theorem Rule.ofDocument_toDocument {r : Rule} (h : r.Complete) (source : RuleSource)
    (place : String) : Rule.ofDocument source place r.toDocument = .ok r := by
  have hcheck : checkRule place r.toDocument = .ok () := checkRule_ofFields h rfl rfl rfl place
  rw [Rule.ofDocument, hcheck]
  show Except.ok (Rule.mk r.id r.description r.scope r.pattern
    (Severity.ofDocument .warning (.text r.severity.name))
    (RuleSource.ofDocument source (.text r.source.name))) = .ok r
  rw [Severity.ofDocument_name, RuleSource.ofDocument_name]

/-- The message of a hard rule is written unless it is null, and a missing message is null. -/
theorem HardRule.message_toDocument (r : HardRule) :
    r.toDocument.field "message" = .ok r.message := by
  unfold HardRule.toDocument
  rw [field_ofFields]
  cases r.message <;> rfl

/-- **A complete hard rule is read back as it is.** -/
theorem HardRule.ofDocument_toDocument {r : HardRule} (h : r.Complete) (source : RuleSource)
    (place : String) : HardRule.ofDocument source place r.toDocument = .ok r := by
  have hcheck : checkRule place r.toDocument = .ok () := checkRule_ofFields h rfl rfl rfl place
  rw [HardRule.ofDocument, hcheck, r.message_toDocument]
  show Except.ok (HardRule.mk r.id r.description r.scope r.pattern
    (Severity.ofDocument .critical (.text r.severity.name))
    (RuleSource.ofDocument source (.text r.source.name))
    (Category.ofDocument (.text r.category.name))
    (if (Document.text r.demand.name).isText Demand.require.name then .require else .forbid)
    (if (Document.text r.target.name).isText Target.fileContent.name then .fileContent
      else .addedLines) r.message r.newCodeOnly) = .ok r
  rw [Severity.ofDocument_name, RuleSource.ofDocument_name, Category.ofDocument_name,
    Demand.ofDocument_name, Target.ofDocument_name]

end ReviewGate
