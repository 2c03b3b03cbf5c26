import ReviewGate.Proofs.Number.Rounding
import ReviewGate.Proofs.Policy.Rule

/-!
# `ReviewGate.Proofs.Policy.Learned` — learned rules are written and read

The documents of learned rules are read one by one, and one that is malformed drops only itself.
Nearly everything that a document can have wrong counts as malformed: a required field that is
missing, a confidence that is no number, an origin that is no mapping. One thing does not. A
confidence may be an integer, integers may be of any size, and one that has no double is a fault
that is not passed over (`LearnedRule.Overflows`). Without such a document among them, documents are
always read (`parseLearned_eq_filterMap`), with one they never are.

## Contents
- `Document.Huge`, `fault_of_toDouble`, `toDouble_eq_numberRange_iff`: numbers out of range.
- `LearnedRule.Overflows`, `read?_of_overflows`, `read?_of_not_overflows`: what becomes of one
  document.
- `parseLearned_append`, `exists_parseLearned_iff`, `parseLearned_eq_filterMap`: what becomes of many.
- `LearnedRule.ofDocument_toDocument`, `parseLearned_toDocument`: complete rules are read back.
-/

namespace ReviewGate

open Number

/-! ## Numbers out of range -/

/-- An integer of which there is no double: it is not below the greatest one by more than half a
unit. -/
def Document.Huge (d : Document) : Prop := ∃ n : Int, d = .int n ∧ 2 ^ 1024 ≤ n.natAbs + 2 ^ 970

/-- A document without a double is out of range or simply no number. -/
theorem fault_of_toDouble {d : Document} {fault : Fault} (h : d.toDouble = .error fault) :
    (fault = .numberRange ∧ d.Huge) ∨ fault = .wrongKind ∨ fault = .badNumber := by
  cases d with
  | bool b => cases h
  | float x => cases h
  | int n =>
      unfold Document.toDouble at h
      dsimp only at h
      split at h
      · next s hs =>
        have hfault : Fault.numberRange = fault := Except.error.inj h
        exact .inl ⟨hfault.symm, n, rfl, Binary64.ofInt_infinite_iff.mp ⟨s, hs⟩⟩
      · cases h
  | text s =>
      unfold Document.toDouble at h
      dsimp only at h
      split at h
      · cases h
      · cases h
        exact .inr (.inr rfl)
  | bytes data =>
      unfold Document.toDouble at h
      dsimp only at h
      split at h
      · cases h
      · cases h
        exact .inr (.inr rfl)
  | _ =>
      cases h
      exact .inr (.inl rfl)

/-- **The doubles that are out of range are those of huge integers.** -/
theorem toDouble_eq_numberRange_iff {d : Document} :
    d.toDouble = .error .numberRange ↔ d.Huge := by
  constructor
  · intro h
    obtain ⟨-, hhuge⟩ | hkind | hnumber := fault_of_toDouble h
    · exact hhuge
    · cases hkind
    · cases hnumber
  · rintro ⟨n, rfl, hn⟩
    obtain ⟨s, hs⟩ := Binary64.ofInt_infinite_iff.mpr hn
    unfold Document.toDouble
    dsimp only
    rw [hs]

/-- A value that stands in for an absent one is not huge if it is a double. -/
theorem exists_huge_of_lookup {name : String} {entries : List (Document × Document)} {x : Binary64}
    (h : ((Document.lookup name entries).getD (.float x)).Huge) :
    ∃ value, Document.lookup name entries = some value ∧ value.Huge := by
  cases hlookup : Document.lookup name entries with
  | none =>
      rw [hlookup] at h
      obtain ⟨_, hfloat, -⟩ := h
      cases hfloat
  | some value =>
      rw [hlookup] at h
      exact ⟨value, rfl, h⟩

/-! ## One document -/

theorem isMalformed_of_checkRule {place : String} {d : Document} {fault : Fault}
    (h : checkRule place d = .error fault) : fault.isMalformed = true := by
  cases d with
  | map entries =>
      simp only [checkRule] at h
      split at h
      · cases h
      · cases h
        unfold PolicyFault.citing
        split <;> rfl
  | _ =>
      cases h
      rfl

namespace LearnedRule

/-- The document of a rule whose confidence is an integer of which there is no double. -/
def Overflows (d : Document) : Prop :=
  checkRule "learned rules" d = .ok () ∧
    ∃ entries value, d = .map entries ∧ Document.lookup "confidence" entries = some value ∧
      value.Huge

/-- What is still to be found out about a document with all that a rule needs. -/
theorem ofDocument_of_checkRule {entries : List (Document × Document)}
    (hcheck : checkRule "learned rules" (.map entries) = .ok ()) :
    ∃ rule : Binary64 → Document → Document → LearnedRule,
      ofDocument (.map entries) = (do
        let confidence ← ((Document.lookup "confidence" entries).getD
          (.float (Binary64.zero false))).toDouble
        let origin := ((Document.lookup "learned_from" entries).getD .null).orElse (.map [])
        return rule confidence (← origin.field "pr_number") (← origin.field "merged_at")) := by
  let get (name : String) : Document := (Document.lookup name entries).getD .null
  refine ⟨LearnedRule.mk (get "id").plain
    ((Document.lookup "description" entries).getD (.text "")).plain (get "scope").plain
    (get "pattern").plain (.ofDocument .warning (get "severity")), ?_⟩
  rw [ofDocument, hcheck]
  rfl

/-- **The reader of a document fails on a huge confidence.** -/
theorem read?_of_overflows {d : Document} (h : Overflows d) : read? d = .error .numberRange := by
  obtain ⟨hcheck, entries, value, rfl, hlookup, hhuge⟩ := h
  obtain ⟨rule, hread⟩ := ofDocument_of_checkRule hcheck
  rw [hlookup, Option.getD_some, toDouble_eq_numberRange_iff.mpr hhuge] at hread
  unfold read?
  rw [hread]
  rfl

/-- A document that gives no rule is malformed, or its confidence is huge. -/
theorem isMalformed_of_ofDocument {d : Document} {fault : Fault} (h : ofDocument d = .error fault)
    (hsmall : ¬Overflows d) : fault.isMalformed = true := by
  cases hcheck : checkRule "learned rules" d with
  | error cause =>
      rw [ofDocument, hcheck] at h
      cases h
      exact isMalformed_of_checkRule hcheck
  | ok _ =>
      obtain ⟨entries, rfl, -⟩ := checkRule_eq_ok.mp hcheck
      obtain ⟨rule, hread⟩ := ofDocument_of_checkRule hcheck
      rw [hread] at h
      cases hconfidence : ((Document.lookup "confidence" entries).getD
          (.float (Binary64.zero false))).toDouble with
      | error cause =>
          rw [hconfidence] at h
          cases h
          obtain ⟨-, hhuge⟩ | rfl | rfl := fault_of_toDouble hconfidence
          · obtain ⟨value, hlookup, hhuge⟩ := exists_huge_of_lookup hhuge
            exact absurd ⟨hcheck, entries, value, rfl, hlookup, hhuge⟩ hsmall
          · rfl
          · rfl
      | ok confidence =>
          -- the origin has members, or it is no mapping and that makes the document malformed
          rw [hconfidence, ok_bind] at h
          dsimp only at h
          cases horigin : ((Document.lookup "learned_from" entries).getD .null).orElse (.map []) with
          | map fields =>
              rw [horigin] at h
              cases h
          | _ =>
              rw [horigin] at h
              cases h
              rfl

/-- **Every other document gives a rule or is passed over.** -/
theorem read?_of_not_overflows {d : Document} (h : ¬Overflows d) :
    read? d = .ok (ofDocument d).toOption := by
  unfold read?
  cases hread : ofDocument d with
  | ok r => rfl
  | error fault => exact if_pos (isMalformed_of_ofDocument hread h)

end LearnedRule

/-- The least power of two beyond the doubles. -/
def beyondDoubles : Nat := 2 ^ 1024

/-- A learned rule whose confidence is that number. -/
def hugeRule : Document :=
  .ofFields [("id", .text "close-files"), ("scope", .text "**/*.py"), ("pattern", .text "open("),
    ("confidence", .int (Int.ofNat beyondDoubles))]

theorem overflows_hugeRule : LearnedRule.Overflows hugeRule := by
  have hhuge {n : Nat} (h : 2 ^ 1024 ≤ n) : (Document.int (Int.ofNat n)).Huge :=
    ⟨Int.ofNat n, rfl, le_trans h (Nat.le_add_right ..)⟩
  refine ⟨rfl, _, _, rfl, rfl, hhuge ?_⟩
  unfold beyondDoubles
  exact le_refl _

/-! ## Many documents -/

/-- **The rules of documents are those of the first ones followed by those of the others.** -/
theorem parseLearned_append (xs ys : List Document) :
    parseLearned (xs ++ ys) = (do
      let first ← parseLearned xs
      let others ← parseLearned ys
      return first ++ others) := by
  unfold parseLearned
  rw [List.mapM_append]
  cases xs.mapM LearnedRule.read? with
  | error fault => rfl
  | ok first =>
      cases ys.mapM LearnedRule.read? with
      | error fault => rfl
      | ok others => exact congrArg Except.ok List.filterMap_append

/-- **Without a huge confidence the rules are those of the documents that give one**, in order. -/
theorem parseLearned_eq_filterMap {docs : List Document}
    (h : ∀ d ∈ docs, ¬LearnedRule.Overflows d) :
    parseLearned docs = .ok (docs.filterMap fun d => (LearnedRule.ofDocument d).toOption) := by
  have hread : docs.mapM LearnedRule.read? =
      .ok (docs.map fun d => (LearnedRule.ofDocument d).toOption) :=
    mapM_eq_ok fun d hd => LearnedRule.read?_of_not_overflows (h d hd)
  unfold parseLearned
  rw [hread, ok_bind, List.filterMap_map]
  rfl

/-- **Documents are read exactly if no confidence among them is huge.** -/
theorem exists_parseLearned_iff {docs : List Document} :
    (∃ rules, parseLearned docs = .ok rules) ↔ ∀ d ∈ docs, ¬LearnedRule.Overflows d := by
  constructor
  · rintro ⟨rules, h⟩ d hd hoverflows
    obtain ⟨answers, hanswers, -⟩ := bind_eq_ok.mp h
    obtain ⟨r, hr⟩ := exists_eq_ok_of_mapM hanswers hd
    rw [LearnedRule.read?_of_overflows hoverflows] at hr
    cases hr
  · exact fun h => ⟨_, parseLearned_eq_filterMap h⟩

/-- What was read among many documents was read from one of them. -/
theorem exists_of_mem_parseLearned {docs : List Document} {rules : List LearnedRule}
    (h : parseLearned docs = .ok rules) {r : LearnedRule} (hr : r ∈ rules) :
    ∃ d ∈ docs, LearnedRule.ofDocument d = .ok r := by
  rw [parseLearned_eq_filterMap (exists_parseLearned_iff.mp ⟨rules, h⟩)] at h
  rw [← Except.ok.inj h, List.mem_filterMap] at hr
  obtain ⟨d, hd, hread⟩ := hr
  exact ⟨d, hd, eq_ok_of_toOption hread⟩

/-! ## Rules that were written -/

/-- **A complete learned rule is read back as it is.** -/
theorem LearnedRule.ofDocument_toDocument {r : LearnedRule} (h : r.toRule.Complete) :
    ofDocument r.toDocument = .ok r := by
  have hcheck : checkRule "learned rules" r.toDocument = .ok () :=
    checkRule_ofFields h rfl rfl rfl _
  rw [ofDocument, hcheck]
  show Except.ok (LearnedRule.mk r.id r.description r.scope r.pattern
    (Severity.ofDocument .warning (.text r.severity.name)) r.confidence r.learnedFrom r.mergedAt)
      = .ok r
  rw [Severity.ofDocument_name]

/-- So are many. -/
theorem parseLearned_toDocument {rules : List LearnedRule} (h : ∀ r ∈ rules, r.toRule.Complete) :
    parseLearned (rules.map LearnedRule.toDocument) = .ok rules := by
  have hread : (rules.map LearnedRule.toDocument).mapM LearnedRule.read? = .ok (rules.map some) := by
    rw [List.mapM_map]
    refine mapM_eq_ok fun r hr => ?_
    show LearnedRule.read? r.toDocument = _
    unfold LearnedRule.read?
    rw [LearnedRule.ofDocument_toDocument (h r hr)]
  unfold parseLearned
  rw [hread, ok_bind, List.filterMap_map]
  exact congrArg Except.ok List.filterMap_some

end ReviewGate
