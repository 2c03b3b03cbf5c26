import ReviewGate.Proofs.Policy.Snapshot
import ReviewGate.Proofs.Store.Keeping

/-!
# `ReviewGate.Proofs.Policy.Stored` — stored documents and the policy of a run

A run reads rules that earlier runs have stored, and they may have been damaged since. What is
damaged is meant to be left out: a learned rule for itself, a stored policy as a whole. So it is in
nearly all cases (`stored_documents_read`). The two in which the run stops instead are a learned rule
with a huge confidence (`LearnedRule.Overflows`) and a stored policy whose version gives no integer,
which is read before the rules and without a look at what stands there (`Snapshot.Regular`).

## Contents
- `Json.Normal.spellable`: documents of JSON can be written.
- `Snapshot.Lists`, `Snapshot.Wellformed`, `Snapshot.Regular`: what a stored policy needs, and what
  is not looked at.
- `Snapshot.ofDocument?_of_wellformed`, `Snapshot.ofDocument?_of_not_wellformed`,
  `Snapshot.exists_ofDocument?_iff`: what becomes of a stored policy.
- `stored_documents_read`: what becomes of a run.
-/

namespace ReviewGate

open Number

/-- **A document that JSON can hold can be written.** -/
theorem Json.Normal.spellable {d : Document} (h : Json.Normal d) : d.spellable = true := by
  induction h with
  | null => rfl
  | bool b => rfl
  | float hx => rfl
  | text s => rfl
  | int hlength => exact Document.spellable_int_iff.mpr hlength
  | list hitems ih => exact Document.spellable_list_iff.mpr ih
  | map hkeys hvalues ih =>
      refine Document.spellable_map_iff.mpr fun e he => ⟨?_, ih e he⟩
      obtain ⟨name, hname⟩ := hkeys.texts e he
      rw [hname]
      rfl

/-! ## Stored policies -/

namespace Snapshot

variable {stored : List (Document × Document)} {soft hard : List Document}

/-- The lists of rules of a stored policy. -/
structure Lists (stored : List (Document × Document)) (soft hard : List Document) : Prop where
  soft : Document.under "soft_rules" stored = .list soft
  hard : Document.under "hard_rules" stored = .list hard

/-- Both lists are there, and all rules in them can be read. -/
def Wellformed (stored : List (Document × Document)) : Prop :=
  ∃ soft hard rules, Lists stored soft hard ∧ readRules soft hard = .ok rules

/-- Where a version is read, there is none or one that gives an integer. -/
def Regular (stored : List (Document × Document)) : Prop :=
  ∀ soft hard, Lists stored soft hard → HoldsInteger "version" stored

/-- With both lists there the version is read, and then the rules. -/
theorem ofDocument?_of_lists (h : Lists stored soft hard) :
    ∃ snapshot : Int → List Rule × List HardRule → Snapshot,
      Snapshot.ofDocument? (.map stored) =
        ((Document.lookup "version" stored).getD (.int snapshotVersion)).toInteger >>= fun version =>
          match readRules soft hard with
          | .ok rules => .ok (some (snapshot version rules))
          | .error (.policy _) => .ok none
          | .error fault => .error fault := by
  refine ⟨fun version rules => ⟨version,
    ((Document.lookup "generated_at" stored).getD (.text "")).plain, rules.1, rules.2⟩, ?_⟩
  have hpresent : ¬(!(Document.map stored).truthy) = true := by
    cases stored with
    | nil => exact nomatch h.soft
    | cons e rest => exact nofun
  have hsoft : (Document.map stored).field "soft_rules" = .ok (.list soft) :=
    congrArg Except.ok h.soft
  have hhard : (Document.map stored).field "hard_rules" = .ok (.list hard) :=
    congrArg Except.ok h.hard
  rw [Snapshot.ofDocument?, if_neg hpresent, hsoft, hhard, ok_bind, ok_bind]
  refine congrArg (((Document.lookup "version" stored).getD (.int snapshotVersion)).toInteger >>= ·)
    (funext fun version => ?_)
  cases readRules soft hard with
  | ok rules => rfl
  | error fault => cases fault <;> rfl

/-- Without them there is no stored policy. -/
theorem ofDocument?_of_no_lists (h : ∀ soft hard, ¬Lists stored soft hard) :
    Snapshot.ofDocument? (.map stored) = .ok none := by
  unfold Snapshot.ofDocument?
  split
  · rfl
  have hsoft : (Document.map stored).field "soft_rules"
      = .ok (Document.under "soft_rules" stored) := rfl
  have hhard : (Document.map stored).field "hard_rules"
      = .ok (Document.under "hard_rules" stored) := rfl
  rw [hsoft, hhard, ok_bind, ok_bind]
  split
  · next first second hfirst hsecond => exact absurd ⟨hfirst, hsecond⟩ (h first second)
  · rfl

/-- The rules of JSON lists are read, or one of them violates the contract. -/
theorem judged_readRules (hsoft : ∀ d ∈ soft, d.spellable = true)
    (hhard : ∀ d ∈ hard, d.spellable = true) : Judged (readRules soft hard) := by
  refine (judged_mapM fun d hd => Rule.judged_ofDocument (hsoft d hd) _ _).bind fun _ _ => ?_
  refine (judged_mapM fun d hd => HardRule.judged_ofDocument (hhard d hd) _ _).bind fun _ _ => ?_
  exact .ok _

variable (hstored : Json.Normal (.map stored))
include hstored

theorem judged_readRules_of_lists (h : Lists stored soft hard) :
    Judged (readRules soft hard) := by
  have hwhole := hstored.spellable
  have hsoft := Document.spellable_under hwhole "soft_rules"
  have hhard := Document.spellable_under hwhole "hard_rules"
  rw [h.soft] at hsoft
  rw [h.hard] at hhard
  exact judged_readRules (Document.spellable_list_iff.mp hsoft)
    (Document.spellable_list_iff.mp hhard)

/-- **A stored policy is read or left out exactly if its version is not in the way.** -/
theorem exists_ofDocument?_iff :
    (∃ s, Snapshot.ofDocument? (.map stored) = .ok s) ↔ Regular stored := by
  constructor
  · rintro ⟨s, hs⟩ soft hard hlists
    obtain ⟨snapshot, hread⟩ := ofDocument?_of_lists hlists
    rw [hread] at hs
    obtain ⟨version, hversion, -⟩ := bind_eq_ok.mp hs
    exact (holdsInteger_iff snapshotVersion).mpr ⟨version, hversion⟩
  · intro hregular
    by_cases hsome : ∃ soft hard, Lists stored soft hard
    · obtain ⟨soft, hard, hlists⟩ := hsome
      obtain ⟨version, hversion⟩ :=
        (holdsInteger_iff snapshotVersion).mp (hregular soft hard hlists)
      obtain ⟨snapshot, hread⟩ := ofDocument?_of_lists hlists
      rw [hread, hversion, ok_bind]
      obtain ⟨rules, hrules⟩ | ⟨cause, hcause⟩ := judged_readRules_of_lists hstored hlists
      · rw [hrules]
        exact ⟨_, rfl⟩
      · rw [hcause]
        exact ⟨none, rfl⟩
    · exact ⟨none, ofDocument?_of_no_lists fun soft hard h => hsome ⟨soft, hard, h⟩⟩

/-- **A stored policy that is not well-formed is none.** -/
theorem ofDocument?_of_not_wellformed (hregular : Regular stored) (h : ¬Wellformed stored) :
    Snapshot.ofDocument? (.map stored) = .ok none := by
  by_cases hsome : ∃ soft hard, Lists stored soft hard
  · obtain ⟨soft, hard, hlists⟩ := hsome
    obtain ⟨version, hversion⟩ :=
      (holdsInteger_iff snapshotVersion).mp (hregular soft hard hlists)
    obtain ⟨snapshot, hread⟩ := ofDocument?_of_lists hlists
    rw [hread, hversion, ok_bind]
    obtain ⟨rules, hrules⟩ | ⟨cause, hcause⟩ := judged_readRules_of_lists hstored hlists
    · exact absurd ⟨soft, hard, rules, hlists, hrules⟩ h
    · rw [hcause]
  · exact ofDocument?_of_no_lists fun soft hard hlists => hsome ⟨soft, hard, hlists⟩

end Snapshot

/-! ## Runs -/

/-- **Stored documents stop a run only through a huge confidence or a version that gives no
integer.** In all other cases there is a policy, the learned rules are those of the documents that
give one, and a stored policy that is not well-formed counts as none. -/
theorem stored_documents_read {config : Document} {mode : Option String} {p₀ : Policy}
    (hconfig : loadPolicy config [] .null mode = .ok p₀) {stored : List (Document × Document)}
    (hstored : Json.Normal (.map stored)) (learned : List Document) :
    ((∃ p, loadPolicy config learned (.map stored) mode = .ok p) ↔
        (∀ d ∈ learned, ¬LearnedRule.Overflows d) ∧ Snapshot.Regular stored) ∧
      ((∀ d ∈ learned, ¬LearnedRule.Overflows d) →
        parseLearned learned =
          .ok (learned.filterMap fun d => (LearnedRule.ofDocument d).toOption)) ∧
      (∀ xs ys, parseLearned (xs ++ ys) = (do
        let first ← parseLearned xs
        let others ← parseLearned ys
        return first ++ others)) ∧
      (Snapshot.Regular stored → ¬Snapshot.Wellformed stored →
        loadPolicy config learned (.map stored) mode = loadPolicy config learned .null mode) := by
  obtain ⟨c, _, _, hc, -⟩ := loadPolicy_eq_ok.mp hconfig
  refine ⟨?_, parseLearned_eq_filterMap, parseLearned_append, ?_⟩
  · rw [← exists_parseLearned_iff, ← Snapshot.exists_ofDocument?_iff hstored]
    constructor
    · rintro ⟨p, hp⟩
      obtain ⟨_, rules, snapshot, -, hrules, hsnapshot, -⟩ := loadPolicy_eq_ok.mp hp
      exact ⟨⟨rules, hrules⟩, snapshot, hsnapshot⟩
    · rintro ⟨⟨rules, hrules⟩, snapshot, hsnapshot⟩
      exact ⟨_, loadPolicy_eq_ok.mpr ⟨c, rules, snapshot, hc, hrules, hsnapshot, rfl⟩⟩
  · intro hregular hbroken
    have hnone : Snapshot.ofDocument? .null = .ok none := rfl
    unfold loadPolicy
    rw [Snapshot.ofDocument?_of_not_wellformed hstored hregular hbroken, hnone]

/-! ## Damaged documents -/

/-- A learned rule without a scope and a pattern. -/
def barrenRule : Document := .ofFields [("id", .text "close-files")]

/-- A stored policy of the given version whose only hard rule is no rule. -/
def damagedSnapshot (version : Document) : List (Document × Document) :=
  [(.text "version", version), (.text "soft_rules", .list []),
    (.text "hard_rules", .list [barrenRule])]

theorem normal_damagedSnapshot {version : Document} (h : Json.Normal version) :
    Json.Normal (.map (damagedSnapshot version)) := by
  have hnames : ["version", "soft_rules", "hard_rules"].Nodup := by decide
  have hbarren : Json.Normal barrenRule :=
    Store.normal_ofFields (by decide) (List.forall_mem_singleton.mpr (.text _))
  show Json.Normal (.ofFields [("version", version), ("soft_rules", .list []),
    ("hard_rules", .list [barrenRule])])
  refine Store.normal_ofFields hnames ?_
  rw [List.forall_mem_cons, List.forall_mem_cons, List.forall_mem_singleton]
  exact ⟨h, .list nofun, .list (List.forall_mem_singleton.mpr hbarren)⟩

/-- A damaged rule and a damaged policy, and the run goes on as if they were not there. -/
theorem stored_documents_read_sample :
    (∃ p, loadPolicy sampleConfig [barrenRule] (.map (damagedSnapshot (.int 1))) none = .ok p) ∧
      parseLearned [barrenRule] = .ok [] ∧
      loadPolicy sampleConfig [barrenRule] (.map (damagedSnapshot (.int 1))) none
        = loadPolicy sampleConfig [barrenRule] .null none := by
  have hone : Json.Normal (.int 1) := .int (by decide)
  obtain ⟨haccepted, hlearned, -, hdamaged⟩ := stored_documents_read loadPolicy_sampleConfig
    (normal_damagedSnapshot hone) [barrenRule]
  have hsmall : ∀ d ∈ [barrenRule], ¬LearnedRule.Overflows d := by
    rw [List.forall_mem_singleton]
    rintro ⟨hcheck, -⟩
    cases hcheck
  have hregular : Snapshot.Regular (damagedSnapshot (.int 1)) := fun _ _ _ value hvalue =>
    ⟨1, Option.some.inj hvalue ▸ rfl⟩
  have hbroken : ¬Snapshot.Wellformed (damagedSnapshot (.int 1)) := by
    rintro ⟨_, _, rules, ⟨hsoft, hhard⟩, hrules⟩
    cases hsoft
    cases hhard
    cases hrules
  exact ⟨haccepted.mpr ⟨hsmall, hregular⟩, hlearned hsmall, hdamaged hregular hbroken⟩

theorem length_digitsOf_pow {e k : Nat} (h : e < k) : (digitsOf (2 ^ e)).length ≤ k := by
  have hpow : 2 ^ e < 10 ^ k :=
    lt_of_le_of_lt (Nat.pow_le_pow_left (by decide) e) (Nat.pow_lt_pow_right (by decide) h)
  exact (Nat.length_toDigits_le_iff (by decide) (Nat.zero_lt_of_lt h)).mpr hpow

theorem normal_hugeRule : Json.Normal hugeRule := by
  have hlength : (digitsOf beyondDoubles).length ≤ maxIntDigits := length_digitsOf_pow (by decide)
  refine Store.normal_ofFields (by decide) ?_
  simp only [List.forall_mem_cons]
  exact ⟨.text _, .text _, .text _, .int hlength, fun _ h => absurd h List.not_mem_nil⟩

/-- The configuration is accepted on its own, and JSON can hold both documents. But neither with the
one nor with the other is there a policy. -/
theorem stored_documents_stop_run :
    loadPolicy sampleConfig [] .null none = .ok samplePolicy ∧
      (Json.Normal hugeRule ∧ loadPolicy sampleConfig [hugeRule] .null none = .error .numberRange) ∧
      (Json.Normal (.map (damagedSnapshot .null)) ∧
        loadPolicy sampleConfig [] (.map (damagedSnapshot .null)) none = .error .wrongKind) := by
  obtain ⟨c, _, _, hc, -⟩ := loadPolicy_eq_ok.mp loadPolicy_sampleConfig
  have hparse : parseLearned [hugeRule] = .error .numberRange := by
    rw [parseLearned, List.mapM_cons, LearnedRule.read?_of_overflows overflows_hugeRule]
    rfl
  have hsnapshot : Snapshot.ofDocument? (.map (damagedSnapshot .null)) = .error .wrongKind := rfl
  refine ⟨loadPolicy_sampleConfig, ⟨normal_hugeRule, ?_⟩, normal_damagedSnapshot .null, ?_⟩
  · rw [loadPolicy, hc, ok_bind, hparse]
    rfl
  · rw [loadPolicy, hc, ok_bind, hsnapshot]
    rfl

end ReviewGate
