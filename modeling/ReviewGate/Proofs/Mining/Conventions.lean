import ReviewGate.Mining.Conventions
import ReviewGate.Proofs.Store.Keeping

/-!
# `ReviewGate.Proofs.Mining.Conventions` — what is learned can be stored

Stored rules are kept as JSON, so a rule that is learned must be a document that JSON can hold. All
its fields but one are texts or come from the change it is learned from. The one is the confidence,
a double that the answer gives as a number or spells in a text and that is then brought between zero
and one; every way to it gives a double in lowest terms.

## Contents
- `canonical_ofInt`, `canonical_of_readDouble`, `canonical_of_toDouble`: doubles from documents.
- `canonical_of_confidenceOf`: the confidence in a rule.
- `normal_of_mem_conventionsOf`: the rules of an answer.
-/

namespace ReviewGate

open Number

namespace Number.Binary64

theorem canonical_ofInt (n : Int) : (ofInt n).Canonical := by
  rw [ofInt, roundRatio_eq_nearest one_pos]
  exact canonical_nearest ..

theorem canonical_ofDecimal (negative : Bool) (d : Nat) (k : Int) :
    (ofDecimal negative d k).Canonical := by
  rw [ofDecimal_eq_nearest]
  exact canonical_nearest ..

end Number.Binary64

theorem canonical_of_readDouble {cs : List Char} {x : Binary64} (h : readDouble cs = some x) :
    x.Canonical := by
  -- the reader ends with the same decimal whether or not there is a point
  have hdecimal : ∀ (negative : Bool) (whole places : List Nat) (rest : List Char),
      (if (whole.isEmpty && places.isEmpty) = true then none
        else (readExponent rest).map fun e =>
          Binary64.ofDecimal negative (ofDigits (whole ++ places)) (e - places.length)) = some x →
      x.Canonical := by
    intro negative whole places rest hread
    split at hread
    · cases hread
    · obtain ⟨e, -, rfl⟩ := Option.map_eq_some_iff.mp hread
      exact Binary64.canonical_ofDecimal ..
  unfold readDouble at h
  dsimp only at h
  split at h
  · obtain rfl := Option.some.inj h
    exact trivial
  · split at h
    · obtain rfl := Option.some.inj h
      exact trivial
    · exact hdecimal _ _ _ _ h

/-- **The number of a document that JSON can hold is a double in lowest terms.** -/
theorem canonical_of_toDouble {d : Document} (hd : Json.Normal d) {x : Binary64}
    (h : d.toDouble = .ok x) : x.Canonical := by
  cases hd with
  | null => cases h
  | list => cases h
  | map => cases h
  | bool b =>
      obtain rfl := Except.ok.inj h
      exact Binary64.canonical_ofInt _
  | float hx =>
      obtain rfl := Except.ok.inj h
      exact hx
  | @int n hlength =>
      have hcanonical := Binary64.canonical_ofInt n
      unfold Document.toDouble at h
      dsimp only at h
      split at h
      · cases h
      · obtain rfl := Except.ok.inj h
        exact hcanonical
  | text s =>
      unfold Document.toDouble at h
      dsimp only at h
      split at h
      next value hread =>
        obtain rfl := Except.ok.inj h
        exact canonical_of_readDouble hread
      next => cases h

namespace Mining

theorem canonical_clampUnit {x : Binary64} (hx : x.Canonical) : (clampUnit x).Canonical := by
  obtain ⟨raised, hraised_def⟩ : ∃ raised, raised =
      if x.lt (Binary64.zero false) then Binary64.zero false else x := ⟨_, rfl⟩
  have hraised : raised.Canonical := by
    rw [hraised_def]
    split
    · exact Binary64.canonical_zero false
    · exact hx
  have hunit : unit.Canonical := Binary64.canonical_ofInt 1
  rw [clampUnit, ← hraised_def]
  by_cases habove : unit.lt raised = true
  · rw [if_pos habove]
    exact hunit
  · rw [if_neg habove]
    exact hraised

theorem canonical_of_confidenceOf {d : Document} (hd : Json.Normal d) {x : Binary64}
    (h : confidenceOf d = .ok x) : x.Canonical := by
  unfold confidenceOf at h
  split at h
  next value hvalue =>
    obtain rfl := Except.ok.inj h
    exact canonical_clampUnit (canonical_of_toDouble hd hvalue)
  next =>
    obtain rfl := Except.ok.inj h
    exact Binary64.canonical_zero false
  next =>
    obtain rfl := Except.ok.inj h
    exact Binary64.canonical_zero false
  next => cases h

/-! ## Rules -/

/-- The document of a rule is one that JSON can hold if the three parts of it are that are not
texts. -/
theorem normal_toDocument {r : LearnedRule} (hconfidence : r.confidence.Canonical)
    (hfrom : Json.Normal r.learnedFrom) (hmerged : Json.Normal r.mergedAt) :
    Json.Normal r.toDocument := by
  have hnames : ["id", "description", "scope", "pattern", "severity", "source", "confidence",
      "learned_from"].Nodup := by decide
  have horigin :
      Json.Normal (.ofFields [("pr_number", r.learnedFrom), ("merged_at", r.mergedAt)]) := by
    have hparts : ["pr_number", "merged_at"].Nodup := by decide
    refine Store.normal_ofFields hparts ?_
    rw [List.forall_mem_cons, List.forall_mem_singleton]
    exact ⟨hfrom, hmerged⟩
  refine Store.normal_ofFields hnames ?_
  simp only [List.forall_mem_cons]
  exact ⟨.text _, .text _, .text _, .text _, .text _, .text _, .float hconfidence, horigin,
    fun _ h => absurd h List.not_mem_nil⟩

section

variable {origin : Origin} (hnumber : Json.Normal origin.number)
  (hmerged : Json.Normal origin.mergedAt)
include hnumber hmerged

theorem normal_of_conventionOf? {seen : List Document.Key} {entry : Document}
    (hentry : Json.Normal entry) {key : Document.Key} {r : LearnedRule}
    (h : conventionOf? origin seen entry = .ok (some (key, r))) : Json.Normal r.toDocument := by
  unfold conventionOf? at h
  split at h
  next entries =>
    dsimp only at h
    split at h
    · cases h
    · obtain ⟨k, -, h⟩ := bind_eq_ok.mp h
      split at h
      · cases h
      · obtain ⟨confidence, hconfidence, h⟩ := bind_eq_ok.mp h
        obtain ⟨-, rfl⟩ := Prod.mk.inj (Option.some.inj (Except.ok.inj h))
        refine normal_toDocument (canonical_of_confidenceOf ?_ hconfidence) hnumber hmerged
        -- an entry without a confidence is taken to have the least one
        cases hlookup : Document.lookup "confidence" entries with
        | none => exact .float (Binary64.canonical_zero false)
        | some value => exact hentry.of_lookup hlookup
  next => cases h

theorem normal_of_mem_conventionsFrom {seen : List Document.Key} {entries : List Document}
    (hentries : ∀ d ∈ entries, Json.Normal d) {learned : List LearnedRule}
    (h : conventionsFrom origin seen entries = .ok learned) :
    ∀ r ∈ learned, Json.Normal r.toDocument := by
  induction entries generalizing seen learned with
  | nil =>
      obtain rfl := Except.ok.inj h
      exact fun _ hr => absurd hr List.not_mem_nil
  | cons entry rest ih =>
      obtain ⟨hentry, hrest⟩ := List.forall_mem_cons.mp hentries
      rw [conventionsFrom] at h
      obtain ⟨found, hfound, h⟩ := bind_eq_ok.mp h
      cases found with
      | none => exact ih hrest h
      | some pair =>
          obtain ⟨key, rule⟩ := pair
          obtain ⟨more, hmore, h⟩ := bind_eq_ok.mp h
          obtain rfl := Except.ok.inj h
          rw [List.forall_mem_cons]
          exact ⟨normal_of_conventionOf? hnumber hmerged hentry hfound, ih hrest hmore⟩

/-- **The rules of an answer can be stored.** -/
theorem normal_of_mem_conventionsOf {known : List String} {answer : Document}
    (hanswer : Json.Normal answer) {learned : List LearnedRule}
    (h : conventionsOf origin known answer = .ok learned) :
    ∀ r ∈ learned, Json.Normal r.toDocument := by
  unfold conventionsOf at h
  split at h
  · cases hanswer with
    | list hitems => exact normal_of_mem_conventionsFrom hnumber hmerged hitems h
  · obtain rfl := Except.ok.inj h
    exact fun _ hr => absurd hr List.not_mem_nil

end

theorem normal_of_readAnswer {text : String} {d : Document} (h : readAnswer text = .ok d) :
    Json.Normal d := by
  unfold readAnswer at h
  split at h
  next value hparse =>
    obtain rfl := Except.ok.inj h
    exact Json.normal_of_parse hparse
  next =>
    obtain rfl := Except.ok.inj h
    exact .null
  next => cases h

/-- The rules that a conversation about a merged change gives can be stored. -/
theorem normal_of_mem_mineConventions {p : Provider} {files comments : List Document}
    {origin : Origin} (hnumber : Json.Normal origin.number) (hmerged : Json.Normal origin.mergedAt)
    {known : List String} {t : Talk} {learned : List LearnedRule}
    (h : (mineConventions p files comments origin known t).1 = .ok learned) :
    ∀ r ∈ learned, Json.Normal r.toDocument := by
  unfold mineConventions at h
  split at h
  · cases h
  · split at h
    · obtain rfl := Except.ok.inj h
      exact fun _ hr => absurd hr List.not_mem_nil
    · obtain ⟨answer, hanswer, h⟩ := bind_eq_ok.mp h
      exact normal_of_mem_conventionsOf hnumber hmerged (normal_of_readAnswer hanswer) h

end Mining

end ReviewGate
