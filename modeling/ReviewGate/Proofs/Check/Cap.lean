import ReviewGate.Proofs.Check.Run
import ReviewGate.Proofs.Document.Key
import ReviewGate.Proofs.Policy.Config

/-!
# `ReviewGate.Proofs.Check.Cap` — how many findings a specialist reports

A specialist reports the first of its findings, as many as its limit says. The limit is any integer
that the configuration gives, and a negative one counts from the end: it drops so many findings and
keeps all others. So a report holds nothing but first findings, in the order in which they are found,
but only a limit that is not negative bounds their number.

## Contents
- `Document.specialistEntries`, `limitsGiven`, `Document.GivesLimit`: the limit that a configuration
  gives a specialist.
- `Agents.limit_of_update`, `givesLimit_of_loadPolicy`: it is the limit of the loaded policy.
- `CutAt`, `cutAt_takeSigned`: what is cut off at a limit.
- `findings_capped`: what a specialist reports.
- `negative_limit_keeps_finding`: a limit that does not bound it.
-/

namespace ReviewGate

open Diff

/-! ## The limit that a configuration gives -/

/-- The entries of a configuration for the specialists. -/
def Document.specialistEntries (config : Document) : List (Document × Document) :=
  ((config.fieldIn "agents").fieldIn "specialists").entriesIn

/-- The limit that an entry gives the specialist, if it gives one. -/
def givenLimit? (s : Specialist) (entry : Document × Document) : Option Document :=
  match entry with
  | (.text word, .map fields) =>
      if word = s.name then Document.lookup "max_findings" fields else none
  | _ => none

/-- The limits that the entries give the specialist, in order. -/
def limitsGiven (s : Specialist) (entries : List (Document × Document)) : List Document :=
  entries.filterMap (givenLimit? s)

/-- The configuration gives the specialist the limit `n`: the last of the limits that it gives is
read as `n`, and without any the limit is 50. -/
def Document.GivesLimit (config : Document) (s : Specialist) (n : Int) : Prop :=
  ((limitsGiven s config.specialistEntries).getLastD (.int 50)).toInteger = .ok n

theorem Specialist.name_of_ofName? {word : String} {s : Specialist}
    (h : Specialist.ofName? word = some s) : s.name = word :=
  beq_iff_eq.mp (List.find?_some h :)

theorem Specialist.name_injective : Function.Injective Specialist.name := by
  intro s t h
  have hname := s.ofName?_name
  rw [h, t.ofName?_name] at hname
  exact (Option.some.inj hname).symm

theorem limitsGiven_cons (s : Specialist) (entry : Document × Document)
    (rest : List (Document × Document)) :
    limitsGiven s (entry :: rest) = (givenLimit? s entry).toList ++ limitsGiven s rest := by
  unfold limitsGiven
  cases hlimit : givenLimit? s entry with
  | none => exact List.filterMap_cons_none hlimit
  | some d => exact List.filterMap_cons_some hlimit

/-- An entry that is passed over gives no limit. -/
theorem givenLimit?_of_skipped {name values : Document} (s : Specialist)
    (h : ∀ word t, name = .text word → Specialist.ofName? word = some t → values.truthy = false) :
    givenLimit? s (name, values) = none := by
  cases name with
  | text word =>
      cases values with
      | map fields =>
          refine ite_eq_right_iff.mpr fun hword => ?_
          -- an entry for the specialist is only passed over if it is empty
          have hempty := h word s rfl (hword ▸ s.ofName?_name)
          obtain rfl := Document.eq_nil_of_not_truthy (Bool.eq_false_iff.mp hempty)
          rfl
      | _ => rfl
  | _ => rfl

/-- In front of other limits, one that is read as the same integer will do. -/
theorem toInteger_getLastD {d e : Document} (h : d.toInteger = e.toInteger)
    (behind : List Document) : (behind.getLastD d).toInteger = (behind.getLastD e).toInteger := by
  cases behind with
  | nil => exact h
  | cons last rest => rw [List.getLastD_cons, List.getLastD_cons]

/-- **The last limit that the entries give is the one that counts**, and without any the old one
does. -/
theorem Agents.limit_of_update {agents updated : Agents} {entries : List (Document × Document)}
    (h : Agents.update agents entries = .ok updated) (s : Specialist) :
    ((limitsGiven s entries).getLastD (.int (agents s).maxFindings)).toInteger
      = .ok (updated s).maxFindings := by
  induction entries generalizing agents with
  | nil =>
      obtain rfl := Except.ok.inj h
      rfl
  | cons entry rest ih =>
      obtain ⟨name, values⟩ := entry
      rw [limitsGiven_cons]
      obtain ⟨word, t, rfl, hname, hvalues⟩ | hskipped := Agents.counts_or_skipped name values
      · rw [Agents.update_cons hname hvalues] at h
        obtain ⟨flag, hflag, h⟩ := bind_eq_ok.mp h
        obtain ⟨enabled, -, h⟩ := bind_eq_ok.mp h
        obtain ⟨limit, hlimit, h⟩ := bind_eq_ok.mp h
        obtain ⟨n, hn, hrest⟩ := bind_eq_ok.mp h
        obtain rfl := Specialist.name_of_ofName? hname
        cases values with
        | map fields =>
            obtain rfl := Except.ok.inj hlimit
            rw [← ih hrest]
            by_cases hts : t = s
            · subst hts
              simp only [givenLimit?, if_pos]
              cases hgiven : Document.lookup "max_findings" fields with
              | none =>
                  rw [hgiven] at hn
                  exact toInteger_getLastD hn _
              | some d =>
                  rw [hgiven] at hn
                  rw [Option.toList_some, List.singleton_append, List.getLastD_cons]
                  exact toInteger_getLastD hn _
            · have hother : t.name ≠ s.name := fun h => hts (Specialist.name_injective h)
              simp only [givenLimit?, if_neg hother, if_neg (Ne.symm hts)]
              rfl
        | _ => cases hflag
      · rw [Agents.update_cons_of_skipped hskipped] at h
        rw [givenLimit?_of_skipped s hskipped]
        exact ih h

/-- A document that is taken for an empty mapping where it counts as absent. -/
theorem Document.entriesIn_of_orElse {d : Document} {named : List (Document × Document)}
    (h : (d.orElse (.map [])).entries = .ok named) : d.entriesIn = named := by
  unfold Document.orElse at h
  split at h
  · cases d with
    | map entries => exact Except.ok.inj h
    | _ => cases h
  · next habsent =>
    obtain rfl := Except.ok.inj h
    cases d with
    | map entries => exact Document.eq_nil_of_not_truthy habsent
    | _ => rfl

/-- The settings of the specialists are read from the entries for them. -/
theorem Agents.update_specialistEntries {config : Document} {c : RepoConfig}
    (h : RepoConfig.ofDocument config = .ok c) :
    Agents.update (fun _ => .default) config.specialistEntries = .ok c.agents := by
  obtain ⟨d, hd, hagents⟩ := (RepoConfig.readFrom_of_ofDocument h).agents
  have hfields : config.fieldIn "agents" = (config.orElse (.map [])).fieldIn "agents" :=
    (config.fieldIn_orElse "agents").symm
  cases hraw : config.orElse (.map []) with
  | map sections =>
      rw [hraw] at hd hfields
      obtain ⟨fields, rfl, hsection⟩ := readMapping_eq_ok.mp hd
      -- a section that is not there has no entries, as an empty one
      have hspecialists : (config.fieldIn "agents").fieldIn "specialists"
          = Document.under "specialists" fields := by
        rw [hfields]
        rcases hsection with ⟨hnull, rfl⟩ | hmap
        · exact congrArg (·.fieldIn "specialists") hnull
        · exact congrArg (·.fieldIn "specialists") hmap
      obtain ⟨_, hunder, hagents⟩ := bind_eq_ok.mp hagents
      obtain rfl := Except.ok.inj hunder
      obtain ⟨named, hnamed, hagents⟩ := bind_eq_ok.mp hagents
      have hentries : config.specialistEntries = named := by
        unfold Document.specialistEntries
        rw [hspecialists]
        exact Document.entriesIn_of_orElse hnamed
      rw [hentries]
      exact hagents
  | _ =>
      rw [hraw] at hd
      cases hd

/-- **The limit of a loaded policy is the one that its configuration gives.** -/
theorem givesLimit_of_loadPolicy {config : Document} {learned : List Document} {snapshot : Document}
    {mode : Option String} {p : Policy} (h : loadPolicy config learned snapshot mode = .ok p)
    (s : Specialist) : config.GivesLimit s (p.agents s).maxFindings := by
  obtain ⟨c, l, stored, hc, -, -, rfl⟩ := loadPolicy_eq_ok.mp h
  exact Agents.limit_of_update (Agents.update_specialistEntries hc) s

/-! ## What is cut off -/

/-- The items `kept` are the first of `items`: as many as the limit says or, if it is negative, all
but so many. So the limit bounds their number if it is not negative, or drops all items. -/
structure CutAt {α : Type} (limit : Int) (items kept : List α) : Prop where
  first : kept <+: items
  length_of_nonneg : 0 ≤ limit → (kept.length : Int) = min limit items.length
  length_of_neg : limit < 0 → (kept.length : Int) = max (items.length + limit) 0
  bounded_iff : (kept.length : Int) ≤ max limit 0 ↔ 0 ≤ limit ∨ items.length + limit ≤ 0

theorem cutAt_takeSigned {α : Type} (limit : Int) (items : List α) :
    CutAt limit items (takeSigned limit items) := by
  by_cases hneg : limit < 0
  · have hkept : takeSigned limit items = items.take (items.length - limit.natAbs) := if_pos hneg
    have hlength : ((takeSigned limit items).length : Int) = max (items.length + limit) 0 := by
      rw [hkept, List.length_take]
      omega
    refine ⟨?_, fun h => absurd hneg (by omega), fun _ => hlength, by omega⟩
    rw [hkept]
    exact List.take_prefix _ _
  · have hkept : takeSigned limit items = items.take limit.toNat := if_neg hneg
    have hlength : ((takeSigned limit items).length : Int) = min limit items.length := by
      rw [hkept, List.length_take]
      omega
    refine ⟨?_, fun _ => hlength, fun h => absurd h hneg, by omega⟩
    rw [hkept]
    exact List.take_prefix _ _

/-! ## What a specialist reports -/

/-- **A specialist reports the first of its findings, up to its limit.** Under a policy that was
loaded, the limit is the integer that the configuration gives. For all files and contents a specialist
fails only where its hard rules fail. Otherwise it reports the first of the findings of its built-in
checks, followed by those of its hard rules, and the limit bounds their number unless it is negative
and there are more findings than it drops. -/
theorem findings_capped {config : Document} {learned : List Document} {snapshot : Document}
    {mode : Option String} {p : Policy} (h : loadPolicy config learned snapshot mode = .ok p)
    (s : Specialist) (routed : List Routed) (contents : Contents) :
    ∃ limit, config.GivesLimit s limit ∧
      (∀ fault, specialistFindings p s.name routed contents = .error fault ↔
        hardRuleFindings p s.name routed contents = .error fault) ∧
      ∀ hard, hardRuleFindings p s.name routed contents = .ok hard →
        ∃ found, specialistFindings p s.name routed contents = .ok found ∧
          CutAt limit (runChecks s.name s.checks routed contents ++ hard) found := by
  refine ⟨_, givesLimit_of_loadPolicy h s, ?_⟩
  unfold specialistFindings uncappedFindings Agents.forName
  rw [checksOf_name, s.ofName?_name]
  cases hhard : hardRuleFindings p s.name routed contents with
  | error fault => exact ⟨fun _ => Iff.rfl, nofun⟩
  | ok hard =>
      refine ⟨fun _ => ⟨nofun, nofun⟩, fun _ hsame => ⟨_, rfl, ?_⟩⟩
      obtain rfl := Except.ok.inj hsame
      exact cutAt_takeSigned _ _

/-! ## Two placeholders -/

/-- A file with two placeholders. -/
def placeholderFile : ChangedFile where
  path := "src/app.go"
  status := .modified
  hunks := [⟨"@@ -1 +1,3 @@", 1, 1, 1, 3, " package app\n+// TODO one\n+// TODO two"⟩]
  patch := "@@ -1 +1,3 @@\n package app\n+// TODO one\n+// TODO two"

/-- A configuration that gives the reliability specialist a limit. -/
def limitConfig (limit : Int) : Document :=
  .ofFields [("agents", .ofFields [("specialists", .ofFields
    [("reliability", .ofFields [("max_findings", .int limit)])])])]

/-- The policy of the configuration. -/
def limitPolicy (limit : Int) : Policy where
  softRules := []
  hardRules := []
  allowlist := []
  ignore := []
  settings := ⟨3, .null, 50000⟩
  enforcement := .default
  agents := fun s => if s = .reliability then ⟨true, limit⟩ else .default

/-- Every integer is accepted as a limit. -/
theorem loadPolicy_limitConfig (limit : Int) :
    loadPolicy (limitConfig limit) [] .null none = .ok (limitPolicy limit) := by
  have hconfig : RepoConfig.ofDocument (limitConfig limit) = .ok
      ⟨[], [], [], [], (limitPolicy limit).settings, .default, (limitPolicy limit).agents⟩ := by rfl
  exact loadPolicy_of_ofDocument hconfig none

/-- Of the two placeholders the first is reported. -/
theorem findings_capped_sample :
    loadPolicy (limitConfig 1) [] .null none = .ok (limitPolicy 1) ∧
      ∃ found, specialistFindings (limitPolicy 1) Specialist.reliability.name
          [Routed.ofFile placeholderFile] (fun _ => "") = .ok found ∧
        CutAt 1 (runChecks Specialist.reliability.name Specialist.reliability.checks
          [Routed.ofFile placeholderFile] fun _ => "") found ∧ found.length = 1 := by
  obtain ⟨limit, hlimit, -, hfound⟩ := findings_capped (loadPolicy_limitConfig 1) .reliability
    [Routed.ofFile placeholderFile] fun _ => ""
  obtain rfl : 1 = limit := Except.ok.inj hlimit
  obtain ⟨found, hfound, hcut⟩ := hfound [] rfl
  rw [List.append_nil] at hcut
  have htotal : (runChecks Specialist.reliability.name Specialist.reliability.checks
      [Routed.ofFile placeholderFile] fun _ => "").length = 2 := by decide +kernel
  have hlength := hcut.length_of_nonneg (by decide)
  rw [htotal] at hlength
  exact ⟨loadPolicy_limitConfig 1, found, hfound, hcut, Int.ofNat.inj hlength⟩

/-- With the limit -1 one of the two placeholders is reported, although the limit allows none. -/
theorem negative_limit_keeps_finding :
    loadPolicy (limitConfig (-1)) [] .null none = .ok (limitPolicy (-1)) ∧
      (limitConfig (-1)).GivesLimit .reliability (-1) ∧
      ∃ found, specialistFindings (limitPolicy (-1)) "reliability"
          [Routed.ofFile placeholderFile] (fun _ => "") = .ok found ∧
        ¬ (found.length : Int) ≤ max (-1) 0 := by
  have hlength : (specialistFindings (limitPolicy (-1)) "reliability"
      [Routed.ofFile placeholderFile] fun _ => "").toOption.map List.length = some 1 := by
    decide +kernel
  obtain ⟨found, hfound, hone⟩ := exists_eq_ok_of_map hlength
  refine ⟨loadPolicy_limitConfig (-1), rfl, found, hfound, ?_⟩
  omega

end ReviewGate
