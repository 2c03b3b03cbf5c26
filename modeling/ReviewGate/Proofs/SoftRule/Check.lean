import ReviewGate.Proofs.Document.Key
import ReviewGate.Proofs.Policy.Merge
import ReviewGate.Proofs.Sequence
import ReviewGate.SoftRule.Check

/-!
# `ReviewGate.Proofs.SoftRule.Check` — what a model's findings are about

A model may answer anything. Of its answer only the entries that name a file it was asked about
become findings (`exists_of_findingOf?`), and it is only asked about files whose texts are there and
that are in the scope of some rule (`exists_rule_of_agendaOf?`). So whatever a model says, its
findings are about such files.

## Contents
- `semanticAgent`: the agent of these findings.
- `of_mem_rulesFor`, `exists_of_mem_rulesByFile`: rules and files that concern each other.
- `exists_rule_of_agendaOf?`: what a model is asked about.
- `exists_of_findingOf?`, `exists_of_mem_findingsOf`: what an answer gives.
- `checkSoftRules_subject`: the findings of the pass.
-/

namespace ReviewGate

open Diff

/-! ## Rules and files -/

section

variable {rules : List Rule} {files : List ChangedFile}

theorem of_mem_rulesFor {path : String} {found : List Rule} (h : rulesFor rules path = .ok found)
    {r : Rule} (hr : r ∈ found) : r ∈ rules ∧ Glob.matchesPath path r.scope = .ok true :=
  of_mem_filterM h hr

/-- A file that rules concern is of the change, and the scope of one of the rules covers it. -/
theorem exists_of_mem_rulesByFile {byFile : List (String × List Rule)}
    (h : rulesByFile rules files = .ok byFile) {e : String × List Rule} (he : e ∈ byFile) :
    (∃ f ∈ files, f.path = e.1) ∧ ∃ r ∈ rules, Glob.matchesPath e.1 r.scope = .ok true := by
  obtain ⟨found, hfound, h⟩ := bind_eq_ok.mp h
  rw [← Except.ok.inj h] at he
  obtain ⟨hmem, hsome⟩ := List.mem_filter.mp (mem_of_mem_mergeById he)
  obtain ⟨f, hf, hrules⟩ := exists_of_mapM_eq_ok hfound hmem
  obtain ⟨applicable, happlicable, hrules⟩ := bind_eq_ok.mp hrules
  obtain rfl := Except.ok.inj hrules
  refine ⟨⟨f, hf, rfl⟩, ?_⟩
  cases applicable with
  | nil => exact nomatch hsome
  | cons r rest =>
      obtain ⟨hr, hscope⟩ := of_mem_rulesFor happlicable List.mem_cons_self
      exact ⟨r, hr, hscope⟩

end

namespace SoftRule

/-- The agent of a model's findings. -/
def semanticAgent : Document := .text "semantic-agent"

variable {rules : List Rule} {files : List ChangedFile} {texts : List FileText}

/-- A model is asked about texts that are there, each of a file in the scope of a rule. -/
theorem exists_rule_of_agendaOf? {agenda : Agenda}
    (h : agendaOf? rules files texts = .ok (some agenda)) {t : FileText} (ht : t ∈ agenda.files) :
    t ∈ texts ∧ ∃ r ∈ rules, Glob.matchesPath t.path r.scope = .ok true := by
  unfold agendaOf? at h
  obtain ⟨byFile, hbyFile, h⟩ := bind_eq_ok.mp h
  simp only at h
  split at h
  · exact nomatch h
  obtain rfl := Option.some.inj (Except.ok.inj h)
  obtain ⟨htexts, hany⟩ := List.mem_filter.mp ht
  obtain ⟨e, he, hpath⟩ := List.any_eq_true.mp hany
  rw [← beq_iff_eq.mp hpath]
  exact ⟨htexts, (exists_of_mem_rulesByFile hbyFile he).2⟩

/-! ## Answers -/

theorem eq_text_of_isKnown {known : List String} {path : Document}
    (h : isKnown known path = .ok true) : ∃ s ∈ known, path = .text s := by
  unfold isKnown at h
  obtain ⟨k, hk, h⟩ := bind_eq_ok.mp h
  split at h
  · next s =>
    refine ⟨s, List.contains_iff_mem.mp (Except.ok.inj h), isText_iff.mp (isText_iff_key?.mpr ?_)⟩
    unfold Document.keyOf at hk
    split at hk
    · next hkey => rw [hkey, Except.ok.inj hk]
    · exact nomatch hk
  · exact nomatch h

/-- An entry gives a finding about a file that is known, or none. -/
theorem exists_of_findingOf? {known : List String} {severities : Severities} {entry : Document}
    {x : Finding} (h : findingOf? known severities entry = .ok (some x)) :
    (∃ path ∈ known, x.file = .text path) ∧ x.agent = semanticAgent := by
  unfold findingOf? at h
  split at h
  · simp only at h
    split at h
    · exact nomatch h
    obtain ⟨isIn, hknown, h⟩ := bind_eq_ok.mp h
    split at h
    · exact nomatch h
    next hin =>
    split at h
    · exact nomatch h
    obtain ⟨severity, -, h⟩ := bind_eq_ok.mp h
    obtain rfl := Option.some.inj (Except.ok.inj h)
    have hyes : isIn = true := by simpa using hin
    exact ⟨eq_text_of_isKnown (hyes ▸ hknown), rfl⟩
  · exact nomatch h

theorem exists_of_mem_findingsOf {known : List String} {severities : Severities} {answer : Document}
    {found : List Finding} (h : findingsOf known severities answer = .ok found) {x : Finding}
    (hx : x ∈ found) : (∃ path ∈ known, x.file = .text path) ∧ x.agent = semanticAgent := by
  cases answer with
  | list entries =>
      obtain ⟨read, hread, h⟩ := bind_eq_ok.mp h
      rw [← Except.ok.inj h] at hx
      obtain ⟨x?, hmem, rfl⟩ := List.mem_filterMap.mp hx
      obtain ⟨entry, -, hentry⟩ := exists_of_mapM_eq_ok hread hmem
      exact exists_of_findingOf? hentry
  | _ =>
      obtain rfl := Except.ok.inj h
      exact absurd hx List.not_mem_nil

/-- **The findings of the pass are about files that the model was asked about**, whatever it answers:
files with a text and in the scope of a rule. -/
theorem checkSoftRules_subject {p : Provider} {context : List FileText} {talk : Talk}
    {result : SoftResult} (h : (checkSoftRules p rules files texts context talk).1 = .ok result)
    {x : Finding} (hx : x ∈ result.findings) :
    x.agent = semanticAgent ∧ ∃ t ∈ texts, x.file = .text t.path ∧
      ∃ r ∈ rules, Glob.matchesPath t.path r.scope = .ok true := by
  unfold checkSoftRules at h
  cases hagenda : agendaOf? rules files texts with
  | error fault =>
      rw [hagenda] at h
      exact nomatch h
  | ok agenda? =>
      rw [hagenda] at h
      cases agenda? with
      | none =>
          obtain rfl := Except.ok.inj h
          exact absurd hx List.not_mem_nil
      | some agenda =>
          simp only at h
          split at h
          · obtain rfl := Except.ok.inj h
            exact absurd hx List.not_mem_nil
          · next c talk' =>
            obtain ⟨answer, -, h⟩ := bind_eq_ok.mp h
            obtain ⟨found, hfound, h⟩ := bind_eq_ok.mp h
            obtain rfl := Except.ok.inj h
            obtain ⟨⟨path, hpath, hfile⟩, hagent⟩ := exists_of_mem_findingsOf hfound hx
            obtain ⟨t, ht, rfl⟩ := List.mem_map.mp hpath
            obtain ⟨htexts, hrule⟩ := exists_rule_of_agendaOf? hagenda ht
            exact ⟨hagent, t, htexts, hfile, hrule⟩

end SoftRule

end ReviewGate
