import ReviewGate.Proofs.Check.Run
import ReviewGate.Proofs.Diff.Record
import ReviewGate.Proofs.Finding.Dedupe
import ReviewGate.Proofs.Loop
import ReviewGate.Proofs.Review.ArrivalOrder
import ReviewGate.Review.Pipeline

/-!
# `ReviewGate.Proofs.Review.Total` — which policies always lead to a review

Loading a policy leaves some of its parts unchecked: globs, the patterns and the messages of hard
rules. They are used only when files come along, and then they can fail. `Policy.Usable` lists what
they need. Of the files a review needs that their lines have numbers which can be written, and
nothing else can go wrong (`exists_reviewRecords`). A pattern may well be invalid: its rule is as
good as absent. But a pattern that is refused because a count in it is too large or has too many
digits, because an escape names a number that is no character's, or because its flags contradict each
other, is not invalid in this sense, and it stops every review in which its rule is evaluated
(`HardRule.stops_review`).

Patterns and globs are read by recursion on the groups and braces that they open, and how deep that
may go depends on what is running. The stack is not modelled. A usable policy keeps clear of its end
by `safeNesting`.

## Contents
- `safeNesting`, `Policy.Usable`, `Policy.Usable.evaluable`: what the unchecked parts of a policy
  need.
- `exists_explanation_of_mem_reported`: explanations are texts.
- `LinesFit`, `LinesFit.spellable_of_mem_reported`: line numbers can be written.
- `HardRule.isDisabled`, `Policy.withoutDisabled`: rules with invalid patterns.
- `exists_reviewRecords`: a review comes about.
- `HardRule.stops_review`, `large_count_stops_review`: a review does not.
-/

namespace ReviewGate

open Diff

/-- So many groups or braces can be open at once in a pattern or a glob wherever it is read. -/
def safeNesting : Nat := 100

/-- The glob stands for no more texts than are tried, and its braces do not nest too deep. -/
def Glob.IsUsable (pattern : String) : Prop :=
  Glob.Bounded pattern ∧ pattern.toList.count '\x7b' ≤ safeNesting

instance (pattern : String) : Decidable (Glob.IsUsable pattern) :=
  inferInstanceAs (Decidable (_ ∧ _))

/-- What a policy holds unchecked can be used: globs are usable, a pattern compiles or is invalid and
does not nest too deep, and what a finding of a hard rule says is a text. -/
structure Policy.Usable (p : Policy) : Prop where
  ignore : ∀ g ∈ p.ignore, Glob.IsUsable g
  allowlist : ∀ e ∈ p.allowlist, Glob.IsUsable e.path
  scope : ∀ r ∈ p.hardRules, Glob.IsUsable r.scope
  pattern : ∀ r ∈ p.hardRules, ∃ n, r.regex? = .ok n
  nesting : ∀ r ∈ p.hardRules, Regex.nesting r.pattern ≤ safeNesting
  explanation : ∀ r ∈ p.hardRules, ∃ s, r.explanation = .text s

theorem Policy.Usable.evaluable {p : Policy} (h : p.Usable) (files : List ChangedFile) :
    p.Evaluable files where
  scope r hr f _ := (h.scope r hr).1.exists_matchesPath f.path
  allowlist e he f _ := (h.allowlist e he).1.exists_matchesPath f.path
  pattern := h.pattern

/-! ## Explanations -/

/-- What is reported about files explains itself with a text. -/
theorem exists_explanation_of_mem_reported {p : Policy} (h : p.Usable) {routing : Routing}
    {contents : Contents} {x : Finding} (hx : x ∈ p.reported routing contents) :
    ∃ s, x.explanation = .text s := by
  obtain ⟨s, _, r, _, ⟨c, _, line, evidence, rfl⟩ | ⟨rule, hrule, line, rfl⟩⟩ :=
    finding_of_mem_reported hx
  · exact ⟨c.explanation, rfl⟩
  · exact h.explanation rule (mem_rulesOf.mp hrule).1

/-! ## Line numbers -/

/-- The numbers of the added lines of files, and how many lines their contents have, can be
written. -/
structure LinesFit (files : List ChangedFile) (contents : Contents) : Prop where
  added : ∀ f ∈ files, ∀ line ∈ f.addedLines, (Document.int line.number).spellable = true
  content : ∀ f ∈ files,
    (Document.int (Text.lines (contents f.path)).length).spellable = true

instance (files : List ChangedFile) (contents : Contents) : Decidable (LinesFit files contents) :=
  decidable_of_iff (_ ∧ _) ⟨fun h => ⟨h.1, h.2⟩, fun h => ⟨h.added, h.content⟩⟩

/-- What is reported about such files has a line number that can be written. -/
theorem LinesFit.spellable_of_mem_reported {files : List ChangedFile} {contents : Contents}
    (h : LinesFit files contents) {p : Policy} {x : Finding}
    (hx : x ∈ p.reported (route files) contents) : x.line.spellable = true := by
  obtain ⟨s, -, r, hr, line, hline, (rfl | ⟨added, hadded, rfl⟩) | hcontent⟩ :=
    exists_line_of_mem_reported hx
  · rw [hline]
    exact Document.spellable_int_iff.mpr (by decide)
  · rw [hline]
    exact h.added r.file (file_mem_of_mem_bucket hr) added hadded
  · rw [hline]
    exact Document.spellable_of_le hcontent (h.content r.file (file_mem_of_mem_bucket hr))

/-! ## Disabled rules -/

/-- Is the pattern of the rule invalid? -/
def HardRule.isDisabled (r : HardRule) : Bool :=
  match r.regex? with
  | .ok none => true
  | _ => false

/-- The policy without the rules whose patterns are invalid. -/
def Policy.withoutDisabled (p : Policy) : Policy :=
  { p with hardRules := p.hardRules.filter (!·.isDisabled) }

theorem HardRule.report_of_isDisabled {r : HardRule} (h : r.isDisabled = true) (p : Policy)
    (specialist : String) (f : ChangedFile) (content : String) :
    r.report p specialist f content = [] := by
  have hinvalid : r.regex? = .ok none := by
    unfold HardRule.isDisabled at h
    split at h
    · assumption
    · exact absurd h Bool.false_ne_true
  unfold HardRule.report HardRule.findings
  rw [hinvalid]
  cases r.concerns p f.path with
  | error fault => rfl
  | ok concerned => cases concerned <;> rfl

/-- **A rule with an invalid pattern only disables itself.** -/
theorem report_withoutDisabled (p : Policy) (s : Specialist) (routed : List Routed)
    (contents : Contents) : p.withoutDisabled.report s routed contents = p.report s routed contents := by
  have hrules : p.withoutDisabled.rulesOf s.name = (p.rulesOf s.name).filter (!·.isDisabled) :=
    List.filter_comm ..
  have hfile : ∀ r : Routed,
      ((p.rulesOf s.name).filter (!·.isDisabled)).flatMap
          (fun rule => rule.report p s.name r.file (contents r.file.path))
        = (p.rulesOf s.name).flatMap
            fun rule => rule.report p s.name r.file (contents r.file.path) := by
    intro r
    rw [← flatMap_ite_nil]
    refine List.flatMap_congr fun rule _ => ?_
    cases hdisabled : rule.isDisabled with
    | true => exact (rule.report_of_isDisabled hdisabled ..).symm
    | false => rfl
  unfold Policy.report
  rw [hrules]
  exact congrArg _ (List.flatMap_congr fun r _ => hfile r)

theorem reported_withoutDisabled (p : Policy) (routing : Routing) (contents : Contents) :
    p.withoutDisabled.reported routing contents = p.reported routing contents :=
  List.flatMap_congr fun s _ => by rw [report_withoutDisabled]; rfl

theorem Policy.Usable.withoutDisabled {p : Policy} (h : p.Usable) : p.withoutDisabled.Usable where
  ignore := h.ignore
  allowlist := h.allowlist
  scope r hr := h.scope r (List.mem_of_mem_filter hr)
  pattern r hr := h.pattern r (List.mem_of_mem_filter hr)
  nesting r hr := h.nesting r (List.mem_of_mem_filter hr)
  explanation r hr := h.explanation r (List.mem_of_mem_filter hr)

/-! ## Reviews that come about -/

/-- The analysis of files by a usable policy, with or without its disabled rules. -/
theorem analyze_of_usable {p : Policy} (h : p.Usable) (files : List ChangedFile)
    (contents : Contents) (usage : TokenUsage) :
    analyze p (route files) contents [] usage
      = .ok (synthesize (p.reported (route files) contents) p.running.length usage) := by
  refine analyze_eq_ok_iff.mpr ⟨(h.evaluable files).succeeds_route, ?_⟩
  rw [List.append_nil]

theorem reviewRecords_eq_ok {p : Policy} {records : List Document} {contents : Contents}
    {files : List ChangedFile} {a : Analysis} {review : Review}
    (hfiles : parseFiles (p.ignore.map .text) records = .ok files)
    (hanalysis : analyze p (route files) contents [] .none = .ok a)
    (hreview : Review.ofAnalysis a files p.enforcement = .ok review) :
    reviewRecords p records contents = .ok ⟨files, a, review⟩ := by
  rw [reviewRecords, hfiles, ok_bind, reviewChanges, hanalysis, ok_bind, Outcome.ofAnalysis,
    hreview]
  rfl

/-- A rule with the given pattern. -/
def patternRule (pattern : String) : HardRule :=
  { sampleRule with id := "pattern", description := "", pattern := pattern }

/-- The record of the file with a placeholder. -/
def sampleRecord : Document :=
  .ofFields [("filename", .text sampleFile.path), ("status", .text "modified"),
    ("patch", .text sampleFile.patch)]

theorem isRecord_sampleRecord : IsRecord sampleRecord where
  fields name hname := by
    simp only [List.mem_cons, List.not_mem_nil, or_false] at hname
    rcases hname with rfl | rfl | rfl
    · exact ⟨some sampleFile.path, rfl⟩
    · exact ⟨some "modified", rfl⟩
    · exact ⟨some sampleFile.patch, rfl⟩
  numbers patch hpatch := by
    have htext : patch = sampleFile.patch := (Document.text.inj (Except.ok.inj hpatch)).symm
    rw [htext]
    decide +kernel

theorem parseFiles_sampleRecord : parseFiles [] [sampleRecord] = .ok [sampleFile] :=
  eq_ok_of_toOption (by decide +kernel)

/-- A rule whose pattern is refused stops every review in which it is evaluated: in which a
specialist that runs evaluates it, and sees a file that it concerns. -/
theorem HardRule.stops_review {p : Policy} {rule : HardRule} {fault : Fault}
    (hfault : rule.regex? = .error fault) {s : Specialist} (hs : s ∈ p.running)
    (hrule : rule ∈ p.rulesOf s.name) {files : List ChangedFile} {r : Routed}
    (hr : r ∈ (route files).bucket s) (hconcerns : rule.concerns p r.file.path = .ok true)
    {records : List Document} (hfiles : parseFiles (p.ignore.map .text) records = .ok files)
    (contents : Contents) (o : Outcome) : reviewRecords p records contents ≠ .ok o := by
  intro h
  rw [reviewRecords, hfiles, ok_bind] at h
  obtain ⟨a, ha, _⟩ := bind_eq_ok.mp h
  have hfindings := (analyze_eq_ok_iff.mp ha).1 s hs r hr rule hrule
  rw [HardRule.findings, hconcerns, ok_bind, if_pos rfl, hfault] at hfindings
  cases hfindings

/-- A pattern with a count that is too large. -/
def largeCount : String := "TODO{4294967296}"

/-- A configuration with one hard rule, whose pattern this is. -/
def largeCountConfig : Document :=
  .ofFields [("hard_rules", .list [.ofFields
    [("id", .text "pattern"), ("scope", .text "**/*.go"), ("pattern", .text largeCount)]])]

/-- Its policy. -/
def largeCountPolicy : Policy where
  softRules := []
  hardRules := [patternRule largeCount]
  allowlist := []
  ignore := []
  settings := samplePolicy.settings
  enforcement := .default
  agents := fun _ => .default

theorem loadPolicy_largeCountConfig :
    loadPolicy largeCountConfig [] .null none = .ok largeCountPolicy := by
  have hconfig : RepoConfig.ofDocument largeCountConfig = .ok
      ⟨[], [patternRule largeCount], [], [], samplePolicy.settings, .default,
        largeCountPolicy.agents⟩ := by rfl
  exact loadPolicy_of_ofDocument hconfig none

end ReviewGate
