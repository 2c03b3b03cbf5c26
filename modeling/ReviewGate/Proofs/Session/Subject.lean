import ReviewGate.Proofs.Context.Gather
import ReviewGate.Proofs.Review.Placement
import ReviewGate.Proofs.Session.Review
import ReviewGate.Proofs.SoftRule.Check

/-!
# `ReviewGate.Proofs.Session.Subject` — a review is about the files of its change

On its way into an analysis a path can come from four places: a check or a hard rule takes the path
of the file that it looks at, a model writes down whatever it likes, texts are fetched for paths that
imports name, and a comment takes the path of its finding. The files are those that were read from
the records of the pull request. A model's paths are compared with those of the texts it was asked
about, and among these are no imported ones. So no finding and no comment is about anything else.

## Contents
- `Pull.Changes`, `changes_of_mem`: the paths of a change.
- `Policy.AsksAbout`: the paths that a model is asked about.
- `file_of_mem_reported`, `softFindings_subject`: findings of specialists and of a model.
- `exists_run_softFindings`: a pass with a model.
- `review_stays_in_change`: all findings and comments; `review_stays_in_change_sample`: a run with a
  model that also names another file.
-/

namespace ReviewGate

open Diff Context SoftRule

/-- The pull request has a record with this path and a patch, and no glob ignores the path. -/
def Pull.Changes (pull : Pull) (p : Policy) (path : String) : Prop :=
  ∃ record ∈ pull.files, record.field "filename" = .ok (.text path) ∧
    (∃ patch, record.field "patch" = .ok (.text patch) ∧ patch ≠ "") ∧
    isIgnored (.text path) (p.ignore.map .text) = .ok false

/-- The text of the path was fetched, all texts together fit into the budget, and the scope of a soft
rule covers the path. -/
structure Policy.AsksAbout (p : Policy) (hub : Hub) (files : List ChangedFile) (path : String) :
    Prop where
  changed : ∃ f ∈ files, f.status ≠ .removed ∧ f.path = path
  fetched : ∃ t ∈ (gather hub.fetch p.settings.contextBudget files).changed,
    t.path = path ∧ hub.fetch path = some t.text
  budget : (gather hub.fetch p.settings.contextBudget files).cost ≤ p.settings.contextBudget
  covered : ∃ r ∈ p.softRules, Glob.matchesPath path r.scope = .ok true

section

variable {hub : Hub} {repository : String} {number : Int} {config : Document} {p : Policy}
  {desk desk' : Desk} {pull : Pull} {files : List ChangedFile} {x : Finding}

theorem changes_of_mem (hfiles : parseFiles (p.ignore.map .text) pull.files = .ok files)
    {f : ChangedFile} (hf : f ∈ files) : pull.Changes p f.path := by
  obtain ⟨record, hrecord, hof⟩ := exists_isOf_of_mem hfiles hf
  exact ⟨record, hrecord, hof.filename, ⟨f.patch, hof.patch, hof.patch_ne_empty⟩, hof.kept⟩

/-- What a specialist reports is about a file that it sees, in the name of the specialist. -/
theorem file_of_mem_reported {contents : Contents}
    (hx : x ∈ p.reported (route files) contents) :
    (∃ f ∈ files, x.file = .text f.path) ∧ ∃ s ∈ p.running, x.agent = .text (s.name ++ "-agent") := by
  obtain ⟨s, hs, r, hr, ⟨c, -, line, evidence, rfl⟩ | ⟨rule, -, line, rfl⟩⟩ :=
    finding_of_mem_reported hx
  · exact ⟨⟨r.file, file_mem_of_mem_bucket hr, rfl⟩, s, hs, rfl⟩
  · exact ⟨⟨r.file, file_mem_of_mem_bucket hr, rfl⟩, s, hs, rfl⟩

theorem run_converse_eq_ok {α : Type} {step : Talk → Except Fault α × Talk} {a : α} :
    (Run.converse step).run desk = (.ok a, desk') ↔
      (step desk.talk).1 = .ok a ∧ { desk with talk := (step desk.talk).2 } = desk' := by
  have hform : (Run.converse step).run desk
      = (Run.lift (step desk.talk).1).run { desk with talk := (step desk.talk).2 } := rfl
  rw [hform, Run.run_lift_eq_ok]

/-- Where a model is configured and there are rules, the findings are those of the pass. -/
theorem exists_run_softFindings {g : Gathered} {provider : Provider} {connected : ModelEvent}
    {soft : SoftResult}
    (hprovider : chooseProvider config p.settings.model = .ok (some (provider, connected)))
    (hrules : p.softRules.isEmpty = false)
    (hsoft : (checkSoftRules provider p.softRules files g.changed g.imported
      (desk.talk.record connected)).1 = .ok soft) :
    ∃ desk', (softFindings config p files g).run desk = (.ok soft, desk') := by
  refine exists_run_bind (Run.run_lift_eq_ok.mpr ⟨hprovider, rfl⟩) (exists_run_bind rfl ?_)
  rw [hrules, if_neg Bool.false_ne_true]
  exact ⟨_, run_converse_eq_ok.mpr ⟨hsoft, rfl⟩⟩

/-- **What a model finds is about files it was asked about**, whatever it answers. -/
theorem softFindings_subject {soft : SoftResult}
    (h : (softFindings config p files (gather hub.fetch p.settings.contextBudget files)).run desk
      = (.ok soft, desk')) (hx : x ∈ soft.findings) :
    x.agent = semanticAgent ∧ ∃ path, x.file = .text path ∧ p.AsksAbout hub files path := by
  obtain ⟨chosen, desk₁, -, h⟩ := run_bind_eq_ok.mp h
  cases chosen with
  | none =>
      obtain ⟨rfl, -⟩ := run_pure_eq_ok.mp h
      exact absurd hx List.not_mem_nil
  | some chosen =>
      obtain ⟨provider, connected⟩ := chosen
      obtain ⟨_, desk₂, -, h⟩ := run_bind_eq_ok.mp h
      split at h
      · obtain ⟨rfl, -⟩ := run_pure_eq_ok.mp h
        exact absurd hx List.not_mem_nil
      obtain ⟨hagent, t, ht, hfile, hrule⟩ :=
        checkSoftRules_subject (run_converse_eq_ok.mp h).1 hx
      have hall : t ∈ (gather hub.fetch p.settings.contextBudget files).all :=
        List.mem_append_left _ ht
      exact ⟨hagent, t.path, hfile, ofChange_gather t ht, ⟨t, ht, rfl, funded_gather.fetched t hall⟩,
        cost_gather_le (List.ne_nil_of_mem hall), hrule⟩

/-- **A review never talks about files outside the change.** For every hub, configuration, policy and
desk, and so for every answer of a model: if a run comes to an analysis, then each finding of it is
about a file of the pull request that has a patch and is not ignored. A finding that is not of a
specialist that runs is a model's, and the text of its file was fetched within the budget, and some
soft rule concerns the file. The comments of the review are about such files as well. -/
theorem review_stays_in_change {a : Analysis}
    (h : (analysePull hub repository number config p).run desk
      = (.ok (some (pull, files, a)), desk')) :
    hub.pull? number = some pull ∧
      (∀ x ∈ a.findings, ∃ path, x.file = .text path ∧ pull.Changes p path ∧
        ((∃ s ∈ p.running, x.agent = .text (s.name ++ "-agent")) ∨
          x.agent = semanticAgent ∧ p.AsksAbout hub files path)) ∧
      ∀ o, Outcome.ofAnalysis p files a = .ok o → ∀ c ∈ o.review.comments,
        ∃ path, c.path = .text path ∧ pull.Changes p path := by
  obtain ⟨hpull, hfiles, soft, desk₁, desk₂, hsoft, -, ha⟩ := analysed_of_run h
  refine ⟨hpull, fun x hx => ?_, fun o ho c hc => ?_⟩
  · rw [(analyze_eq_ok_iff.mp ha).2, mem_synthesize] at hx
    rcases List.mem_append.mp (mem_of_mem_dedupe hx) with hreported | hmodel
    · obtain ⟨⟨f, hf, hfile⟩, hagent⟩ := file_of_mem_reported hreported
      exact ⟨f.path, hfile, changes_of_mem hfiles hf, Or.inl hagent⟩
    · obtain ⟨hagent, path, hfile, hasked⟩ := softFindings_subject hsoft hmodel
      obtain ⟨f, hf, -, rfl⟩ := hasked.changed
      exact ⟨f.path, hfile, changes_of_mem hfiles hf, Or.inr ⟨hagent, hasked⟩⟩
  · obtain ⟨review, hreview, ho⟩ := bind_eq_ok.mp ho
    obtain rfl := Except.ok.inj ho
    rw [comments_ofAnalysis hreview] at hc
    obtain ⟨x, -, hinline⟩ := List.mem_filterMap.mp (List.mem_of_mem_take hc)
    obtain ⟨f, hf, _, hfile, -, -, hpath⟩ := Finding.exists_of_inline? hinline
    exact ⟨f.path, hpath.trans (isText_iff.mp hfile), changes_of_mem hfiles hf⟩

end

/-! ## A model that strays -/

/-- A rule for all files, and no specialist that runs. -/
def askingPolicy : Policy :=
  { samplePolicy with
    softRules := [⟨"close-files", "Close files.", "**", "open without close", .warning, .policy⟩]
    agents := fun _ => ⟨false, 0⟩ }

/-- The hub of the sample pull request with a text for its file. -/
def askingHub : Hub := ⟨[(7, placeholderPull)], [(sampleFile.path, some [0x78])]⟩

/-- A configuration with a model. -/
def askingFields : List (Document × Document) :=
  [(.text "provider", .text "anthropic"), (.text "anthropic_api_key", .text "key")]

/-- The model of the configuration. -/
def askingProvider : Provider := ⟨.anthropic, .text Vendor.anthropic.defaultModel⟩

/-- An answer about a file that is not in the change, and about the one that is. -/
def strayingAnswer : String :=
  "[\x7b\"ruleId\":\"a\",\"file\":\"b\",\"line\":1,\"title\":\"t\"\x7d," ++
    "\x7b\"ruleId\":\"a\",\"file\":\"store/user_test.go\",\"line\":2,\"title\":\"t\"\x7d]"

/-- The reply with this answer. -/
def strayingReply : Reply := .answer none (some [strayingAnswer]) none

/-- What is used of it. -/
def strayingCompletion : Completion := ⟨Text.strip (String.join [strayingAnswer]), .none⟩

/-- Is it a model's finding, and is it about the file of the sample? -/
def Finding.gist (x : Finding) : Bool × Bool :=
  (x.agent.isText "semantic-agent", x.file.isText sampleFile.path)

/-- The model is asked about the file, and only what it says about that file is found. -/
theorem exists_checkSoftRules_straying (t : Talk) (ht : t.replies = [strayingReply]) :
    ∃ soft, (checkSoftRules askingProvider askingPolicy.softRules [sampleFile]
        (gather askingHub.fetch askingPolicy.settings.contextBudget [sampleFile]).changed
        (gather askingHub.fetch askingPolicy.settings.contextBudget [sampleFile]).imported t).1
        = .ok soft ∧ soft.findings.map Finding.gist = [(true, true)] := by
  obtain ⟨agenda?, hagenda, hfiles⟩ : ∃ agenda?,
      (agendaOf? askingPolicy.softRules [sampleFile]
        (gather askingHub.fetch askingPolicy.settings.contextBudget [sampleFile]).changed).toOption
        = some agenda? ∧
      agenda?.map (fun a => (a.rules.map fun r => (r.id, r.severity), a.files.map (·.path)))
        = some ([("close-files", .warning)], [sampleFile.path]) :=
    Option.map_eq_some_iff.mp (by decide +kernel)
  obtain ⟨agenda, rfl, hagenda'⟩ := Option.map_eq_some_iff.mp hfiles
  obtain ⟨hrules, hpaths⟩ := Prod.mk.inj hagenda'
  obtain ⟨found, hfound, hgist⟩ : ∃ found,
      (readAnswer strayingCompletion.text >>= findingsOf [sampleFile.path]
        [("close-files", .warning)]).toOption = some found ∧
      found.map Finding.gist = [(true, true)] :=
    Option.map_eq_some_iff.mp (by decide +kernel)
  obtain ⟨answer, hanswer, hfound⟩ := bind_eq_ok.mp (eq_ok_of_toOption hfound)
  refine ⟨⟨found, strayingCompletion.usage⟩, ?_, hgist⟩
  have hcomplete : ∀ q, (askingProvider.complete q t).1 = some strayingCompletion := by
    obtain ⟨replies, events⟩ := t
    subst ht
    exact fun _ => rfl
  have hresult : resultOf agenda strayingCompletion = .ok ⟨found, strayingCompletion.usage⟩ := by
    rw [resultOf, hanswer, ok_bind, hrules, hpaths, hfound]
    rfl
  unfold checkSoftRules
  rw [eq_ok_of_toOption hagenda]
  simp only
  split
  · next hnone =>
    have hnothing := hcomplete _ ▸ congrArg Prod.fst hnone
    exact nomatch hnothing
  · next c t' hsome =>
    obtain rfl := Option.some.inj ((hcomplete _).symm.trans (congrArg Prod.fst hsome))
    exact hresult

/-- The analysis has what the model says about the file that it was asked about, and the other
finding is not in it. -/
theorem review_stays_in_change_sample :
    ∃ a desk', (analysePull askingHub "o/r" 7 (.map askingFields) askingPolicy).run
        (.start [strayingReply] []) = (.ok (some (placeholderPull, [sampleFile], a)), desk') ∧
      a.findings.map Finding.gist = [(true, true)] ∧
      ∀ x ∈ a.findings, ∃ path, x.file = .text path ∧ placeholderPull.Changes askingPolicy path ∧
        askingPolicy.AsksAbout askingHub [sampleFile] path := by
  have hnone : askingPolicy.running = [] := by decide
  have hsucceeds : askingPolicy.Succeeds (route [sampleFile]) (.ofList
      (gather askingHub.fetch askingPolicy.settings.contextBudget [sampleFile]).changed) := by
    intro s hs
    rw [hnone] at hs
    exact absurd hs List.not_mem_nil
  have hfiles : parseFiles (askingPolicy.ignore.map .text) placeholderPull.files
      = .ok [sampleFile] := eq_ok_of_toOption (by decide +kernel)
  have hprovider : chooseProvider (.map askingFields) askingPolicy.settings.model
      = .ok (some (askingProvider, .connect .anthropic (.text "key"))) := rfl
  obtain ⟨soft, hchecked, hgist⟩ := exists_checkSoftRules_straying
    ⟨[strayingReply], [.connect .anthropic (.text "key")]⟩ rfl
  have hsoft (d : Desk) (hd : d.talk = ⟨[strayingReply], []⟩) : ∃ d',
      (softFindings (.map askingFields) askingPolicy [sampleFile]
        (gather askingHub.fetch askingPolicy.settings.contextBudget [sampleFile])).run d
        = (.ok soft, d') := by
    refine exists_run_softFindings hprovider rfl ?_
    rw [hd]
    exact hchecked
  obtain ⟨x, hx, hgist⟩ := List.map_eq_singleton_iff.mp hgist
  have ha : analyze askingPolicy (route [sampleFile]) (.ofList
      (gather askingHub.fetch askingPolicy.settings.contextBudget [sampleFile]).changed)
      soft.findings soft.usage = .ok (synthesize [x] 0 soft.usage) := by
    refine analyze_eq_ok_iff.mpr ⟨hsucceeds, ?_⟩
    rw [Policy.reported, hnone, hx]
    rfl
  have hrun : ∃ desk', (analysePull askingHub "o/r" 7 (.map askingFields) askingPolicy).run
      (.start [strayingReply] [])
        = (.ok (some (placeholderPull, [sampleFile], synthesize [x] 0 soft.usage)), desk') :=
    exists_run_analysePull rfl rfl hfiles rfl rfl hsoft ha
  obtain ⟨desk', hrun⟩ := hrun
  obtain ⟨-, hall, -⟩ := review_stays_in_change hrun
  have hfindings : (synthesize [x] 0 soft.usage).findings = [x] := List.mergeSort_singleton x
  refine ⟨_, desk', hrun, ?_, fun y hy => ?_⟩
  · rw [hfindings, List.map_singleton, hgist]
  · obtain ⟨path, hfile, hchanges, ⟨s, hs, -⟩ | ⟨-, hasked⟩⟩ := hall y hy
    · rw [hnone] at hs
      exact absurd hs List.not_mem_nil
    · exact ⟨path, hfile, hchanges, hasked⟩

end ReviewGate
