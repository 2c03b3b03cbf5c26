import ReviewGate.Proofs.Hub.Verdict
import ReviewGate.Proofs.Review.Allowlist
import ReviewGate.Proofs.Session.Terminal

/-!
# `ReviewGate.Proofs.Session.Review` — a run writes only what it reports

A run on a pull request can end in many ways: the pull request is missing or a draft, nothing in it
can be reviewed, a request or the model fails, the user declines or says nothing. All of them but
one come before the first request that changes a review. So the run is cut there. What comes before
(`assess`) sends no such request whatever comes of it (`Run.Silent`), and it does not look at what
is to become of the review, so a run that only shows the review comes to the same outcome. What comes
after (`deliver`) either sends none, or posts and says so.

Each print is a way out as well, since the terminal may refuse a text. It does not refuse the line
that says that a review was posted, which is the only one behind a request that changes a review. It
may refuse a line about a finding. A run that only shows the review then fails without a request, and
otherwise it comes to the summary of the run that posts.

## Contents
- `HubCall.isWrite`, `Desk.writes`: requests that change reviews.
- `Run.Silent`: runs that send none.
- `assess`, `reviewPull_eq`: a run up to its outcome, and the whole run.
- `analysePull`, `assess_eq`: a run up to its analysis.
- `Analysed`, `analysed_of_run`, `Assessed`, `assessed_of_run`: where analysis and outcome come from.
- `postedSummary?`, `deliver_cases`: what a run says, and what becomes of an outcome.
- `writes_only_what_is_reported`: the whole run; `writes_only_what_is_reported_sample`: a run that
  posts.
-/

namespace ReviewGate

open Diff Context

/-! ## Requests that change reviews -/

/-- Does the request change the reviews of a pull request? -/
def HubCall.isWrite : HubCall → Bool
  | .dismiss .. | .create _ => true
  | .openRepository .. | .listPulls | .download .. => false

/-- The requests so far that change reviews. -/
def Desk.writes (d : Desk) : List HubCall := d.calls.filter HubCall.isWrite

theorem postingCalls_filter_isWrite (reviews : List PostedReview) (review : Review) :
    (postingCalls reviews review).filter HubCall.isWrite = postingCalls reviews review := by
  cases h : supersededReview? reviews <;> simp [postingCalls, h, HubCall.isWrite]

namespace Run

variable {α β : Type}

/-- Whatever comes of the run, it sends no request that changes reviews, and the terminal stays. -/
def Silent (x : Run α) : Prop :=
  ∀ desk, (x.run desk).2.writes = desk.writes ∧ (x.run desk).2.terminal = desk.terminal

theorem Silent.bind {x : Run α} {k : α → Run β} (hx : Silent x) (hk : ∀ a, Silent (k a)) :
    Silent (x >>= k) := by
  intro desk
  obtain ⟨hwrites, hterminal⟩ := hx desk
  rw [run_bind]
  cases hresult : x.run desk with
  | mk result desk' =>
      rw [hresult] at hwrites hterminal
      cases result with
      | error fault => exact ⟨hwrites, hterminal⟩
      | ok a => exact ⟨(hk a desk').1.trans hwrites, (hk a desk').2.trans hterminal⟩

theorem silent_pure (a : α) : Silent (pure a) := fun _ => ⟨rfl, rfl⟩

theorem silent_throw (fault : Fault) : Silent (throw fault : Run α) := fun _ => ⟨rfl, rfl⟩

theorem silent_lift (result : Except Fault α) : Silent (lift result) := by
  intro desk
  rw [run_lift]
  exact ⟨rfl, rfl⟩

theorem silent_print (p : Printed) : Silent (print p) := by
  intro desk
  rw [run_print]
  exact ⟨rfl, rfl⟩

theorem silent_say (text : String) : Silent (say text) := silent_print (.line text)

theorem silent_note (e : ModelEvent) : Silent (note e) := fun _ => ⟨rfl, rfl⟩

theorem silent_forM {f : α → Run Unit} (hf : ∀ a, Silent (f a)) (as : List α) :
    Silent (as.forM f) := by
  induction as with
  | nil => exact silent_pure ()
  | cons a as ih => exact (hf a).bind fun _ => ih

theorem silent_ask (question : String) : Silent (ask question) := by
  refine (silent_print _).bind fun _ desk => ?_
  obtain ⟨printed, calls, talk, input, terminal⟩ := desk
  cases input <;> exact ⟨rfl, rfl⟩

theorem silent_converse (step : Talk → Except Fault α × Talk) : Silent (converse step) := by
  intro desk
  have hform : (converse step).run desk
      = (lift (step desk.talk).1).run { desk with talk := (step desk.talk).2 } := rfl
  rw [hform]
  exact silent_lift _ _

theorem lift_bind (x : Except Fault α) (k : α → Except Fault β) :
    lift (x >>= k) = lift x >>= fun a => lift (k a) := by
  cases x <;> rfl

/-- Requests that change no review are sent in silence. -/
theorem silent_request {calls : List HubCall} (h : ∀ c ∈ calls, c.isWrite = false) :
    Silent (request calls) := by
  intro desk
  have hnone : calls.filter HubCall.isWrite = [] :=
    List.filter_eq_nil_iff.mpr fun c hc => by simp [h c hc]
  have hwrites : (desk.calls ++ calls).filter HubCall.isWrite = desk.writes := by
    rw [List.filter_append, hnone, List.append_nil]
    rfl
  exact ⟨hwrites, rfl⟩

end Run

/-! ## Up to the outcome -/

section

variable (hub : Hub) (repository : String) (number : Int) (config : Document) (p : Policy)

/-- The part of a run before anything is shown or posted: the pull request and its outcome, `none`
if the run stops early. -/
def assess : Run (Option (Pull × Outcome)) := do
  let pull ← findPull hub repository number
  let reviewsDrafts ← Run.lift (config.fieldOr "review_draft_prs" (.bool false))
  if pull.isDraft && !reviewsDrafts.truthy then
    Run.say <|
      "[yellow]Skipping draft PR. Set review_draft_prs: true in .patchwarden.yml to review " ++
        "drafts.[/yellow]"
    return none
  let files ← Run.lift (parseFiles (p.ignore.map .text) pull.files)
  if files.isEmpty then
    Run.say "[yellow]No reviewable files changed. Nothing to do.[/yellow]"
    return none
  Run.say s!"Reviewing PR #{number} at {shortSha pull.headSha}: {files.length} file(s)"
  let outcome ← reviewOutcome hub pull config p files
  return some (pull, outcome)

/-- What becomes of an outcome. -/
def finish (options : ReviewOptions) : Option (Pull × Outcome) → Run (Option ReviewSummary)
  | none => return none
  | some (pull, outcome) =>
      deliver options pull outcome (.ofOutcome repository number pull.headSha outcome)

/-- **A run is what it does up to the outcome, and then what becomes of it.** -/
theorem reviewPull_eq (options : ReviewOptions) :
    reviewPull hub repository number config p options =
      assess hub repository number config p >>= finish repository number options := by
  unfold reviewPull assess
  simp only [bind_assoc]
  refine congrArg (findPull hub repository number >>= ·) (funext fun pull => ?_)
  refine congrArg (Run.lift _ >>= ·) (funext fun reviewsDrafts => ?_)
  split
  · simp only [bind_assoc, pure_bind, finish]
  · simp only [bind_assoc]
    refine congrArg (Run.lift _ >>= ·) (funext fun files => ?_)
    split <;> simp only [bind_assoc, pure_bind, finish]

/-- The part of a run up to the analysis: the pull request, its files and their analysis, `none` if
the run stops early. -/
def analysePull : Run (Option (Pull × List ChangedFile × Analysis)) := do
  let pull ← findPull hub repository number
  let reviewsDrafts ← Run.lift (config.fieldOr "review_draft_prs" (.bool false))
  if pull.isDraft && !reviewsDrafts.truthy then
    Run.say <|
      "[yellow]Skipping draft PR. Set review_draft_prs: true in .patchwarden.yml to review " ++
        "drafts.[/yellow]"
    return none
  let files ← Run.lift (parseFiles (p.ignore.map .text) pull.files)
  if files.isEmpty then
    Run.say "[yellow]No reviewable files changed. Nothing to do.[/yellow]"
    return none
  Run.say s!"Reviewing PR #{number} at {shortSha pull.headSha}: {files.length} file(s)"
  let g ← gatherPull hub pull p.settings.contextBudget files
  let soft ← softFindings config p files g
  let a ← Run.lift (analyze p (route files) (.ofList g.changed) soft.findings soft.usage)
  return some (pull, files, a)

/-- The outcome of an analysis. -/
def conclude : Option (Pull × List ChangedFile × Analysis) → Run (Option (Pull × Outcome))
  | none => return none
  | some (pull, files, a) => do
      let outcome ← Run.lift (Outcome.ofAnalysis p files a)
      return some (pull, outcome)

/-- Up to its outcome, a run is what it does up to its analysis, and then the review of it. -/
theorem assess_eq :
    assess hub repository number config p
      = analysePull hub repository number config p >>= conclude p := by
  unfold assess analysePull reviewOutcome reviewChanges
  simp only [bind_assoc, Run.lift_bind]
  refine congrArg (findPull hub repository number >>= ·) (funext fun pull => ?_)
  refine congrArg (Run.lift _ >>= ·) (funext fun reviewsDrafts => ?_)
  split
  · simp only [bind_assoc, pure_bind, conclude]
  · simp only [bind_assoc]
    refine congrArg (Run.lift _ >>= ·) (funext fun files => ?_)
    split <;> simp only [bind_assoc, pure_bind, conclude]

/-- A path is asked for in silence. -/
theorem silent_gatherPull (pull : Pull) (budget : Int) (files : List ChangedFile) :
    Run.Silent (gatherPull hub pull budget files) := by
  refine Run.Silent.bind (Run.silent_request ?_) fun _ =>
    (Run.silent_say _).bind fun _ => Run.silent_pure _
  exact List.forall_mem_map.mpr fun _ _ => rfl

theorem silent_softFindings (files : List ChangedFile) (g : Gathered) :
    Run.Silent (softFindings config p files g) := by
  refine (Run.silent_lift _).bind fun chosen => ?_
  cases chosen with
  | none => exact Run.silent_pure _
  | some provider =>
      refine (Run.silent_note _).bind fun _ => ?_
      split
      · exact Run.silent_pure _
      · exact Run.silent_converse _

/-- **Up to the outcome no review is changed.** -/
theorem silent_assess : Run.Silent (assess hub repository number config p) := by
  have hfind : Run.Silent (findPull hub repository number) := by
    unfold findPull
    split
    · exact Run.silent_pure _
    · exact Run.silent_throw _
  refine hfind.bind fun pull => (Run.silent_lift _).bind fun reviewsDrafts => ?_
  split
  · exact (Run.silent_say _).bind fun _ => Run.silent_pure none
  · refine (Run.silent_lift _).bind fun files => ?_
    split
    · exact (Run.silent_say _).bind fun _ => Run.silent_pure none
    · refine (Run.silent_say _).bind fun _ => Run.Silent.bind ?_ fun _ => Run.silent_pure _
      exact (silent_gatherPull hub pull _ files).bind fun g =>
        (silent_softFindings config p files g).bind fun _ => Run.silent_lift _

end

/-- The analysis is that of the files of the pull request, with the texts that were fetched and what a
model, in the given conversation, has found. -/
def Analysed (hub : Hub) (number : Int) (config : Document) (p : Policy) (talk : Talk) (pull : Pull)
    (files : List ChangedFile) (a : Analysis) : Prop :=
  hub.pull? number = some pull ∧ parseFiles (p.ignore.map .text) pull.files = .ok files ∧
    ∃ soft desk desk',
      (softFindings config p files (gather hub.fetch p.settings.contextBudget files)).run desk
        = (.ok soft, desk') ∧
      desk.talk = talk ∧
      analyze p (route files)
        (.ofList (gather hub.fetch p.settings.contextBudget files).changed) soft.findings soft.usage
        = .ok a

/-- The outcome is what the rules say of the pull request: of its files, with the texts that were
fetched and what a model, in the given conversation, has found. -/
def Assessed (hub : Hub) (number : Int) (config : Document) (p : Policy) (talk : Talk) (pull : Pull)
    (o : Outcome) : Prop :=
  hub.pull? number = some pull ∧ ∃ files soft desk desk',
    parseFiles (p.ignore.map .text) pull.files = .ok files ∧
    (softFindings config p files (gather hub.fetch p.settings.contextBudget files)).run desk
      = (.ok soft, desk') ∧
    desk.talk = talk ∧
    reviewChanges p files (.ofList (gather hub.fetch p.settings.contextBudget files).changed)
      soft.findings soft.usage = .ok o

section

variable {hub : Hub} {repository : String} {number : Int} {config : Document} {p : Policy}
  {desk desk' : Desk} {pull : Pull} {o : Outcome}

/-- What is gathered does not depend on the desk, and the conversation stays as it is. -/
theorem gatherPull_eq_ok {budget : Int} {files : List ChangedFile} {g : Gathered}
    (h : (gatherPull hub pull budget files).run desk = (.ok g, desk')) :
    g = gather hub.fetch budget files ∧ desk'.talk = desk.talk := by
  obtain ⟨_, desk₁, hrequest, h⟩ := run_bind_eq_ok.mp h
  cases hrequest
  obtain ⟨_, desk₂, hsay, h⟩ := run_bind_eq_ok.mp h
  obtain ⟨-, rfl⟩ := Run.run_say_eq_ok.mp hsay
  obtain ⟨rfl, rfl⟩ := run_pure_eq_ok.mp h
  exact ⟨rfl, rfl⟩

/-- **An analysis that a run comes to is that of the pull request.** -/
theorem analysed_of_run {files : List ChangedFile} {a : Analysis}
    (h : (analysePull hub repository number config p).run desk
      = (.ok (some (pull, files, a)), desk')) :
    Analysed hub number config p desk.talk pull files a := by
  obtain ⟨found, desk₁, hfind, h⟩ := run_bind_eq_ok.mp h
  obtain ⟨hpull, rfl⟩ := findPull_eq_ok hfind
  obtain ⟨drafts, desk₂, hdrafts, h⟩ := run_bind_eq_ok.mp h
  obtain ⟨-, rfl⟩ := Run.run_lift_eq_ok.mp hdrafts
  split at h
  · obtain ⟨_, _, -, h⟩ := run_bind_eq_ok.mp h
    cases h
  obtain ⟨files, desk₃, hparse, h⟩ := run_bind_eq_ok.mp h
  obtain ⟨hfiles, rfl⟩ := Run.run_lift_eq_ok.mp hparse
  split at h
  · obtain ⟨_, _, -, h⟩ := run_bind_eq_ok.mp h
    cases h
  obtain ⟨_, desk₄, hsay, h⟩ := run_bind_eq_ok.mp h
  obtain ⟨-, rfl⟩ := Run.run_say_eq_ok.mp hsay
  obtain ⟨g, desk₅, hgather, h⟩ := run_bind_eq_ok.mp h
  obtain ⟨rfl, htalk⟩ := gatherPull_eq_ok hgather
  obtain ⟨soft, desk₆, hsoft, h⟩ := run_bind_eq_ok.mp h
  obtain ⟨a, desk₇, hanalyze, h⟩ := run_bind_eq_ok.mp h
  obtain ⟨ha, rfl⟩ := Run.run_lift_eq_ok.mp hanalyze
  cases h
  exact ⟨hpull, hfiles, soft, _, _, hsoft, htalk, ha⟩

/-- **An outcome that a run comes to is what the rules say.** -/
theorem assessed_of_run (h : (assess hub repository number config p).run desk
    = (.ok (some (pull, o)), desk')) : Assessed hub number config p desk.talk pull o := by
  rw [assess_eq] at h
  obtain ⟨found, desk₁, hfound, h⟩ := run_bind_eq_ok.mp h
  cases found with
  | none => cases h
  | some found =>
      obtain ⟨found, files, a⟩ := found
      obtain ⟨outcome, desk₂, houtcome, h⟩ := run_bind_eq_ok.mp h
      obtain ⟨ho, rfl⟩ := Run.run_lift_eq_ok.mp houtcome
      cases h
      obtain ⟨hpull, hfiles, soft, desk₃, desk₄, hsoft, htalk, ha⟩ := analysed_of_run hfound
      exact ⟨hpull, files, soft, desk₃, desk₄, hfiles, hsoft, htalk, bind_eq_ok.mpr ⟨a, ha, ho⟩⟩

end

/-! ## What becomes of the outcome -/

/-- The summary of a run that says it has posted. -/
def postedSummary? : Except Fault (Option ReviewSummary) → Option ReviewSummary
  | .ok (some s) => if s.posted then some s else none
  | _ => none

/-- The summary tells of the outcome. -/
structure ReviewSummary.TellsOf (s : ReviewSummary) (o : Outcome) : Prop where
  event : s.event = o.review.event
  inlineComments : s.inlineComments = o.review.comments.length
  findings : s.findings = o.analysis.findings.length
  outputs : s.outputs = runOutputs o.analysis o.review.event

/-- The requests and the message with which a review is posted. -/
def post (pull : Pull) (o : Outcome) (summary : ReviewSummary) : Run (Option ReviewSummary) := do
  Run.request (postingCalls pull.reviews o.review)
  Run.say <|
    s!"\n[green]Review posted: {o.review.event.name}. " ++
      s!"{o.review.comments.length} inline comment(s).[/green]"
  return some { summary with posted := true }

section

variable (pull : Pull) (o : Outcome) (summary : ReviewSummary)

theorem silent_showReview : Run.Silent (showReview o) := Run.silent_forM Run.silent_say _

theorem silent_confirm : Run.Silent (confirm o) :=
  (Run.silent_ask _).bind fun _ => Run.silent_pure _

/-- **A run that only shows the review has the summary as it is**, or it ends at a line about a
finding that the terminal refuses. -/
theorem deliver_of_shadow (autoConfirm : Bool) {desk : Desk}
    (hterminal : desk.terminal.ShowsWellMarked) :
    (desk.terminal.ShowsFindings o ∧
        ((deliver ⟨autoConfirm, true⟩ pull o summary).run desk).1 = .ok (some summary)) ∨
      ∃ line ∈ shadowLines o.analysis o.review.event o.files, ∃ fault,
        desk.terminal (.line line) = .error fault ∧
          ((deliver ⟨autoConfirm, true⟩ pull o summary).run desk).1 = .error fault := by
  unfold deliver
  rw [if_pos rfl, run_bind]
  obtain ⟨hshown, desk', hshow, hsame⟩ | ⟨line, hline, fault, desk', hfault, hshow⟩ :=
    Run.run_forM_say (shadowLines o.analysis o.review.event o.files) desk
  · refine Or.inl ⟨hshown, ?_⟩
    have hclosing : desk'.terminal (.line _) = .ok () :=
      hsame ▸ hterminal _ (wellMarked_wouldPost o.review.event o.review.comments.length)
    have hsaid := Run.run_say_eq_ok.mpr ⟨hclosing, rfl⟩
    rw [showReview, hshow]
    simp only [run_bind, hsaid]
    rfl
  · refine Or.inr ⟨line, hline, fault, hfault, ?_⟩
    rw [showReview, hshow]

/-- Any other run posts unless it is asked to ask, and the user does not agree. -/
theorem deliver_of_not_shadow (autoConfirm : Bool) :
    deliver ⟨autoConfirm, false⟩ pull o summary =
      (if autoConfirm then pure true else confirm o) >>= fun agreed =>
        if agreed then post pull o summary else pure none := by
  unfold deliver post
  rw [if_neg Bool.false_ne_true]
  cases autoConfirm <;> rfl

theorem run_post {desk : Desk} (hterminal : desk.terminal.ShowsWellMarked) : ∃ desk',
    (post pull o summary).run desk = (.ok (some { summary with posted := true }), desk') ∧
      desk'.writes = desk.writes ++ postingCalls pull.reviews o.review := by
  let posting : Desk := { desk with calls := desk.calls ++ postingCalls pull.reviews o.review }
  have hshown : posting.terminal (.line _) = .ok () :=
    hterminal _ (wellMarked_posted o.review.event o.review.comments.length)
  refine ⟨_, run_bind_eq_ok.mpr ⟨(), posting, rfl, run_bind_eq_ok.mpr
    ⟨(), _, Run.run_say_eq_ok.mpr ⟨hshown, rfl⟩, rfl⟩⟩, ?_⟩
  show (desk.calls ++ postingCalls pull.reviews o.review).filter HubCall.isWrite = _
  rw [List.filter_append, postingCalls_filter_isWrite]
  rfl

variable {pull o summary} (hposted : summary.posted = false)
include hposted

/-- **Of an outcome no review is made and none is told of, or one is posted and told of.** -/
theorem deliver_cases (options : ReviewOptions) {desk desk' : Desk}
    (hterminal : desk.terminal.ShowsWellMarked) {result : Except Fault (Option ReviewSummary)}
    (h : (deliver options pull o summary).run desk = (result, desk')) :
    (postedSummary? result = none ∧ desk'.writes = desk.writes) ∨
      (result = .ok (some { summary with posted := true }) ∧
        desk'.writes = desk.writes ++ postingCalls pull.reviews o.review) := by
  obtain ⟨autoConfirm, shadow⟩ := options
  cases shadow with
  | true =>
      have hsilent : Run.Silent (deliver ⟨autoConfirm, true⟩ pull o summary) :=
        (silent_showReview o).bind fun _ => (Run.silent_say _).bind fun _ => Run.silent_pure _
      have hwrites := (hsilent desk).1
      have hresult := deliver_of_shadow pull o summary autoConfirm hterminal
      rw [h] at hresult hwrites
      refine Or.inl ⟨?_, hwrites⟩
      obtain ⟨-, hshown⟩ | ⟨_, -, fault, -, hrefused⟩ := hresult
      · obtain rfl : result = .ok (some summary) := hshown
        rw [postedSummary?, hposted]
        rfl
      · obtain rfl : result = .error fault := hrefused
        rfl
  | false =>
      have hasked : Run.Silent (if autoConfirm then pure true else confirm o) := by
        split
        · exact Run.silent_pure true
        · exact silent_confirm o
      obtain ⟨hwrites, hsame⟩ := hasked desk
      rw [deliver_of_not_shadow, run_bind] at h
      cases hanswer : (if autoConfirm then pure true else confirm o : Run Bool).run desk with
      | mk answer desk₁ =>
          rw [hanswer] at h hwrites hsame
          cases answer with
          -- the question was refused, or the input has ended before the user has agreed
          | error fault =>
              cases h
              exact Or.inl ⟨rfl, hwrites⟩
          | ok agreed =>
              cases agreed with
              | false =>
                  cases h
                  exact Or.inl ⟨rfl, hwrites⟩
              | true =>
                  have hterminal₁ : desk₁.terminal.ShowsWellMarked := hsame ▸ hterminal
                  obtain ⟨desk₂, hrun, hcalls⟩ := run_post pull o summary hterminal₁
                  have hend := h.symm.trans hrun
                  cases hend
                  exact Or.inr ⟨rfl, hcalls.trans (congrArg (· ++ _) hwrites)⟩

end

/-! ## The whole run -/

/-- What is asked of the hub in front of a new review: at most one dismissal, of a signed verdict
that is in force. -/
theorem exists_withdrawn (reviews : List PostedReview) (review : Review) :
    ∃ withdrawn, postingCalls reviews review = withdrawn ++ [.create review] ∧
      withdrawn.length ≤ 1 ∧
      ∀ c ∈ withdrawn, ∃ r ∈ reviews, r.isSigned = true ∧ r.isLive = true ∧
        c = .dismiss r.id dismissal := by
  refine ⟨_, rfl, ?_, ?_⟩
  · cases supersededReview? reviews with
    | none => exact Nat.zero_le 1
    | some r => exact Nat.le_refl 1
  · intro c hc
    obtain ⟨r, hr, rfl⟩ : ∃ r, supersededReview? reviews = some r ∧
        HubCall.dismiss r.id dismissal = c := by simpa using hc
    obtain ⟨hnewest, hlive⟩ := Option.filter_eq_some_iff.mp hr
    exact ⟨r, List.mem_reverse.mp (List.mem_of_find?_eq_some hnewest), List.find?_some hnewest,
      hlive, rfl⟩

section

variable {hub : Hub} {repository : String} {number : Int} {config : Document} {p : Policy}
  {desk desk' : Desk}

/-- A run that only shows the review comes to the same outcome as any other. -/
theorem reviewPull_of_shadow {pull : Pull} {o : Outcome} (hterminal : desk.terminal.ShowsWellMarked)
    (h : (assess hub repository number config p).run desk = (.ok (some (pull, o)), desk'))
    (autoConfirm : Bool) :
    (desk.terminal.ShowsFindings o ∧
        ((reviewPull hub repository number config p ⟨autoConfirm, true⟩).run desk).1
          = .ok (some (.ofOutcome repository number pull.headSha o))) ∨
      ∃ line ∈ shadowLines o.analysis o.review.event o.files, ∃ fault,
        desk.terminal (.line line) = .error fault ∧
          ((reviewPull hub repository number config p ⟨autoConfirm, true⟩).run desk).1
            = .error fault := by
  have hsame : desk'.terminal = desk.terminal := by
    have hsilent := (silent_assess hub repository number config p desk).2
    rwa [h] at hsilent
  rw [reviewPull_eq, run_bind, h]
  rw [← hsame] at hterminal ⊢
  exact deliver_of_shadow pull o _ autoConfirm hterminal

/-- The sentence about the findings of an outcome tells of the findings alone. -/
theorem summary_of_reviewChanges {files : List ChangedFile} {contents : Contents}
    {extra : List Finding} {usage : TokenUsage} {o : Outcome}
    (h : reviewChanges p files contents extra usage = .ok o) :
    o.analysis.summary = summarize o.analysis.findings := by
  obtain ⟨a, ha, ho⟩ := bind_eq_ok.mp h
  obtain ⟨review, -, ho⟩ := bind_eq_ok.mp ho
  obtain rfl := Except.ok.inj ho
  rw [(analyze_eq_ok_iff.mp ha).2]
  rfl

end

/-! ## A pull request with an approval -/

section

variable {hub : Hub} {repository : String} {number : Int} {fields : List (Document × Document)}
  {p : Policy} {pull : Pull} {o : Outcome}

theorem exists_run_bind {α β : Type} {x : Run α} {k : α → Run β} {desk desk₁ : Desk} {a : α} {b : β}
    (hx : x.run desk = (.ok a, desk₁)) (hk : ∃ desk', (k a).run desk₁ = (.ok b, desk')) :
    ∃ desk', (x >>= k).run desk = (.ok b, desk') :=
  hk.imp fun _ hrun => run_bind_eq_ok.mpr ⟨a, desk₁, hx, hrun⟩

/-- What follows may start from any desk. -/
theorem exists_run_bind_of_exists {α β : Type} {x : Run α} {k : α → Run β} {desk : Desk} {a : α}
    {b : β} (hx : ∃ d, x.run desk = (.ok a, d))
    (hk : ∀ d, ∃ desk', (k a).run d = (.ok b, desk')) :
    ∃ desk', (x >>= k).run desk = (.ok b, desk') :=
  hx.elim fun d hd => exists_run_bind hd (hk d)

/-- On a terminal that shows everything, files are gathered. -/
theorem exists_run_gatherPull (hub : Hub) (pull : Pull) (budget : Int) (files : List ChangedFile)
    {desk : Desk} (hterminal : desk.terminal = .plain) : ∃ desk',
    (gatherPull hub pull budget files).run desk = (.ok (gather hub.fetch budget files), desk') ∧
      desk'.talk = desk.talk := by
  let asking : Desk := { desk with calls := desk.calls ++
    (gather hub.fetch budget files).asked.map fun path => .download path pull.headSha }
  have hplain : asking.terminal = .plain := hterminal
  exact ⟨_, run_bind_eq_ok.mpr ⟨(), asking, rfl, run_bind_eq_ok.mpr
    ⟨(), _, Run.run_say_of_plain hplain _, rfl⟩⟩, rfl⟩

/-- A pull request with files that can be reviewed comes to its analysis, with what a model finds in
the given conversation, if the terminal shows everything. -/
theorem exists_run_analysePull (hpull : hub.pull? number = some pull)
    (hdraft : pull.isDraft = false) {files : List ChangedFile}
    (hfiles : parseFiles (p.ignore.map .text) pull.files = .ok files)
    (hsome : files.isEmpty = false) {desk : Desk} (hterminal : desk.terminal = .plain)
    {soft : SoftRule.SoftResult}
    (hsoft : ∀ d : Desk, d.talk = desk.talk → ∃ d',
      (softFindings (.map fields) p files (gather hub.fetch p.settings.contextBudget files)).run d
        = (.ok soft, d'))
    {a : Analysis} (ha : analyze p (route files)
      (.ofList (gather hub.fetch p.settings.contextBudget files).changed) soft.findings soft.usage
      = .ok a) :
    ∃ desk', (analysePull hub repository number (.map fields) p).run desk
      = (.ok (some (pull, files, a)), desk') := by
  have hfind : (findPull hub repository number).run desk = (.ok pull, desk) := by
    unfold findPull
    rw [hpull]
    rfl
  have hlift {α : Type} {x : Except Fault α} {b : α} (h : x = .ok b) (d : Desk) :
      (Run.lift x).run d = (.ok b, d) := Run.run_lift_eq_ok.mpr ⟨h, rfl⟩
  refine exists_run_bind hfind (exists_run_bind rfl ?_)
  rw [hdraft, Bool.false_and, if_neg Bool.false_ne_true]
  refine exists_run_bind (hlift hfiles desk) ?_
  rw [hsome, if_neg Bool.false_ne_true]
  refine exists_run_bind (Run.run_say_of_plain hterminal _) ?_
  obtain ⟨desk₁, hgather, htalk⟩ : ∃ desk₁, (gatherPull hub pull p.settings.contextBudget files).run
      { desk with printed := desk.printed ++ [_] } = (.ok _, desk₁) ∧ desk₁.talk = desk.talk :=
    exists_run_gatherPull hub pull p.settings.contextBudget files hterminal
  refine exists_run_bind hgather ?_
  exact exists_run_bind_of_exists (hsoft _ htalk) fun d => exists_run_bind (hlift ha d) ⟨d, rfl⟩

/-- A pull request with files that can be reviewed comes to its outcome. -/
theorem exists_run_assess (hpull : hub.pull? number = some pull) (hdraft : pull.isDraft = false)
    {files : List ChangedFile} (hfiles : parseFiles (p.ignore.map .text) pull.files = .ok files)
    (hsome : files.isEmpty = false)
    (hprovider : chooseProvider (.map fields) p.settings.model = .ok none)
    (ho : reviewChanges p files
      (.ofList (gather hub.fetch p.settings.contextBudget files).changed) [] .none = .ok o)
    {desk : Desk} (hterminal : desk.terminal = .plain) :
    ∃ desk', (assess hub repository number (.map fields) p).run desk
      = (.ok (some (pull, o)), desk') := by
  obtain ⟨a, ha, ho⟩ := bind_eq_ok.mp ho
  have hsoft (d : Desk) (_ : d.talk = desk.talk) : ∃ d', (softFindings (.map fields) p files
      (gather hub.fetch p.settings.contextBudget files)).run d = (.ok .empty, d') :=
    exists_run_bind (Run.run_lift_eq_ok.mpr ⟨hprovider, rfl⟩) ⟨d, rfl⟩
  have hanalyse : ∃ desk', (analysePull hub repository number (.map fields) p).run desk
      = (.ok (some (pull, files, a)), desk') :=
    exists_run_analysePull hpull hdraft hfiles hsome hterminal hsoft ha
  obtain ⟨desk', hrun⟩ := hanalyse
  rw [assess_eq]
  exact exists_run_bind hrun (exists_run_bind (Run.run_lift_eq_ok.mpr ⟨ho, rfl⟩) ⟨desk', rfl⟩)

/-- A run that need not ask posts its outcome. -/
theorem exists_reviewPull_of_autoConfirm {config : Document} {desk desk₁ : Desk}
    (hterminal : desk.terminal.ShowsWellMarked)
    (h : (assess hub repository number config p).run desk = (.ok (some (pull, o)), desk₁)) :
    ∃ desk', (reviewPull hub repository number config p ⟨true, false⟩).run desk
      = (.ok (some
          { ReviewSummary.ofOutcome repository number pull.headSha o with posted := true }),
        desk') := by
  have hsilent := (silent_assess hub repository number config p desk).2
  rw [h] at hsilent
  obtain ⟨desk', hpost, -⟩ :=
    run_post pull o (.ofOutcome repository number pull.headSha o) (hsilent ▸ hterminal)
  refine ⟨desk', ?_⟩
  rw [reviewPull_eq, run_bind, h]
  show (deliver ⟨true, false⟩ pull o _).run desk₁ = _
  rw [deliver_of_not_shadow]
  exact hpost

end

/-- A pull request that adds a placeholder to a file, with an approval that bears the signature. -/
def placeholderPull : Pull where
  title := "Add types"
  isDraft := false
  isMerged := false
  mergedAt := .null
  headSha := "0123456789"
  files := [sampleRecord]
  comments := []
  reviews := [⟨.int 1, signature, "APPROVED", false⟩]

/-- The hub that holds it. -/
def placeholderHub : Hub := ⟨[(7, placeholderPull)], []⟩

end ReviewGate
