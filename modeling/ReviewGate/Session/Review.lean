import ReviewGate.Context.Gather
import ReviewGate.Review.Pipeline
import ReviewGate.Session.Basic
import ReviewGate.SoftRule.Check

/-!
# `ReviewGate.Session.Review` — a pull request reviewed

The changed files and their texts are fetched, the rules evaluated, and the review is posted unless
the run only shows it or the user declines.

## Contents
- `ReviewSummary`: what the run has done.
- `findPull`, `gatherPull`, `softFindings`: the steps before the review.
- `reviewOutcome`: the outcome for the files of a pull request.
- `deliver`: the review shown or posted.
- `reviewPull`: the whole run.
-/

namespace ReviewGate

open Diff Context

/-- What a run has done. -/
structure ReviewSummary where
  repository : String
  number : Int
  headSha : String
  event : ReviewEvent
  findings : Nat
  inlineComments : Nat
  posted : Bool
  outputs : List (String × String)
deriving DecidableEq, Repr

/-- The choices of a run. -/
structure ReviewOptions where
  /-- Post without asking? -/
  autoConfirm : Bool
  /-- Show the review and post nothing? -/
  shadow : Bool
deriving DecidableEq, Repr

/-- The first seven characters of a commit. -/
def shortSha (sha : String) : String := String.ofList (sha.toList.take 7)

/-- The pull request with the given number. -/
def findPull (hub : Hub) (repository : String) (number : Int) : Run Pull :=
  match hub.pull? number with
  | some pull => pure pull
  | none => throw (.setup (.pullMissing number repository))

/-- The texts for a review, fetched from the hub. -/
def gatherPull (hub : Hub) (pull : Pull) (budget : Int) (files : List ChangedFile) :
    Run Gathered := do
  let g := gather hub.fetch budget files
  Run.request (g.asked.map fun path => .download path pull.headSha)
  Run.say <|
    s!"[dim]Context: {g.changed.length} changed + {g.imported.length} imported file(s) " ++
      s!"(~{g.spent budget} tokens)[/dim]"
  return g

/-- The findings of the pass over soft rules, if a model is configured. -/
def softFindings (config : Document) (p : Policy) (files : List ChangedFile) (g : Gathered) :
    Run SoftRule.SoftResult := do
  match ← Run.lift (chooseProvider config p.settings.model) with
  | none => return .empty
  | some (provider, connected) =>
      Run.note connected
      if p.softRules.isEmpty then return .empty
      else Run.converse (SoftRule.checkSoftRules provider p.softRules files g.changed g.imported)

/-- The outcome for the files of a pull request. -/
def reviewOutcome (hub : Hub) (pull : Pull) (config : Document) (p : Policy)
    (files : List ChangedFile) : Run Outcome := do
  let g ← gatherPull hub pull p.settings.contextBudget files
  let soft ← softFindings config p files g
  Run.lift (reviewChanges p files (.ofList g.changed) soft.findings soft.usage)

/-- What a run with the outcome has done, before anything is posted. -/
def ReviewSummary.ofOutcome (repository : String) (number : Int) (sha : String) (o : Outcome) :
    ReviewSummary where
  repository
  number
  headSha := sha
  event := o.review.event
  findings := o.analysis.findings.length
  inlineComments := o.review.comments.length
  posted := false
  outputs := runOutputs o.analysis o.review.event

/-- Does the user agree to post? -/
def confirm (o : Outcome) : Run Bool := do
  let answer ← Run.ask <|
    s!"Post {o.analysis.findings.length} finding(s) " ++
      s!"({o.review.comments.length} inline) as {o.review.event.name}? (y/n): "
  return Text.toLower (Text.strip answer) == "y"

/-- The review shown on the terminal. -/
def showReview (o : Outcome) : Run Unit := do
  (shadowLines o.analysis o.review.event o.files).forM Run.say

/-- The review shown, or posted if the user agrees; `none` if the user declines. -/
def deliver (options : ReviewOptions) (pull : Pull) (o : Outcome) (summary : ReviewSummary) :
    Run (Option ReviewSummary) := do
  if options.shadow then
    showReview o
    Run.say <|
      s!"[bold]Shadow review complete. {o.review.comments.length} inline comment(s) " ++
        s!"would be posted as {o.review.event.name}.[/bold]"
    return some summary
  else
    let agreed ← if options.autoConfirm then pure true else confirm o
    if agreed then
      Run.request (postingCalls pull.reviews o.review)
      Run.say <|
        s!"\n[green]Review posted: {o.review.event.name}. " ++
          s!"{o.review.comments.length} inline comment(s).[/green]"
      return some { summary with posted := true }
    else return none

/-- The review of a pull request; `none` if the run stops early. -/
def reviewPull (hub : Hub) (repository : String) (number : Int) (config : Document) (p : Policy)
    (options : ReviewOptions) : Run (Option ReviewSummary) := do
  let pull ← findPull hub repository number
  let reviewsDrafts ← Run.lift (config.fieldOr "review_draft_prs" (.bool false))
  if pull.isDraft && !reviewsDrafts.truthy then
    Run.say <|
      "[yellow]Skipping draft PR. Set review_draft_prs: true in .patchwarden.yml to review " ++
        "drafts.[/yellow]"
    return none
  let files ← Run.lift (parseFiles (p.ignore.map .text) pull.files)
  if files.isEmpty then
    Run.say "[yellow]No reviewable files changed. Nothing to do.[/yellow]"
    return none
  Run.say s!"Reviewing PR #{number} at {shortSha pull.headSha}: {files.length} file(s)"
  let outcome ← reviewOutcome hub pull config p files
  deliver options pull outcome
    (ReviewSummary.ofOutcome repository number pull.headSha outcome)

end ReviewGate
