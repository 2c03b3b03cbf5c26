import ReviewGate.Check.Run
import ReviewGate.Finding.Draft
import ReviewGate.Review.Basic

/-!
# `ReviewGate.Review.Pipeline` — from changed files to a review

## Contents
- `Outcome`: an analysis with its review.
- `reviewChanges`: the outcome for changed files.
- `reviewWithDrafts`: the same with findings handed in from outside.
- `reviewRecords`: the outcome for the records of a change.
-/

namespace ReviewGate

open Diff

/-- The analysis of a change and the review that tells of it. -/
structure Outcome where
  files : List ChangedFile
  analysis : Analysis
  review : Review

/-- The outcome of an analysis. -/
def Outcome.ofAnalysis (p : Policy) (files : List ChangedFile) (a : Analysis) :
    Except Fault Outcome := do
  return ⟨files, a, ← Review.ofAnalysis a files p.enforcement⟩

/-- The outcome for changed files. -/
def reviewChanges (p : Policy) (files : List ChangedFile) (contents : Contents)
    (extra : List Finding) (usage : TokenUsage) : Except Fault Outcome := do
  Outcome.ofAnalysis p files (← analyze p (route files) contents extra usage)

/-- The outcome for changed files and findings handed in from outside. -/
def reviewWithDrafts (p : Policy) (files : List ChangedFile) (contents : Contents)
    (drafts : List Draft) (usage : TokenUsage) : Except Fault Outcome := do
  let found ← allFindings p (route files) contents
  reviewChanges p files contents (← adopt found drafts) usage

/-- The outcome for the records of a change. -/
def reviewRecords (p : Policy) (records : List Document) (contents : Contents) :
    Except Fault Outcome := do
  let files ← parseFiles (p.ignore.map .text) records
  reviewChanges p files contents [] .none

end ReviewGate
