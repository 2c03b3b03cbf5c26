import ReviewGate.Check.Run
import ReviewGate.Command.Execute
import ReviewGate.Diff.GitDiff
import ReviewGate.Glob.Basic
import ReviewGate.Hub.Pull
import ReviewGate.Json.Writer
import ReviewGate.Main
import ReviewGate.Mining.Conventions
import ReviewGate.Policy.Merge
import ReviewGate.Policy.Scope
import ReviewGate.Proofs.Check.Anchor
import ReviewGate.Proofs.Check.BuiltIn
import ReviewGate.Proofs.Check.Cap
import ReviewGate.Proofs.Check.HardRule
import ReviewGate.Proofs.Check.Order
import ReviewGate.Proofs.Check.Run
import ReviewGate.Proofs.Check.Success
import ReviewGate.Proofs.Command.Interleaving
import ReviewGate.Proofs.Command.Mine
import ReviewGate.Proofs.Command.Policy
import ReviewGate.Proofs.Command.Task
import ReviewGate.Proofs.Context.Budget
import ReviewGate.Proofs.Context.Gather
import ReviewGate.Proofs.Context.Resolve
import ReviewGate.Proofs.Diff.Displacement
import ReviewGate.Proofs.Diff.FileName
import ReviewGate.Proofs.Diff.GitRendering
import ReviewGate.Proofs.Diff.GitRoundTrip
import ReviewGate.Proofs.Diff.Header
import ReviewGate.Proofs.Diff.Ignored
import ReviewGate.Proofs.Diff.LocalDiff
import ReviewGate.Proofs.Diff.Numbering
import ReviewGate.Proofs.Diff.Record
import ReviewGate.Proofs.Diff.Rendering
import ReviewGate.Proofs.Diff.RoundTrip
import ReviewGate.Proofs.Diff.Walk
import ReviewGate.Proofs.Document.Entries
import ReviewGate.Proofs.Document.Order
import ReviewGate.Proofs.Document.Plain
import ReviewGate.Proofs.Document.Spelling
import ReviewGate.Proofs.Finding.Dedupe
import ReviewGate.Proofs.Finding.Rank
import ReviewGate.Proofs.Finding.Synthesis
import ReviewGate.Proofs.Glob.Alignment
import ReviewGate.Proofs.Hub.Verdict
import ReviewGate.Proofs.Json.Locality
import ReviewGate.Proofs.Json.Number
import ReviewGate.Proofs.Json.RoundTrip
import ReviewGate.Proofs.Json.Text
import ReviewGate.Proofs.Json.Writable
import ReviewGate.Proofs.Json.Written
import ReviewGate.Proofs.Mining.Conventions
import ReviewGate.Proofs.Mining.Effect
import ReviewGate.Proofs.Mining.Ids
import ReviewGate.Proofs.Model.Answer
import ReviewGate.Proofs.Number.Decimal
import ReviewGate.Proofs.Number.Digits
import ReviewGate.Proofs.Number.Rounding
import ReviewGate.Proofs.Path
import ReviewGate.Proofs.Policy.Config
import ReviewGate.Proofs.Policy.Layers
import ReviewGate.Proofs.Policy.Learned
import ReviewGate.Proofs.Policy.Merge
import ReviewGate.Proofs.Policy.NormalForm
import ReviewGate.Proofs.Policy.Rule
import ReviewGate.Proofs.Policy.Saved
import ReviewGate.Proofs.Policy.Snapshot
import ReviewGate.Proofs.Policy.Stored
import ReviewGate.Proofs.Regex.FindAll
import ReviewGate.Proofs.Regex.Language
import ReviewGate.Proofs.Regex.Places
import ReviewGate.Proofs.Review.Allowlist
import ReviewGate.Proofs.Review.ArrivalOrder
import ReviewGate.Proofs.Review.Comment
import ReviewGate.Proofs.Review.Event
import ReviewGate.Proofs.Review.Extra
import ReviewGate.Proofs.Review.Fewer
import ReviewGate.Proofs.Review.Gate
import ReviewGate.Proofs.Review.Independence
import ReviewGate.Proofs.Review.Layering
import ReviewGate.Proofs.Review.Listed
import ReviewGate.Proofs.Review.OncePerFile
import ReviewGate.Proofs.Review.Placement
import ReviewGate.Proofs.Review.PrivateKey
import ReviewGate.Proofs.Review.Total
import ReviewGate.Proofs.Routing.Kind
import ReviewGate.Proofs.Sequence
import ReviewGate.Proofs.Session.Review
import ReviewGate.Proofs.Session.Subject
import ReviewGate.Proofs.SoftRule.Agenda
import ReviewGate.Proofs.SoftRule.Answer
import ReviewGate.Proofs.SoftRule.Check
import ReviewGate.Proofs.Store.Cells
import ReviewGate.Proofs.Store.Keeping
import ReviewGate.Proofs.Store.Sharing
import ReviewGate.Proofs.Text.Ascii
import ReviewGate.Proofs.Text.Lines
import ReviewGate.Proofs.Workspace.SideBySide
import ReviewGate.Proofs.Workspace.Tree
import ReviewGate.Regex.Match
import ReviewGate.Review.Pipeline
import ReviewGate.Routing.Specialist
import ReviewGate.Session.Mine
import ReviewGate.Session.Review
import ReviewGate.SoftRule.Check
import ReviewGate.Store.Basic
import ReviewGate.Workspace.Configuration
import ReviewGate.Yaml.Value
import ReviewGate.Yaml.Writer
