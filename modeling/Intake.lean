import Intake.Mime
import Intake.Text.Quoted
import Intake.Text.Digit
import Intake.Text.Utf8
import Intake.Text.Spacing
import Intake.Text.Fence
import Intake.Text.Prose
import Intake.Number.Decimal
import Intake.Number.Shortest
import Intake.Number.Written
import Intake.Number.Reading
import Intake.Json.Reader
import Intake.Calendar.Layout
import Intake.Hints.Reply
import Intake.ErrorRecord
import Intake.Settings
import Intake.Prompt
import Intake.Json.Writer
import Intake.Table.Pages
import Intake.Journal.Recorder
import Intake.Program.Run
import Intake.Layer.TextLayer
import Intake.Layer.Progress
import Intake.Store
import Intake.Batch
import Intake.Cancellation
import Intake.Loop.Timed
import Intake.Layer.ProgressStream
import Intake.CommandLine.Arguments
import Intake.Main
import Intake.CommandLine.Run
import Intake.CommandLine.Sitting
import Intake.Session.Overlay
import Intake.Session.Workshop
import Intake.Proofs.Hints.ModerateReply
import Intake.Proofs.Session.Heard
import Intake.Proofs.Session.InFlight
import Intake.Proofs.Session.Acceptance
import Intake.Proofs.Batch.Outcome
import Intake.Proofs.Hints.Readable
import Intake.Proofs.Layer.Agreement
import Intake.Proofs.Layer.Watched
import Intake.Proofs.Batch.Cancelled
import Intake.Proofs.Session.Saved
import Intake.Proofs.Session.Streaming
import Intake.Proofs.Session.Solitude
import Intake.Proofs.Batch.Replied
import Intake.Proofs.Session.Concord
import Intake.Proofs.Loop.Chains
import Intake.Proofs.Program.Found
import Intake.Proofs.Program.FirstCome
import Intake.Proofs.Journal.LogFiles
import Intake.Proofs.Batch.Coherence
import Intake.Proofs.Session.Changes
import Intake.Proofs.Session.Lifecycle
import Intake.Proofs.Session.Replies
import Intake.Proofs.Session.Closing
import Intake.Proofs.Hints.Settled
import Intake.Proofs.Layer.Spared
import Intake.Proofs.Session.Retried
import Intake.Proofs.Session.Rerun
import Intake.Proofs.Session.Reported
import Intake.Proofs.Session.Blocked
import Intake.Proofs.Hints.Amounts
import Intake.Proofs.Hints.Fieldwise
import Intake.Proofs.Text.Normal
import Intake.Proofs.Table.Outline
import Intake.Proofs.Table.Merging
import Intake.Proofs.Table.PageTexts
import Intake.Proofs.Hints.Fenced
import Intake.Proofs.Calendar.Written
import Intake.Proofs.Layer.Cancelled
import Intake.Proofs.Program.Epochs
import Intake.Proofs.Loop.Guards
import Intake.Proofs.Settings.Loaded
import Intake.Proofs.Session.Rivals
import Intake.Proofs.Layer.PageOrder
