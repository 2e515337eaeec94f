import IssueFlow.Proofs.Batch.Limit
import IssueFlow.Proofs.Batch.Malformed
import IssueFlow.Proofs.Calendar.Written
import IssueFlow.Proofs.Delivery.Accounting
import IssueFlow.Proofs.Flow.Aging
import IssueFlow.Proofs.Flow.Failures
import IssueFlow.Proofs.Flow.FieldReplay
import IssueFlow.Proofs.Flow.Growth
import IssueFlow.Proofs.Flow.Keys
import IssueFlow.Proofs.Flow.OpenIssues
import IssueFlow.Proofs.Flow.Parts
import IssueFlow.Proofs.Flow.Range
import IssueFlow.Proofs.Flow.StatusReplay
import IssueFlow.Proofs.Quality.Isolation
import IssueFlow.Proofs.Quality.Window
import IssueFlow.Proofs.Rules.Reading
import IssueFlow.Proofs.Serial.RoundTrip
import IssueFlow.Report
import IssueFlow.Rules.File
import IssueFlow.Serial.Result
import IssueFlow.Proofs.Quality.Position
import IssueFlow.Proofs.Delivery.Cycle
import IssueFlow.Proofs.Delivery.Repeat
import IssueFlow.Proofs.Quality.Kept
import IssueFlow.Proofs.Delivery.Overlap
import IssueFlow.Proofs.Delivery.Reordering
import IssueFlow.Proofs.Calendar.ClockSpelling
import IssueFlow.Proofs.Calendar.Layout
import IssueFlow.Proofs.Calendar.Timestamp
import IssueFlow.Proofs.Tracker.Outcome
import IssueFlow.Proofs.Calendar.Difference
import IssueFlow.Proofs.Calendar.Hours
import IssueFlow.Proofs.Quality.Dwell
import IssueFlow.Proofs.Calendar.WorkingDays
import IssueFlow.Proofs.Quality.Summary
import IssueFlow.Proofs.Quality.WorkingDays
import IssueFlow.Proofs.Flow.MissingLog
import IssueFlow.Proofs.Quality.EmptyRules
import IssueFlow.Proofs.Quality.FirstTimePass
import IssueFlow.Proofs.Flow.Union
import IssueFlow.Proofs.Text.Lowercase
import IssueFlow.Proofs.Quality.RootCause
import IssueFlow.Proofs.Report
