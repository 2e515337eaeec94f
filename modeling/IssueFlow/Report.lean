import IssueFlow.Delivery.Velocity
import IssueFlow.Flow.Aging
import IssueFlow.Flow.Replay
import IssueFlow.Quality.Ratio
import IssueFlow.Quality.Reopen

/-!
# Reports

All figures of one reporting period, from the issues, defects and sprint selections of a tracker.
Every batch runs under the same limits; the diagnostics of all of them come in one list without
repeats.
-/

open IssueFlow.Calendar IssueFlow.Tracker IssueFlow.Rules IssueFlow.Batch IssueFlow.Quality
  IssueFlow.Delivery IssueFlow.Flow

namespace IssueFlow

/-- What a report is made from. -/
structure ReportInput where
  classifications : ClassificationSet
  issues : List IssueHistory := []
  defects : List Defect := []
  selections : List SprintSelection := []
  points : Estimates := ∅
  /-- Reopens in this window are reported. -/
  window : Window
  rangeStart : Date
  today : Date
  options : Options := {}

structure Report where
  /-- The defects that count. -/
  kept : List Defect
  duplicates : DuplicateSet
  cycles : CompletionCycles
  velocity : List SprintVelocity
  /-- The issues by status. -/
  status : FlowIndex
  /-- The issues of the defects that count, by root cause. -/
  rootCause : FlowIndex
  aging : Std.ExtTreeMap String AgeCounts
  transitions : List ReopenTransition
  summary : ReopenSummary
  reopenRate : Option Float
  firstTimePassRate : Option Float
  diagnostics : List Diagnostic

/-- The report on a period. -/
def Report.ofInput (i : ReportInput) : Report :=
  let rules := FilterRules.ofClassifications i.classifications
  let kept := exclude rules i.defects
  let duplicates := findDuplicates i.selections
  let resolved := resolveCycles (lookupFirst i.issues) i.classifications i.options duplicates
  let request : ReplayRequest :=
    { rangeStart := some i.rangeStart, today := some i.today, options := i.options }
  let status := replay i.classifications { request with cycles := some resolved.cycles } .byStatus
    i.issues
  let rootCause := replay i.classifications { request with defectScope := some (i.defects, rules) }
    (.byField .rootCause) i.issues
  let reopens := detectAll i.classifications i.window i.options i.issues
  { kept
    duplicates
    cycles := resolved.cycles
    velocity := Delivery.velocity i.selections i.points resolved.cycles
    status := status.index
    rootCause := rootCause.index
    aging := ageBuckets status.index i.issues i.today
    transitions := reopens.transitions
    summary := ReopenSummary.ofTransitions reopens.transitions
    reopenRate := Quality.reopenRate (distinctIssues reopens.transitions) kept.length
    firstTimePassRate :=
      Quality.firstTimePassRate (i.selections.flatMap SprintSelection.issues) kept
    diagnostics := Diagnostic.distinct (resolved.diagnostics ++ status.diagnostics ++
      rootCause.diagnostics ++ reopens.diagnostics) }

end IssueFlow
