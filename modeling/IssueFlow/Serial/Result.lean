import IssueFlow.Delivery.Velocity
import IssueFlow.Flow.Aging
import IssueFlow.Flow.Replay
import IssueFlow.Quality.Reopen
import IssueFlow.Serial.Tracker

/-!
# Serialised results

Diagnostics, flow indices, completion cycles and the records of a report as data. Dates are the keys
of their maps; members of enumerations are written by name.
-/

namespace IssueFlow.Batch

open IssueFlow.Serial IssueFlow.Tracker

def ErrorCode.toData (c : ErrorCode) : Data := .text c.name

def ErrorCode.ofData? : Data → Option ErrorCode := Data.named? ErrorCode.ofName?

def Scope.toData : Scope → Data
  | .issue r => .record [("kind", .text "issue"), ("issue", r.toData)]
  | .project key => .record [("kind", .text "project"), ("project", .text key)]

/-- A scope of the given kind from its other fields. -/
def Scope.ofKind? (kind : String) (rest : Data) : Option Scope :=
  if kind = "issue" then do
    let fields ← rest.fields? .refused ["issue"]
    return .issue (← fields.required "issue" IssueRef.ofData?)
  else if kind = "project" then do
    let fields ← rest.fields? .refused ["project"]
    return .project (← fields.required "project" Data.text?)
  else none

def Scope.ofData? : Data → Option Scope
  | .record fields => do
    if Fields.hasOnce fields "kind" then
      Scope.ofKind? (← Fields.required fields "kind" Data.text?) (.record fields)
    else none
  | .list (.text kind :: rest) => Scope.ofKind? kind (.list rest)
  | _ => none

def Diagnostic.toData (d : Diagnostic) : Data :=
  .record [("scope", d.scope.toData), ("code", d.code.toData), ("detail", .text d.detail)]

def Diagnostic.ofData? (d : Data) : Option Diagnostic := do
  let fields ← d.fields? .refused ["scope", "code", "detail"]
  return {
    scope := ← fields.required "scope" Scope.ofData?
    code := ← fields.required "code" ErrorCode.ofData?
    detail := ← fields.required "detail" Data.text? }

end IssueFlow.Batch

namespace IssueFlow.Delivery

open IssueFlow.Calendar IssueFlow.Serial

def CompletionCycles.toData (c : CompletionCycles) : Data :=
  .ofMap (.ofMap (.ofList Instant.toData)) c.byProject

def CompletionCycles.ofData? (d : Data) : Option CompletionCycles :=
  (d.map? (Data.map? (Data.list? Instant.ofData?))).map CompletionCycles.mk

def SprintVelocity.toData (v : SprintVelocity) : Data :=
  .record [("project", .text v.project), ("sprint", .text v.sprint),
    ("committed_issues", .int v.committedIssues), ("counted_issues", .int v.countedIssues),
    ("points", .real v.points)]

end IssueFlow.Delivery

namespace IssueFlow.Flow

open IssueFlow.Calendar IssueFlow.Serial

def FlowIndex.toData (x : FlowIndex) : Data :=
  .ofMap (.ofMapBy Date.text .ofTexts) x.entries

def FlowIndex.ofData? (d : Data) : Option FlowIndex :=
  (d.map? (Data.mapBy? Date.ofText? Data.texts?)).map FlowIndex.mk

def AgeBucket.toData (b : AgeBucket) : Data := .text b.label

def AgeBucket.ofData? : Data → Option AgeBucket := Data.named? AgeBucket.ofLabel?

def AgeCounts.toData (counts : AgeCounts) : Data :=
  .ofMapBy AgeBucket.label (fun n : Nat => .int n) counts

def FieldSelector.toData : FieldSelector → Data
  | .priority => .text "priority"
  | .rootCause => .text "root_cause"

def FieldSelector.ofName? (name : String) : Option FieldSelector :=
  if name = "priority" then some .priority
  else if name = "root_cause" then some .rootCause
  else none

def FieldSelector.ofData? : Data → Option FieldSelector := Data.named? FieldSelector.ofName?

end IssueFlow.Flow

namespace IssueFlow.Quality

open IssueFlow.Serial

def ReopenTransition.toData (t : ReopenTransition) : Data :=
  .record [("issue", t.issue.toData), ("closed_at", t.closedAt.toData),
    ("reopened_at", t.reopenedAt.toData), ("dwell_hours", .real t.dwellHours)]

def ReopenSummary.toData (s : ReopenSummary) : Data :=
  .record [("transitions", .int s.transitions), ("reopened_issues", .int s.reopenedIssues),
    ("total_dwell_hours", .real s.totalDwellHours),
    ("mean_dwell_hours", .ofOption .real s.meanDwellHours),
    ("median_dwell_hours", .ofOption .real s.medianDwellHours),
    ("max_dwell_hours", .ofOption .real s.maxDwellHours),
    ("mean_dwell_working_days", .ofOption .real s.meanDwellWorkingDays)]

end IssueFlow.Quality
