import IssueFlow.Batch.FanOut
import IssueFlow.Calendar.Walk
import IssueFlow.Delivery.Cycle
import IssueFlow.Flow.Index
import IssueFlow.Flow.Timeline
import IssueFlow.Quality.Exclusion

/-!
# Replay

A replay walks the days of a range for every issue and builds the flow index, by status or by a
static field. Days with an excluded status are left out. On a day that resolves closed, because the
status is closed or a cycle was completed, a replay by status ends for the issue, and a replay by
field leaves the day out. Weekends are days like any other.
-/

namespace IssueFlow.Flow

open IssueFlow.Calendar IssueFlow.Tracker IssueFlow.Rules IssueFlow.Batch IssueFlow.Quality
  IssueFlow.Delivery

/-- A static attribute of an issue to group by. -/
inductive FieldSelector where
  | priority
  /-- The first root cause, in canonical form. -/
  | rootCause
  deriving DecidableEq, Repr

/-- The value that stands for a missing attribute. -/
def undefinedValue : String := "Undefined"

/-- The attribute of an issue, if it is present and not blank. -/
def FieldSelector.attribute? (selector : FieldSelector) (h : ResolvedHistory) : Option String :=
  match selector with
  | .priority => (h.priority.map Text.trim).filter fun value => !value.isEmpty
  | .rootCause => (h.rootCauses.map canonicalRootCause).find? fun value => !value.isEmpty

def FieldSelector.valueOf (selector : FieldSelector) (h : ResolvedHistory) : String :=
  (selector.attribute? h).getD undefinedValue

/-- What the index is grouped by. -/
inductive Grouping where
  | byStatus
  | byField (selector : FieldSelector)
  deriving DecidableEq, Repr

/-- Constraints on a replay. -/
structure ReplayRequest where
  rangeStart : Option Date := none
  today : Option Date := none
  options : Options := {}
  /-- Only issues whose defects count under the rules. -/
  defectScope : Option (List Defect × FilterRules) := none
  cycles : Option CompletionCycles := none

structure ReplayOutput where
  index : FlowIndex := {}
  diagnostics : List Diagnostic := []

/-! ## One issue -/

/-- The segments of an issue whose value is tracked. -/
def trackedSegments (c : Classification) (rangeStart today : Date) (h : ResolvedHistory) :
    List Segment :=
  (segments c rangeStart today h).filter fun s => !c.isExcluded s.value

/-- The days of segments with their values. -/
def daysOf (ss : List Segment) : List (Date × String) :=
  ss.flatMap fun s => (Date.upTo s.first s.last).map fun date => (date, s.value)

/-- The dates on which an issue is placed by status, with the value it is placed under: the days
before the first one that resolves closed. -/
def statusPlacements (c : Classification) (completed : Std.ExtTreeSet Date)
    (rangeStart today : Date) (h : ResolvedHistory) : List (Date × String) :=
  let open_ := (trackedSegments c rangeStart today h).takeWhile fun s => !c.isClosed s.value
  (daysOf open_).takeWhile fun day => !completed.contains day.1

/-- The dates on which an issue is placed by field: the days that do not resolve closed. -/
def fieldPlacements (c : Classification) (completed : Std.ExtTreeSet Date)
    (selector : FieldSelector) (rangeStart today : Date) (h : ResolvedHistory) :
    List (Date × String) :=
  let open_ := (trackedSegments c rangeStart today h).filter fun s => !c.isClosed s.value
  ((daysOf open_).filter fun day => !completed.contains day.1).map fun day =>
    (day.1, selector.valueOf h)

/-- The dates on which an issue is placed, with the value it is placed under. -/
def placements (c : Classification) (completed : Std.ExtTreeSet Date) (grouping : Grouping)
    (rangeStart today : Date) (h : ResolvedHistory) : List (Date × String) :=
  match grouping with
  | .byStatus => statusPlacements c completed rangeStart today h
  | .byField selector => fieldPlacements c completed selector rangeStart today h

/-- The index of one issue. -/
def indexOf (key : String) (days : List (Date × String)) : FlowIndex :=
  days.foldl (fun x day => x.insert day.2 day.1 key) {}

/-- The diagnostic for a project without a classification. -/
def unclassified (project : String) : Diagnostic :=
  ⟨.project project, .missingClassification, "no classification; replayed with defaults"⟩

/-- The index of one issue of the batch and what there is to report about it. -/
def replayIssue (s : ClassificationSet) (cycles : Option CompletionCycles) (grouping : Grouping)
    (rangeStart today : Date) (raw : IssueHistory) : ReplayOutput :=
  let found := s.get? raw.issue.project
  let missing := if found.isNone then [unclassified raw.issue.project] else []
  match raw.resolve with
  | .error e => ⟨{}, missing ++ [.malformed e]⟩
  | .ok h =>
    let completed := (cycles.map fun cs => cs.completionDays h.issue).getD ∅
    let days := placements (found.getD {}) completed grouping rangeStart today h
    ⟨indexOf h.issue.display days, missing⟩

/-! ## The batch -/

/-- Whether an issue is in the scope of defects that count. -/
def inScope (scope : Option (Std.ExtTreeSet IssueRef)) (h : IssueHistory) : Bool :=
  match scope with
  | none => true
  | some issues => issues.contains h.issue

/-- The issues to replay: those in scope, the first record of each. -/
def admitted (scope : Option (List Defect × FilterRules)) (issues : List IssueHistory) :
    List IssueHistory :=
  let allowed := scope.map fun (ds, r) =>
    Std.ExtTreeSet.ofList ((exclude r ds).map Defect.issue)
  Order.distinctOn IssueHistory.issue (issues.filter (inScope allowed))

/-- The output of one unit; a skipped one adds only a diagnostic. -/
def replayUnit (raw : IssueHistory) : Except ErrorCode ReplayOutput → ReplayOutput
  | .ok output => output
  | .error code => { diagnostics := [⟨.issue raw.issue, code, "issue not replayed"⟩] }

/-- The union of the indices, and the diagnostics without repeats. -/
def ReplayOutput.gather (outputs : List ReplayOutput) : ReplayOutput where
  index := outputs.foldl (fun x output => x.union output.index) {}
  diagnostics := Diagnostic.distinct (outputs.flatMap ReplayOutput.diagnostics)

/-- Replays a list of issues; without both ends of the range there is nothing to replay. -/
def replay (s : ClassificationSet) (request : ReplayRequest) (grouping : Grouping)
    (issues : List IssueHistory) : ReplayOutput :=
  match request.rangeStart, request.today with
  | some rangeStart, some today =>
    let units := admitted request.defectScope issues
    let results := fanOut request.options
      (replayIssue s request.cycles grouping rangeStart today) units
    .gather (List.zipWith replayUnit units results)
  | _, _ => {}

end IssueFlow.Flow
