import IssueFlow.Batch.FanOut
import IssueFlow.Delivery.Overlap
import IssueFlow.Text.Lowercase

/-!
# Completion cycles

A cycle of an issue is a run of completion events in which no status comes twice: a status entered
again starts the next cycle. Each cycle is dated by the earliest event in it. `resolveCycles` dates
the cycles of every duplicate.
-/

namespace IssueFlow.Delivery

open IssueFlow.Text IssueFlow.Calendar IssueFlow.Tracker IssueFlow.Rules IssueFlow.Batch

/-- The dates of the completed cycles of issues, by project and number. -/
structure CompletionCycles where
  byProject : Std.ExtTreeMap String (Std.ExtTreeMap String (List Instant)) := ∅
  deriving DecidableEq

namespace CompletionCycles

def insert (cycles : CompletionCycles) (issue : IssueRef) (minimums : List Instant) :
    CompletionCycles :=
  ⟨cycles.byProject.alter issue.project fun issues =>
    some ((issues.getD ∅).insert issue.number minimums)⟩

/-- The cycles of the listed issues; of several entries for an issue the last one stays. -/
def ofList (entries : List (IssueRef × List Instant)) : CompletionCycles :=
  entries.foldl (fun cycles entry => cycles.insert entry.1 entry.2) {}

def get? (cycles : CompletionCycles) (project number : String) : Option (List Instant) :=
  cycles.byProject[project]?.bind fun issues => issues[number]?

/-- The dates on which a cycle of the issue was completed. -/
def completionDays (cycles : CompletionCycles) (issue : IssueRef) : Std.ExtTreeSet Date :=
  Std.ExtTreeSet.ofList (((cycles.get? issue.project issue.number).getD []).map Instant.date)

theorem mem_completionDays_iff {cycles : CompletionCycles} {issue : IssueRef} {d : Date} :
    d ∈ cycles.completionDays issue ↔
      ∃ minimums ∈ cycles.get? issue.project issue.number, ∃ t ∈ minimums, t.date = d := by
  rw [completionDays, Std.ExtTreeSet.mem_ofList, List.contains_iff_mem, List.mem_map]
  cases cycles.get? issue.project issue.number <;> simp

/-- Whether no issue has an entry. -/
def isEmpty (cycles : CompletionCycles) : Bool :=
  cycles.byProject.toList.all fun entry => entry.2.isEmpty

end CompletionCycles

/-- The earliest instant of an open cycle, if it has one. -/
def cycleDate (open_ : Std.ExtTreeMap String Instant) : List Instant :=
  open_.values.min?.toList

/-- The dates of the cycles of completion events; `open_` holds the statuses of the open cycle. -/
def cutCycles (open_ : Std.ExtTreeMap String Instant) : List Event → List Instant
  | [] => cycleDate open_
  | e :: events =>
    let status := lowerKey e.new
    if open_.contains status then
      cycleDate open_ ++ cutCycles ((∅ : Std.ExtTreeMap String Instant).insert status e.time) events
    else cutCycles (open_.insert status e.time) events

/-- The dates of the completed cycles of an issue, in the order of its log. -/
def cycleMinimums (c : Classification) (h : ResolvedHistory) : List Instant :=
  cutCycles ∅ (h.events.filter fun e => c.isCompletion e.new)

/-! ## Cycles of duplicates -/

/-- Finds the history of an issue. -/
abbrev HistoryLookup := IssueRef → Option IssueHistory

/-- The first history with the identity. -/
def lookupFirst (histories : List IssueHistory) : HistoryLookup := fun issue =>
  histories.find? fun h => h.issue = issue

/-- The last history with the identity. -/
def lookupLast (histories : List IssueHistory) : HistoryLookup := fun issue =>
  histories.reverse.find? fun h => h.issue = issue

structure CycleOutput where
  cycles : CompletionCycles := {}
  diagnostics : List Diagnostic := []

/-- The cycles of one duplicate of a classified project, or why there are none. -/
def resolveDuplicate (lookup : HistoryLookup) (c : Classification) (issue : IssueRef) :
    Except Diagnostic (List Instant) :=
  match lookup issue with
  | none =>
    .error ⟨.issue issue, .missingHistory, "listed as duplicate but no history was supplied"⟩
  | some raw =>
    match raw.resolve with
    | .error e => .error ⟨.issue issue, .malformedTimestamp, e.message⟩
    | .ok h => .ok (cycleMinimums c h)

/-- What the unit of one project found: the cycles of some duplicates, and what to report about the
others. -/
structure ProjectOutcome where
  resolved : List (IssueRef × List Instant) := []
  diagnostics : List Diagnostic := []

/-- Puts the outcomes for the duplicates of a project together. -/
def ProjectOutcome.gather (outcomes : List (IssueRef × Except Diagnostic (List Instant))) :
    ProjectOutcome where
  resolved := outcomes.filterMap fun (issue, outcome) =>
    outcome.toOption.map fun minimums => (issue, minimums)
  diagnostics := outcomes.filterMap fun (_, outcome) =>
    match outcome with
    | .ok _ => none
    | .error d => some d

/-- The duplicates of one project. -/
def resolveProject (lookup : HistoryLookup) (s : ClassificationSet) (unit : String × TextSet) :
    ProjectOutcome :=
  match s.get? unit.1 with
  | none =>
    { diagnostics := [⟨.project unit.1, .missingClassification,
        "no completion statuses configured; duplicates not resolved"⟩] }
  | some c =>
    .gather ((unit.2.toList.map fun number => (⟨number, unit.1⟩ : IssueRef)).map fun issue =>
      (issue, resolveDuplicate lookup c issue))

/-- The outcome of one unit; a skipped one has only a diagnostic. -/
def projectUnit (unit : String × TextSet) : Except ErrorCode ProjectOutcome → ProjectOutcome
  | .ok outcome => outcome
  | .error code => { diagnostics := [⟨.project unit.1, code, "project not processed"⟩] }

/-- The cycles of every duplicate, one unit for each project in order. -/
def resolveCycles (lookup : HistoryLookup) (s : ClassificationSet) (o : Options)
    (duplicates : DuplicateSet) : CycleOutput :=
  let units := duplicates.toList
  let outcomes := List.zipWith projectUnit units (fanOut o (resolveProject lookup s) units)
  { cycles := .ofList (outcomes.flatMap ProjectOutcome.resolved)
    diagnostics := outcomes.flatMap ProjectOutcome.diagnostics }

end IssueFlow.Delivery
