import IssueFlow.Batch.FanOut
import IssueFlow.Calendar.Walk
import IssueFlow.Rules.Classification

/-!
# Reopens

A reopen is an entry into the reopen status after the issue was closed. The scan of a log keeps, for
each closed status, the instant of the last entry into it; a reopen in the window is dated back to
the earliest of these, and counts if it comes later. Reopens without a recorded closure do not
count, and a reopen clears nothing.

`ReopenSummary` sums up the dwell times between closures and reopens. The sum starts from the
negative zero and runs over the dwell times in ascending order, so the result does not hang on the
order of the transitions.
-/

namespace IssueFlow.Quality

open IssueFlow.Text IssueFlow.Calendar IssueFlow.Tracker IssueFlow.Rules IssueFlow.Batch

/-- A closure and the reopen that ended it. -/
structure ReopenTransition where
  issue : IssueRef
  closedAt : Instant
  reopenedAt : Instant
  dwellHours : Float

/-- What a scan for reopens looks for. -/
structure ReopenQuery where
  window : Window
  closed : TextSet
  reopen : String

/-- The closed value that a status is, the first in order if there are several. -/
def ReopenQuery.closedValue? (q : ReopenQuery) (status : String) : Option String :=
  q.closed.toList.find? fun value => sameValue value status

/-- Whether an event is a reopen in the window. -/
def ReopenQuery.isReopen (q : ReopenQuery) (e : Event) : Bool :=
  sameValue e.new q.reopen && q.window.contains e.time

/-- The transition that a reopen makes, dated back to the earliest of the recorded closures. -/
def transition? (issue : IssueRef) (entered : Std.ExtTreeMap String Instant) (e : Event) :
    Option ReopenTransition :=
  entered.values.min?.bind fun closedAt =>
    if closedAt < e.time then some ⟨issue, closedAt, e.time, closedAt.hoursTo e.time⟩ else none

/-- The transitions of a log; `entered` holds the last entry so far into each closed status. -/
def scanReopens (issue : IssueRef) (q : ReopenQuery) (entered : Std.ExtTreeMap String Instant) :
    List Event → List ReopenTransition
  | [] => []
  | e :: events =>
    if q.window.stop < e.time then []
    else
      match q.closedValue? e.new with
      | some value => scanReopens issue q (entered.insert value e.time) events
      | none =>
        let found := if q.isReopen e then (transition? issue entered e).toList else []
        found ++ scanReopens issue q entered events

/-- The reopens of an issue in a window. -/
def detectReopens (q : ReopenQuery) (h : ResolvedHistory) : List ReopenTransition :=
  scanReopens h.issue q ∅ h.events

structure ReopenOutput where
  transitions : List ReopenTransition := []
  diagnostics : List Diagnostic := []

/-- The reopens of one issue by the values of its project, or why there is no answer. -/
def detectIssue (s : ClassificationSet) (window : Window) (raw : IssueHistory) :
    Except Diagnostic (List ReopenTransition) :=
  match s.get? raw.issue.project with
  | none =>
    .error ⟨.issue raw.issue, .missingClassification,
      "project '" ++ raw.issue.project ++ "' has no classification; no reopens detected"⟩
  | some c =>
    match c.reopen with
    | none => .ok []
    | some reopen =>
      match raw.resolve with
      | .error e => .error (.malformed e)
      | .ok h => .ok (detectReopens ⟨window, c.closed, reopen⟩ h)

/-- What one unit of the batch adds to the output. -/
def reopenUnit (raw : IssueHistory) :
    Except ErrorCode (Except Diagnostic (List ReopenTransition)) → ReopenOutput
  | .ok (.ok transitions) => { transitions }
  | .ok (.error d) => { diagnostics := [d] }
  | .error code => { diagnostics := [⟨.issue raw.issue, code, "issue not processed"⟩] }

/-- The reopens of many issues, one unit each. -/
def detectAll (s : ClassificationSet) (window : Window) (o : Options)
    (histories : List IssueHistory) : ReopenOutput :=
  let outputs := List.zipWith reopenUnit histories (fanOut o (detectIssue s window) histories)
  ⟨outputs.flatMap ReopenOutput.transitions, outputs.flatMap ReopenOutput.diagnostics⟩

/-! ## Summary -/

/-- The place of a float in the total order of IEEE 754. -/
def totalOrderKey (x : Float) : Int :=
  let n : Int := x.toBits.toNat
  if n < 0x8000000000000000 then n else 0x7FFFFFFFFFFFFFFF - n

/-- The middle of an ascending list, the mean of two if its length is even. -/
def median (sorted : List Float) : Option Float :=
  let n := sorted.length
  if n % 2 = 1 then sorted[n / 2]?
  else
    match sorted[n / 2 - 1]?, sorted[n / 2]? with
    | some a, some b => some ((a + b) / 2)
    | _, _ => none

structure ReopenSummary where
  transitions : Nat
  reopenedIssues : Nat
  totalDwellHours : Float
  meanDwellHours : Option Float
  medianDwellHours : Option Float
  maxDwellHours : Option Float
  meanDwellWorkingDays : Option Float

/-- The Monday-to-Friday days from the closure to the reopen. -/
def ReopenTransition.workingDays (t : ReopenTransition) : UInt32 :=
  UInt32.ofNat (Calendar.workingDays t.closedAt.date t.reopenedAt.date)

/-- The number of different issues among the transitions. -/
def distinctIssues (ts : List ReopenTransition) : Nat :=
  (Std.ExtTreeSet.ofList (ts.map ReopenTransition.issue)).size

/-- The summary of a list of transitions; working days are added up in 32 bits. -/
def ReopenSummary.ofTransitions (ts : List ReopenTransition) : ReopenSummary :=
  let dwell := Order.sortBy (fun x y => totalOrderKey x ≤ totalOrderKey y)
    (ts.map ReopenTransition.dwellHours)
  let total := dwell.foldl (· + ·) (-0.0)
  let mean (sum : Float) : Option Float :=
    if ts.isEmpty then none else some (sum / Float.ofNat ts.length)
  let workingDays := (ts.map ReopenTransition.workingDays).foldl (· + ·) 0
  { transitions := ts.length
    reopenedIssues := distinctIssues ts
    totalDwellHours := total
    meanDwellHours := mean total
    medianDwellHours := median dwell
    maxDwellHours := dwell.getLast?
    meanDwellWorkingDays := mean (Float.ofNat workingDays.toNat) }

end IssueFlow.Quality
