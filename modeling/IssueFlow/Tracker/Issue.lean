import IssueFlow.Calendar.Timestamp
import IssueFlow.Order.Sorted

/-!
# Issues and their histories

An `IssueHistory` is an issue as a tracker exports it: identity, creation and status log with raw
timestamps, and static attributes. Resolving it parses every timestamp and sorts the log; events at
one instant keep the order of the log. The first timestamp that does not parse, the creation before
the log, fails the whole issue.
-/

namespace IssueFlow.Tracker

open IssueFlow.Calendar

/-- The identity of an issue: its number in the tracker and the project that owns it. -/
structure IssueRef where
  number : String
  project : String
  deriving DecidableEq, Repr

namespace IssueRef

/-- The key of an issue across projects. -/
def display (r : IssueRef) : String := r.project ++ "/" ++ r.number

/-- Issues sort by number, then by project. -/
def order : IssueRef → IssueRef → Ordering :=
  compareLex (compareOn IssueRef.number) (compareOn IssueRef.project)

instance : Ord IssueRef := ⟨order⟩

instance : Std.TransOrd IssueRef :=
  inferInstanceAs (Std.TransCmp (compareLex (compareOn IssueRef.number)
    (compareOn IssueRef.project)))

instance : Std.LawfulEqOrd IssueRef where
  eq_of_compare {a b} h := by
    have h : compareLex (compareOn IssueRef.number) (compareOn IssueRef.project) a b = .eq := h
    rw [compareLex_eq_eq] at h
    have hn : a.number = b.number := Std.LawfulEqOrd.eq_of_compare h.1
    have hp : a.project = b.project := Std.LawfulEqOrd.eq_of_compare h.2
    cases a; cases b
    simp_all

end IssueRef

/-- One entry of a status log: the status left, the status entered, and when. -/
structure StatusChange where
  old : String := ""
  new : String := ""
  timestamp : String
  deriving DecidableEq, Repr

/-- An issue as exported: the log is in no particular order. -/
structure IssueHistory where
  issue : IssueRef
  log : List StatusChange := []
  created : String
  priority : Option String := none
  rootCauses : List String := []
  deriving DecidableEq, Repr

/-- A status change at a known instant. -/
structure Event where
  old : String
  new : String
  time : Instant
  deriving DecidableEq

/-- An issue whose timestamps are known; the events ascend in time. -/
structure ResolvedHistory where
  issue : IssueRef
  events : List Event
  created : Instant
  priority : Option String
  rootCauses : List String
  deriving DecidableEq

/-- A timestamp of an issue: its creation, or that of the log entry at a position. -/
inductive TimestampField where
  | created
  | log (index : Nat)
  deriving DecidableEq, Repr

def TimestampField.name : TimestampField → String
  | .created => "created"
  | .log index => "log[" ++ toString index ++ "]"

/-- Why an issue does not resolve: the first timestamp that does not parse, and why. -/
structure ResolveError where
  issue : IssueRef
  field : TimestampField
  cause : TimestampError
  deriving DecidableEq, Repr

def ResolveError.message (e : ResolveError) : String :=
  e.issue.display ++ ": " ++ e.field.name ++ ": " ++ e.cause.message

namespace IssueHistory

/-- The events of a log that starts at the given position, in the order of the log. -/
def eventsFrom : (index : Nat) → List StatusChange → Except (TimestampField × TimestampError)
    (List Event)
  | _, [] => .ok []
  | index, entry :: log =>
    match Instant.ofRaw entry.timestamp with
    | .error cause => .error (.log index, cause)
    | .ok time => (eventsFrom (index + 1) log).map (⟨entry.old, entry.new, time⟩ :: ·)

/-- The order of events in time. -/
def notLater (a b : Event) : Bool := a.time ≤ b.time

/-- The issue with parsed timestamps and a sorted log. -/
def resolve (h : IssueHistory) : Except ResolveError ResolvedHistory :=
  match Instant.ofRaw h.created with
  | .error cause => .error ⟨h.issue, .created, cause⟩
  | .ok created =>
    match eventsFrom 0 h.log with
    | .error (field, cause) => .error ⟨h.issue, field, cause⟩
    | .ok events =>
      .ok ⟨h.issue, Order.sortBy notLater events, created, h.priority, h.rootCauses⟩

end IssueHistory

end IssueFlow.Tracker
