import IssueFlow.Order.Distinct
import IssueFlow.Tracker.Issue

/-!
# Diagnostics

No computation over a batch fails as a whole. What could not be computed for one issue or one
project is a `Diagnostic` with a code of the catalogue `ErrorCode`, and the rest goes on.
-/

namespace IssueFlow.Batch

open IssueFlow.Tracker

/-- Why something was left out of a result. -/
inductive ErrorCode where
  | configParseError
  | invalidClassification
  | missingClassification
  | malformedTimestamp
  | missingHistory
  | batchLimitReached
  | cancelled
  deriving DecidableEq, Repr

namespace ErrorCode

/-- The catalogue in order. -/
def all : List ErrorCode :=
  [configParseError, invalidClassification, missingClassification, malformedTimestamp,
    missingHistory, batchLimitReached, cancelled]

/-- The name in serialised form. -/
def name : ErrorCode → String
  | configParseError => "config_parse_error"
  | invalidClassification => "invalid_classification"
  | missingClassification => "missing_classification"
  | malformedTimestamp => "malformed_timestamp"
  | missingHistory => "missing_history"
  | batchLimitReached => "batch_limit_reached"
  | cancelled => "cancelled"

/-- The stable identifier for machines. -/
def code : ErrorCode → String
  | configParseError => "E1001"
  | invalidClassification => "E1002"
  | missingClassification => "E1003"
  | malformedTimestamp => "E2001"
  | missingHistory => "E2002"
  | batchLimitReached => "E5001"
  | cancelled => "E5002"

/-- The summary for people. -/
def message : ErrorCode → String
  | configParseError => "Classification config parse error"
  | invalidClassification => "Invalid field classification"
  | missingClassification => "No classification for project"
  | malformedTimestamp => "Malformed timestamp"
  | missingHistory => "Issue history not found"
  | batchLimitReached => "Batch unit limit reached"
  | cancelled => "Computation cancelled"

/-- What to do about it, if anything. -/
def hint : ErrorCode → Option String
  | configParseError => some "Fix the TOML syntax of the classification file."
  | invalidClassification => some "The open default must not also be listed as a closed value."
  | missingClassification =>
    some "Add a [projects.<key>] table; until then no rules apply to this project."
  | malformedTimestamp =>
    some "Use RFC 3339 or YYYY-MM-DD[ HH:MM:SS] timestamps in the event log."
  | missingHistory => none
  | batchLimitReached => some "Raise max_units or narrow the requested scope."
  | cancelled => none

/-- The place in the catalogue. -/
def position (c : ErrorCode) : Nat := all.idxOf c

/-- The code with the given name. -/
def ofName? (name : String) : Option ErrorCode := all.find? fun c => c.name = name

theorem ofName?_name (c : ErrorCode) : ofName? c.name = some c := by
  cases c <;> decide

end ErrorCode

/-- What a diagnostic applies to. -/
inductive Scope where
  | issue (r : IssueRef)
  | project (key : String)
  deriving DecidableEq, Repr

def Scope.display : Scope → String
  | .issue r => r.display
  | .project key => key

/-- One thing that was left out, and why. -/
structure Diagnostic where
  scope : Scope
  code : ErrorCode
  detail : String
  deriving DecidableEq, Repr

namespace Diagnostic

/-- The issue that the diagnostic names, if any. -/
def issue? (d : Diagnostic) : Option IssueRef :=
  match d.scope with
  | .issue r => some r
  | .project _ => none

def text (d : Diagnostic) : String :=
  d.code.code ++ " " ++ d.code.message ++ " [" ++ d.scope.display ++ "]: " ++ d.detail

/-- A timestamp of the issue does not parse. -/
def malformed (e : ResolveError) : Diagnostic :=
  ⟨.issue e.issue, .malformedTimestamp, e.message⟩

/-- The diagnostics without repeats, in the order of their first occurrences. -/
def distinct (ds : List Diagnostic) : List Diagnostic := Order.distinctOn id ds

end Diagnostic

end IssueFlow.Batch
