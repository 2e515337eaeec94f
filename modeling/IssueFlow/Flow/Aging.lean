import IssueFlow.Flow.Index
import IssueFlow.Tracker.Issue

/-!
# Aging

The issues that a flow index holds on one date, counted by value and by age since creation. Issues
whose creation is not known are not counted.
-/

namespace IssueFlow.Flow

open IssueFlow.Calendar IssueFlow.Tracker

/-- Ranges of age in days, both ends included. -/
inductive AgeBucket where
  | upToWeek
  | upToTwoWeeks
  | upToMonth
  | upToTwoMonths
  | upToQuarter
  | overQuarter
  deriving DecidableEq, Repr

namespace AgeBucket

/-- The buckets from the youngest to the oldest. -/
def all : List AgeBucket :=
  [upToWeek, upToTwoWeeks, upToMonth, upToTwoMonths, upToQuarter, overQuarter]

def ofDays (days : Int) : AgeBucket :=
  if days ≤ 7 then upToWeek
  else if days ≤ 15 then upToTwoWeeks
  else if days ≤ 30 then upToMonth
  else if days ≤ 60 then upToTwoMonths
  else if days ≤ 90 then upToQuarter
  else overQuarter

def label : AgeBucket → String
  | upToWeek => "0-7"
  | upToTwoWeeks => "8-15"
  | upToMonth => "16-30"
  | upToTwoMonths => "31-60"
  | upToQuarter => "61-90"
  | overQuarter => "90+"

/-- The place among all buckets. -/
def position (b : AgeBucket) : Nat := all.idxOf b

/-- The bucket with the given label. -/
def ofLabel? (label : String) : Option AgeBucket := all.find? fun b => b.label = label

theorem ofLabel?_label (b : AgeBucket) : ofLabel? b.label = some b := by
  cases b <;> decide

instance : Ord AgeBucket := ⟨compareOn position⟩

instance : Std.TransOrd AgeBucket := inferInstanceAs (Std.TransCmp (compareOn position))

instance : Std.LawfulEqOrd AgeBucket where
  eq_of_compare {a b} h := by
    have h : a.position = b.position := Std.LawfulEqOrd.eq_of_compare (α := Nat) h
    cases a <;> cases b <;> first | rfl | exact absurd h (by decide)

end AgeBucket

/-- Counts by age; buckets without an issue have no entry. -/
abbrev AgeCounts := Std.ExtTreeMap AgeBucket Nat

/-- The creation dates of issues by key; of several records of an issue the last one counts. -/
def creationDates (histories : List IssueHistory) : Std.ExtTreeMap String Date :=
  histories.foldl
    (fun dates h =>
      match Instant.ofRaw h.created with
      | .ok t => dates.insert h.issue.display t.date
      | .error _ => dates)
    ∅

/-- Counts the issues of one value by age. -/
def countAges (created : Std.ExtTreeMap String Date) (asOf : Date) (keys : List String) :
    AgeCounts :=
  keys.foldl
    (fun counts key =>
      match created[key]? with
      | none => counts
      | some date =>
        counts.alter (AgeBucket.ofDays (asOf.number - date.number)) fun n => some (n.getD 0 + 1))
    ∅

/-- The ages of the issues that the index holds on a date, by value. -/
def ageBuckets (x : FlowIndex) (histories : List IssueHistory) (asOf : Date) :
    Std.ExtTreeMap String AgeCounts :=
  let created := creationDates histories
  Std.ExtTreeMap.ofList ((x.onDate asOf).map fun entry =>
    (entry.1, countAges created asOf entry.2.toList))

end IssueFlow.Flow
