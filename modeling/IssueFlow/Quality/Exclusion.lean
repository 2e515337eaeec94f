import IssueFlow.Order.Distinct
import IssueFlow.Quality.RootCause
import IssueFlow.Rules.FilterRules
import IssueFlow.Tracker.Defect

/-!
# Exclusion of defects

Which defects count. Two rules look at a defect alone: the rejection rule, and the rule on priority
and root causes. The third drops a defect if every story that it is linked to has no more defects of
its priority than its project tolerates; only defects of that project that pass the first two rules
are counted.
-/

namespace IssueFlow.Quality

open IssueFlow.Text IssueFlow.Tracker IssueFlow.Rules

/-- Whether the defect is not rejected by the rule of its project. -/
def passesRejection (r : FilterRules) (d : Defect) : Bool :=
  match r.rejectionRules[d.issue.project]? with
  | none => true
  | some rule =>
    !(sameValue d.status rule.status && d.resolution.any rule.excludedResolutions.holds)

/-- Whether the priority of the defect is not excluded in its project. -/
def passesPriority (r : FilterRules) (d : Defect) : Bool :=
  match r.priorityExclusions[d.issue.project]? with
  | none => true
  | some excluded => !d.priority.any excluded.holds

/-- Whether the defect has a root cause that its project includes, if the project names any. -/
def passesRootCause (r : FilterRules) (d : Defect) : Bool :=
  match r.rootCauseInclusions[d.issue.project]? with
  | none => true
  | some included =>
    included.isEmpty ||
      let wanted := included.toList.map canonicalRootCause
      d.rootCauses.any fun cause => wanted.contains (canonicalRootCause cause)

def passesPriorityRootCause (r : FilterRules) (d : Defect) : Bool :=
  passesPriority r d && passesRootCause r d

/-- Whether the defect passes the rules that look at it alone. -/
def isCandidate (r : FilterRules) (d : Defect) : Bool :=
  passesRejection r d && passesPriorityRootCause r d

/-- The priority under which a defect is counted. -/
def priorityKey (priority : String) : String := lowerKey priority

/-- How many defects each story of a project has of each priority. No counter exceeds the number of
defects, so counters of 32 bits do the same for fewer than `2 ^ 32` defects. -/
abbrev StoryCounts :=
  Std.ExtTreeMap String (Std.ExtTreeMap String (Std.ExtTreeMap String Nat))

/-- The number of defects of a project linked to a story, of the given priority. -/
def StoryCounts.count (counts : StoryCounts) (project story key : String) : Nat :=
  match counts[project]? with
  | none => 0
  | some stories =>
    match stories[story]? with
    | none => 0
    | some priorities => priorities.getD key 0

/-- Counts one more defect of a project, linked to a story, of the given priority. -/
def StoryCounts.add (counts : StoryCounts) (project story key : String) : StoryCounts :=
  counts.alter project fun stories =>
    some ((stories.getD ∅).alter story fun priorities =>
      some ((priorities.getD ∅).alter key fun n => some (n.getD 0 + 1)))

/-- Counts a defect once for every story that it is linked to. -/
def StoryCounts.addDefect (counts : StoryCounts) (d : Defect) : StoryCounts :=
  match d.priority with
  | none => counts
  | some priority =>
    (Order.distinctOn id d.linkedStories).foldl
      (fun counts story => counts.add d.issue.project story (priorityKey priority)) counts

def storyCounts (ds : List Defect) : StoryCounts :=
  ds.foldl StoryCounts.addDefect ∅

/-- Whether every story of the defect has no more defects of its priority than tolerated. -/
def isTolerated (r : FilterRules) (counts : StoryCounts) (d : Defect) : Bool :=
  match d.priority with
  | none => false
  | some priority =>
    match r.tolerance? d.issue.project priority with
    | none => false
    | some tolerance =>
      !d.linkedStories.isEmpty &&
        d.linkedStories.all fun story =>
          counts.count d.issue.project story (priorityKey priority) ≤ tolerance

/-- The defects that count, in order. -/
def exclude (r : FilterRules) (ds : List Defect) : List Defect :=
  let candidates := ds.filter (isCandidate r)
  let counts := storyCounts candidates
  candidates.filter fun d => !isTolerated r counts d

end IssueFlow.Quality
