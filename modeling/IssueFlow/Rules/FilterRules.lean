import IssueFlow.Rules.Classification

/-!
# Filter rules

The defect rules of all projects, one table for each kind of rule. A project without an entry has
no rule of that kind.
-/

namespace IssueFlow.Rules

open IssueFlow.Text

structure FilterRules where
  priorityExclusions : Std.ExtTreeMap String TextSet := ∅
  rootCauseInclusions : Std.ExtTreeMap String TextSet := ∅
  rejectionRules : Std.ExtTreeMap String RejectionRule := ∅
  priorityTolerance : Std.ExtTreeMap String (Std.ExtTreeMap String UInt32) := ∅
  deriving DecidableEq

namespace FilterRules

/-- The rules of every classified project; empty ones are left out. -/
def ofClassifications (s : ClassificationSet) : FilterRules where
  priorityExclusions := s.projects.filterMap fun _ c =>
    if c.defects.excludedPriorities.isEmpty then none else some c.defects.excludedPriorities
  rootCauseInclusions := s.projects.filterMap fun _ c =>
    if c.defects.includedRootCauses.isEmpty then none else some c.defects.includedRootCauses
  rejectionRules := s.projects.filterMap fun _ c => c.defects.rejection
  priorityTolerance := s.projects.filterMap fun _ c =>
    if c.defects.priorityTolerance.isEmpty then none else some c.defects.priorityTolerance

/-- What a project tolerates of a priority, by the first of its entries for that priority. -/
def tolerance? (r : FilterRules) (project priority : String) : Option Nat :=
  r.priorityTolerance[project]?.bind fun byPriority =>
    (byPriority.toList.find? fun entry => sameValue entry.1 priority).map fun entry => entry.2.toNat

end FilterRules

end IssueFlow.Rules
