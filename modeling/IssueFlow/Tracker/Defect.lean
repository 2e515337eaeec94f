import IssueFlow.Tracker.Issue

/-!
# Defects

A defect as the quality figures see it: its current state and the stories that it is linked to.
-/

namespace IssueFlow.Tracker

structure Defect where
  issue : IssueRef
  priority : Option String := none
  rootCauses : List String := []
  status : String := ""
  resolution : Option String := none
  linkedStories : List String := []
  deriving DecidableEq, Repr

end IssueFlow.Tracker
