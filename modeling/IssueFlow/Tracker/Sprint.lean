import IssueFlow.Calendar.Instant

/-!
# Sprint selections

A sprint of a project with the numbers of the issues that it counts as completed. The list may
repeat a number.
-/

namespace IssueFlow.Tracker

open IssueFlow.Calendar

structure SprintSelection where
  project : String
  sprint : String
  window : Window
  issues : List String := []
  deriving DecidableEq

end IssueFlow.Tracker
