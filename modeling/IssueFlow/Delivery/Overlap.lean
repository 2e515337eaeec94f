import IssueFlow.Order.Distinct
import IssueFlow.Rules.Classification
import IssueFlow.Tracker.Sprint

/-!
# Issues listed by overlapping sprints

An issue is a duplicate of its project if two selections of the project at different places list it
and their windows overlap. Repeats of an issue within one selection count once.
-/

namespace IssueFlow.Delivery

open IssueFlow.Calendar IssueFlow.Tracker IssueFlow.Rules

/-- The duplicates of each project that has some. -/
abbrev DuplicateSet := Std.ExtTreeMap String TextSet

/-- The windows in which each issue of each project is listed, in the order of the selections. -/
abbrev Listings := Std.ExtTreeMap String (Std.ExtTreeMap String (List Window))

/-- Whether two of the windows overlap. -/
def anyOverlap : List Window → Bool
  | [] => false
  | w :: ws => ws.any w.overlaps || anyOverlap ws

def Listings.add (listings : Listings) (project number : String) (w : Window) : Listings :=
  listings.alter project fun issues =>
    some ((issues.getD ∅).alter number fun windows => some (windows.getD [] ++ [w]))

def Listings.addSelection (listings : Listings) (s : SprintSelection) : Listings :=
  (Order.distinctOn id s.issues).foldl (fun ls number => ls.add s.project number s.window) listings

def listings (selections : List SprintSelection) : Listings :=
  selections.foldl Listings.addSelection ∅

/-- The issues that two overlapping selections of their project list. -/
def findDuplicates (selections : List SprintSelection) : DuplicateSet :=
  (listings selections).filterMap fun _ issues =>
    let repeated := issues.filter fun _ windows => anyOverlap windows
    if repeated.isEmpty then none else some (Std.ExtTreeSet.ofList repeated.keys)

end IssueFlow.Delivery
