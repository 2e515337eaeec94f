import IssueFlow.Tracker.Defect
import Std.Data.ExtTreeSet

/-!
# Quality ratios

Percentages of counts, and the density of defects. A ratio without a denominator is absent, so that
"no data" never reads as nought percent.
-/

namespace IssueFlow.Quality

open IssueFlow.Tracker

/-- A share in percent, absent if the whole is zero. -/
def percentage (part whole : Nat) : Option Float :=
  if whole = 0 then none else some (Float.ofNat part / Float.ofNat whole * 100)

/-- Reopened defects as a share of the closed ones. -/
def reopenRate (reopened closed : Nat) : Option Float := percentage reopened closed

/-- Defects raised per hundred completed stories. -/
def injectionRate (defects stories : Nat) : Option Float := percentage defects stories

/-- Defects that escaped to a later stage as a share of all. -/
def seepageRate (escaped total : Nat) : Option Float := percentage escaped total

/-- Defects per completed story point; the points must be finite and positive. -/
def density (defects : Nat) (points : Float) : Option Float :=
  if points.isFinite && points > 0 then some (Float.ofNat defects / points) else none

/-- The share of completed stories that no defect is linked to, each story counted once. -/
def firstTimePassRate (stories : List String) (ds : List Defect) : Option Float :=
  let completed := Std.ExtTreeSet.ofList stories
  let faulty := Std.ExtTreeSet.ofList
    ((ds.flatMap Defect.linkedStories).filter fun story => completed.contains story)
  percentage (completed.size - faulty.size) completed.size

end IssueFlow.Quality
