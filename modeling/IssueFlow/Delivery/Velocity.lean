import IssueFlow.Delivery.Cycle

/-!
# Velocity

The issues and points that each sprint selection is credited with. A duplicate is credited once for
each of its completed cycles, to the owner of the date of that cycle: of the selections of its
project that list it and contain the date, the one that starts first, the first in the list among
equals. Duplicates without an entry among the cycles, and all other issues, count wherever they are
listed.
-/

namespace IssueFlow.Delivery

open IssueFlow.Calendar IssueFlow.Tracker IssueFlow.Rules

/-- Points of issues that have an estimate. -/
abbrev Estimates := Std.ExtTreeMap IssueRef Float

/-- A selection and its place in the list. -/
abbrev Placed := SprintSelection × Nat

/-- Of two placed selections the one that starts first, the left one among equals. -/
def earlier (a b : Placed) : Placed :=
  if b.1.window.start < a.1.window.start then b else a

/-- Of placed selections the one that starts first, the first in the list among equals. -/
def earliest? : List Placed → Option Placed
  | [] => none
  | p :: ps => some (ps.foldl earlier p)

/-- Whether the selection lists the issue and its window contains the instant. -/
def hasClaim (issue : IssueRef) (time : Instant) (p : Placed) : Bool :=
  p.1.project == issue.project && p.1.issues.contains issue.number && p.1.window.contains time

/-- The place of the selection that owns a completion of the issue at the given instant. -/
def owner? (placed : List Placed) (issue : IssueRef) (time : Instant) : Option Nat :=
  (earliest? (placed.filter (hasClaim issue time))).map Prod.snd

/-- The places of the owners of the cycles of an issue. -/
def owners (placed : List Placed) (cycles : CompletionCycles) (issue : IssueRef) : List Nat :=
  ((cycles.get? issue.project issue.number).getD []).filterMap (owner? placed issue)

/-- The owners of the cycles of every duplicate. -/
def credits (placed : List Placed) (cycles : CompletionCycles) (duplicates : DuplicateSet) :
    Std.ExtTreeMap String (Std.ExtTreeMap String (List Nat)) :=
  duplicates.map fun project numbers =>
    Std.ExtTreeMap.ofList (numbers.toList.map fun number =>
      (number, owners placed cycles ⟨number, project⟩))

/-- The velocity of one selection. -/
structure SprintVelocity where
  project : String
  sprint : String
  /-- Different issues that the selection lists. -/
  committedIssues : Nat
  /-- Issues credited to the selection. -/
  countedIssues : Nat
  /-- Points of the credited issues, added up from the negative zero. -/
  points : Float

/-- Whether a duplicate at a place counts: it has no entry among the cycles, or owns one of them. -/
def isCredited (cycles : CompletionCycles)
    (credits : Std.ExtTreeMap String (Std.ExtTreeMap String (List Nat))) (place : Nat)
    (issue : IssueRef) : Bool :=
  match credits[issue.project]?.bind fun numbers => numbers[issue.number]? with
  | none => true
  | some places =>
    (cycles.get? issue.project issue.number).isNone || places.contains place

/-- The issues that a selection lists, each once, by number. -/
def listedIssues (s : SprintSelection) : List IssueRef :=
  (Std.ExtTreeSet.ofList s.issues).toList.map fun number => ⟨number, s.project⟩

/-- The issues that count for each selection, by number. -/
def countedIssues (selections : List SprintSelection) (cycles : CompletionCycles) :
    List (List IssueRef) :=
  let placed := selections.zipIdx
  let credits := credits placed cycles (findDuplicates selections)
  placed.map fun (s, place) => (listedIssues s).filter (isCredited cycles credits place)

/-- The velocity of every selection, in the order of the list. -/
def velocity (selections : List SprintSelection) (points : Estimates)
    (cycles : CompletionCycles) : List SprintVelocity :=
  List.zipWith
    (fun s counted =>
      { project := s.project
        sprint := s.sprint
        committedIssues := (listedIssues s).length
        countedIssues := counted.length
        points := (counted.filterMap fun issue => points[issue]?).foldl (· + ·) (-0.0) })
    selections (countedIssues selections cycles)

end IssueFlow.Delivery
