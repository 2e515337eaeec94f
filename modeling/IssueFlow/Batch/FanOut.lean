import IssueFlow.Batch.Diagnostic

/-!
# Fan-out over units

A batch is a list of independent units. `fanOut` gives the result of each, in the order of the
units, or the reason why the unit was skipped: units past the limit always are, and all others if
the batch was cancelled before it started.
-/

namespace IssueFlow.Batch

variable {α β : Type}

/-- Limits of one batch. -/
structure Options where
  /-- At most this many units are processed. -/
  maxUnits : Option Nat := none
  cancelled : Bool := false
  deriving DecidableEq, Repr

/-- How many of the given number of units are within the limit. -/
def Options.admitted (o : Options) (units : Nat) : Nat :=
  match o.maxUnits with
  | none => units
  | some n => min n units

def fanOut (o : Options) (f : α → β) (units : List α) : List (Except ErrorCode β) :=
  let n := o.admitted units.length
  (units.take n).map (fun u => if o.cancelled then .error .cancelled else .ok (f u)) ++
    (units.drop n).map fun _ => .error .batchLimitReached

theorem length_fanOut (o : Options) (f : α → β) (units : List α) :
    (fanOut o f units).length = units.length := by
  simp only [fanOut, List.length_append, List.length_map, List.length_take, List.length_drop]
  have : o.admitted units.length ≤ units.length := by
    unfold Options.admitted
    split <;> omega
  omega

/-- A batch without limit or cancellation is a map. -/
theorem fanOut_unlimited (f : α → β) (units : List α) :
    fanOut {} f units = units.map fun u => .ok (f u) := by
  simp [fanOut, Options.admitted]

end IssueFlow.Batch
