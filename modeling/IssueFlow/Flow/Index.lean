import IssueFlow.Calendar.Date
import IssueFlow.Rules.Classification

/-!
# The flow index

A cumulative-flow index tells which issues held which value on which date: value, then date, then
the keys of the issues. It stands for a set of placements (`FlowIndex.Holds`); `union` puts two sets
together.
-/

namespace IssueFlow.Flow

open IssueFlow.Calendar IssueFlow.Rules

/-- The issues on each date. -/
abbrev DateColumn := Std.ExtTreeMap Date TextSet

/-- Puts together two maps; `f` joins the values of a key that both have. -/
def joinWith {κ β : Type} [Ord κ] [Std.TransOrd κ] (f : β → β → β)
    (a b : Std.ExtTreeMap κ β) : Std.ExtTreeMap κ β :=
  b.foldl (fun m key v => m.alter key fun
    | none => some v
    | some u => some (f u v)) a

/-- Which issues held which value on which date. -/
structure FlowIndex where
  entries : Std.ExtTreeMap String DateColumn := ∅
  deriving DecidableEq

namespace FlowIndex

/-- Places an issue under a value on a date. -/
def insert (x : FlowIndex) (value : String) (date : Date) (key : String) : FlowIndex :=
  ⟨x.entries.alter value fun column =>
    some ((column.getD ∅).alter date fun keys => some ((keys.getD ∅).insert key))⟩

/-- Adds the placements of the second index to the first. -/
def merge (x y : FlowIndex) : FlowIndex :=
  ⟨joinWith (joinWith fun s t => s ∪ t) x.entries y.entries⟩

/-- The placements of both; the index with fewer values is merged into the other one. -/
def union (x y : FlowIndex) : FlowIndex :=
  if x.entries.size < y.entries.size then y.merge x else x.merge y

def isEmpty (x : FlowIndex) : Bool := x.entries.isEmpty

/-- The values of the index in ascending order. -/
def values (x : FlowIndex) : List String := x.entries.keys

/-- The issues that held a value on a date. -/
def issuesOn? (x : FlowIndex) (value : String) (date : Date) : Option TextSet :=
  x.entries[value]?.bind fun column => column[date]?

/-- The number of issues that held a value, on each date that has an entry. -/
def countSeries (x : FlowIndex) (value : String) : Std.ExtTreeMap Date Nat :=
  (x.entries.getD value ∅).map fun _ keys => keys.size

/-- The first value that the issue held on a date. -/
def valueOf? (x : FlowIndex) (key : String) (date : Date) : Option String :=
  (x.entries.toList.find? fun entry =>
    entry.2[date]?.any fun keys => keys.contains key).map Prod.fst

/-- The values that have an entry on a date, with their issues, in ascending order. -/
def onDate (x : FlowIndex) (date : Date) : List (String × TextSet) :=
  x.entries.toList.filterMap fun entry => entry.2[date]?.map fun keys => (entry.1, keys)

/-- Whether the index places an issue under a value on a date. -/
def Holds (x : FlowIndex) (value : String) (date : Date) (key : String) : Prop :=
  ∃ keys, x.issuesOn? value date = some keys ∧ key ∈ keys

end FlowIndex

end IssueFlow.Flow
