import IssueFlow.Text.Blank
import Std.Data.ExtTreeMap
import Std.Data.ExtTreeSet

/-!
# Classification of field values

A `Classification` says what the raw status values of one project mean, and how its defects are
filtered. Values are compared by `Text.sameValue`. A classification is valid if its open default is
neither blank nor one of its closed values.
-/

namespace IssueFlow.Rules

open IssueFlow.Text

/-- A set of texts, listed in ascending order. -/
abbrev TextSet := Std.ExtTreeSet String

/-- Whether some member is the value under tracker equality. -/
def TextSet.holds (s : TextSet) (value : String) : Bool := containsValue s.toList value

/-- A defect in this status with one of these resolutions is no real defect. -/
structure RejectionRule where
  status : String
  excludedResolutions : TextSet := ∅
  deriving DecidableEq

/-- How the defects of one project are filtered. -/
structure DefectRules where
  /-- Defects of these priorities are dropped. -/
  excludedPriorities : TextSet := ∅
  /-- A defect needs one of these root causes, unless there are none. -/
  includedRootCauses : TextSet := ∅
  rejection : Option RejectionRule := none
  /-- How many defects of a priority a story may have before they count. -/
  priorityTolerance : Std.ExtTreeMap String UInt32 := ∅
  deriving DecidableEq

/-- What the field values of one project mean. -/
structure Classification where
  /-- The status before any change, and the one that a blank status stands for. -/
  openDefault : String := "Open"
  closed : TextSet := ∅
  /-- Statuses that complete a cycle; the closed ones if there are none. -/
  completion : TextSet := ∅
  /-- Statuses that are not tracked. -/
  excluded : TextSet := ∅
  reopen : Option String := none
  defects : DefectRules := {}
  deriving DecidableEq

/-- Why a classification is not valid. -/
inductive ClassificationError where
  | openDefaultIsClosed (value : String)
  | emptyOpenDefault
  deriving DecidableEq, Repr

def ClassificationError.message : ClassificationError → String
  | .openDefaultIsClosed value => "open default '" ++ value ++ "' is also listed as a closed value"
  | .emptyOpenDefault => "open default must not be empty"

namespace Classification

def validate (c : Classification) : Except ClassificationError Unit :=
  if (trimChars c.openDefault.toList).isEmpty then .error .emptyOpenDefault
  else if c.closed.holds c.openDefault then .error (.openDefaultIsClosed c.openDefault)
  else .ok ()

/-- A valid classification with the given open default and closed values. -/
def create (openDefault : String) (closed : TextSet) : Except ClassificationError Classification :=
  let c : Classification := { openDefault, closed }
  c.validate.map fun () => c

/-- The value that a raw status stands for: trimmed, a blank one the open default. -/
def normalize (c : Classification) (raw : String) : String :=
  let cs := trimChars raw.toList
  if cs.isEmpty then c.openDefault else String.ofList cs

def isClosed (c : Classification) (value : String) : Bool := c.closed.holds value

def isExcluded (c : Classification) (value : String) : Bool := c.excluded.holds value

def isCompletion (c : Classification) (value : String) : Bool :=
  if c.completion.isEmpty then c.isClosed value else c.completion.holds value

def isReopen (c : Classification) (value : String) : Bool :=
  c.reopen.any fun reopen => sameValue reopen value

end Classification

/-- The classifications of the projects that have one. -/
structure ClassificationSet where
  projects : Std.ExtTreeMap String Classification := ∅
  deriving DecidableEq

namespace ClassificationSet

def get? (s : ClassificationSet) (project : String) : Option Classification := s.projects[project]?

def insert (s : ClassificationSet) (project : String) (c : Classification) : ClassificationSet :=
  ⟨s.projects.insert project c⟩

/-- The first project in order whose classification is not valid, and why. -/
def firstInvalid? : List (String × Classification) → Option (String × ClassificationError)
  | [] => none
  | (project, c) :: rest =>
    match c.validate with
    | .error cause => some (project, cause)
    | .ok () => firstInvalid? rest

def validate (s : ClassificationSet) : Except (String × ClassificationError) Unit :=
  match firstInvalid? s.projects.toList with
  | some fault => .error fault
  | none => .ok ()

end ClassificationSet

end IssueFlow.Rules
