import IssueFlow.Rules.Classification

/-!
# Serialised data

A serialised value is a tree (`Data`) of texts, numbers, lists and records. Readers look up the
fields of a record by name and ignore the fields that they do not know; a field that they know must
not stand there twice. A record may also be written as the list of its fields in their order. Every
reader returns `none` for data of another form.
-/

namespace IssueFlow.Serial

open IssueFlow.Rules

/-- A tree of serialised values. -/
inductive Data where
  | null
  | bool (b : Bool)
  | int (n : Int)
  | real (x : Float)
  | text (s : String)
  | list (items : List Data)
  | record (fields : List (String × Data))
  deriving Inhabited

/-- What a format says about a record written as a list with more items than it has fields. -/
inductive Surplus where
  | refused
  | ignored
  deriving DecidableEq, Repr

/-- The fields of a record by name. -/
abbrev Fields := List (String × Data)

variable {α κ β : Type}

/-! ## Fields -/

/-- Whether no field of this name is given twice. -/
def Fields.hasOnce (fields : Fields) (name : String) : Bool :=
  fields.countP (fun field => field.1 == name) ≤ 1

/-- The fields of a record, or of the list of its fields in the order of `names`. -/
def Data.fields? (surplus : Surplus) (names : List String) : Data → Option Fields
  | record fields => if names.all (Fields.hasOnce fields) then some fields else none
  | list items =>
    if surplus = .refused ∧ names.length < items.length then none else some (names.zip items)
  | _ => none

namespace Fields

/-- A field that must be there. -/
def required (fields : Fields) (name : String) (read : Data → Option α) : Option α :=
  (fields.lookup name).bind read

/-- A field that has a value of its own if it is missing. -/
def orElse (fields : Fields) (name : String) (missing : α) (read : Data → Option α) : Option α :=
  match fields.lookup name with
  | none => some missing
  | some d => read d

/-- A field that may be missing or null. -/
def nullable (fields : Fields) (name : String) (read : Data → Option α) : Option (Option α) :=
  match fields.lookup name with
  | none => some none
  | some .null => some none
  | some d => (read d).map some

end Fields

/-! ## Readers -/

namespace Data

def text? : Data → Option String
  | text s => some s
  | _ => none

/-- A number that fits into 32 bits without a sign. -/
def word? : Data → Option UInt32
  | int n => if 0 ≤ n ∧ n < 0x100000000 then some (UInt32.ofNat n.toNat) else none
  | _ => none

/-- The values of all items, if each has one. -/
def readAll (read : Data → Option α) : List Data → Option (List α)
  | [] => some []
  | d :: ds => (read d).bind fun a => (readAll read ds).map (a :: ·)

def list? (read : Data → Option α) : Data → Option (List α)
  | list items => readAll read items
  | _ => none

/-- A set of texts, written as a list in any order. -/
def texts? (d : Data) : Option TextSet :=
  (d.list? text?).map fun xs => Std.ExtTreeSet.ofList xs

/-- The entries of a map. -/
def readEntries (key : String → Option κ) (read : Data → Option β) : Fields → Option (List (κ × β))
  | [] => some []
  | (name, d) :: rest =>
    (key name).bind fun k => (read d).bind fun v => (readEntries key read rest).map ((k, v) :: ·)

/-- A map, written as a record with a field for each entry. -/
def mapBy? [Ord κ] [Std.TransOrd κ] (key : String → Option κ) (read : Data → Option β) :
    Data → Option (Std.ExtTreeMap κ β)
  | record fields => (readEntries key read fields).map fun es => Std.ExtTreeMap.ofList es
  | _ => none

/-- A map whose keys are texts. -/
def map? (read : Data → Option β) (d : Data) : Option (Std.ExtTreeMap String β) :=
  d.mapBy? some read

/-- A member of an enumeration: its name, or a record with that single field, which is null. -/
def named? (ofName? : String → Option α) : Data → Option α
  | text name => ofName? name
  | record [(name, null)] => ofName? name
  | _ => none

/-! ## Writers -/

def ofList (write : α → Data) (xs : List α) : Data := list (xs.map write)

def ofOption (write : α → Data) : Option α → Data
  | none => null
  | some a => write a

def ofTexts (s : TextSet) : Data := ofList text s.toList

def ofWord (n : UInt32) : Data := int n.toNat

def ofMapBy [Ord κ] [Std.TransOrd κ] (key : κ → String) (write : β → Data)
    (m : Std.ExtTreeMap κ β) : Data :=
  record (m.toList.map fun entry => (key entry.1, write entry.2))

def ofMap (write : β → Data) (m : Std.ExtTreeMap String β) : Data := ofMapBy id write m

end Data

end IssueFlow.Serial
