import IssueFlow.Serial.Data

/-!
# Tables

How the lines of a TOML document build one tree. A table is opened by its header, implied by the
header of a table in it, or made by a dotted key; the rules on what may be added to it later hang on
which. Arrays and inline tables are complete when they are read, and nothing is added to them.
-/

namespace IssueFlow.Toml

open IssueFlow.Serial

/-- How a table came to be. -/
inductive Origin where
  | header
  /-- By the header of a table in it. -/
  | implied
  /-- By a dotted key. -/
  | dotted
  deriving DecidableEq, Repr

/-- An entry of a table. -/
inductive Node where
  | value (d : Data)
  | table (origin : Origin) (entries : List (String × Node))
  /-- The tables that headers in double brackets opened, in order. -/
  | tables (elements : List (List (String × Node)))

/-- The entries of a table by key. -/
abbrev Entries := List (String × Node)

/-- Gives a key that is there another node. -/
def Entries.put (entries : Entries) (key : String) (node : Node) : Entries :=
  entries.map fun entry => if entry.1 = key then (key, node) else entry

/-- Puts the last element of a list through a function, if there is one. -/
def updateLast? {α : Type} (f : α → Option α) : List α → Option (List α)
  | [] => none
  | [a] => (f a).map fun a => [a]
  | a :: as => (updateLast? f as).map (a :: ·)

/--
Adds a value under a dotted key. Tables on the way are made where they are missing; those with a
header and complete values bar the way. `open_` tells whether a value may be added right here: to
the table that the line belongs to, or to one that a dotted key made.
-/
def assign? (name : String) (d : Data) : (open_ : Bool) → (path : List String) → Entries →
    Option Entries
  | open_, [], entries =>
    if open_ ∧ (entries.lookup name).isNone then some (entries ++ [(name, .value d)]) else none
  | _, key :: path, entries =>
    match entries.lookup key with
    | none =>
      (assign? name d true path []).map fun sub => entries ++ [(key, .table .dotted sub)]
    | some (.table .dotted sub) =>
      (assign? name d true path sub).map fun sub => entries.put key (.table .dotted sub)
    | some (.table .implied sub) =>
      (assign? name d false path sub).map fun sub => entries.put key (.table .implied sub)
    | some (.tables elements) =>
      (updateLast? (assign? name d false path) elements).map fun elements =>
        entries.put key (.tables elements)
    | some _ => none

/-- A dotted key, last part apart, and its value. -/
structure Entry where
  path : List String
  name : String
  value : Data

/-- Adds the entries of one table in their order. -/
def assignAll? (entries : Entries) (added : List Entry) : Option Entries :=
  added.foldlM (fun entries e => assign? e.name e.value true e.path entries) entries

/-- A table with its header: the entries between one header and the next. -/
structure Section where
  path : List String
  name : String
  /-- Whether the header stands in double brackets. -/
  repeated : Bool
  entries : List Entry

/-- The node of a table after a section for it, from the node before, if any. -/
def Section.node? (s : Section) : Option Node → Option Node
  | none =>
    (assignAll? [] s.entries).map fun body =>
      if s.repeated then .tables [body] else .table .header body
  | some (.table .implied entries) =>
    if s.repeated then none else (assignAll? entries s.entries).map (.table .header)
  | some (.tables elements) =>
    if s.repeated then (assignAll? [] s.entries).map fun body => .tables (elements ++ [body])
    else none
  | some _ => none

/-- Adds a section under its path. Tables on the way are implied where they are missing. -/
def Section.place? (s : Section) : (path : List String) → Entries → Option Entries
  | [], entries =>
    match entries.lookup s.name with
    | none => (s.node? none).map fun node => entries ++ [(s.name, node)]
    | some node => (s.node? (some node)).map (entries.put s.name)
  | key :: path, entries =>
    match entries.lookup key with
    | none => (s.place? path []).map fun sub => entries ++ [(key, .table .implied sub)]
    | some (.table origin sub) =>
      (s.place? path sub).map fun sub => entries.put key (.table origin sub)
    | some (.tables elements) =>
      (updateLast? (s.place? path) elements).map fun elements => entries.put key (.tables elements)
    | some (.value _) => none

/-! ## The finished tree -/

mutual

def Node.toData : Node → Data
  | .value d => d
  | .table _ entries => .record (fieldsOf entries)
  | .tables elements => .list (recordsOf elements)

/-- The entries as fields of a record. -/
def fieldsOf : List (String × Node) → Fields
  | [] => []
  | (key, node) :: entries => (key, node.toData) :: fieldsOf entries

def recordsOf : List (List (String × Node)) → List Data
  | [] => []
  | entries :: elements => .record (fieldsOf entries) :: recordsOf elements

end

end IssueFlow.Toml
