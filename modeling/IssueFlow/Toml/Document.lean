import IssueFlow.Toml.Scalar
import IssueFlow.Toml.Table

/-!
# Documents

A TOML document is a list of lines: blank ones, keys with their values, and the headers of tables.
`parse?` reads a whole document as the fields of a record, and returns `none` if any line or the way
in which the lines fit together breaks a rule.
-/

namespace IssueFlow.Toml

open IssueFlow.Text IssueFlow.Serial

/-- A dotted key has fewer parts, and values nest less deep, than this. -/
def depthLimit : Nat := 80

/-! ## Keys -/

def isBare (c : Char) : Bool := c.isAlphanum || c = '_' || c = '-'

/-- One part of a key: a string of one line, or letters, digits, underscores and hyphens. -/
def keyPart : Reader String := fun cs =>
  lineString cs <|>
    if (cs.takeWhile isBare).isEmpty then none
    else some (String.ofList (cs.takeWhile isBare), cs.dropWhile isBare)

/-- A key of at most `limit` parts joined by points, with the blanks around it: the parts before the
last one, and the last one. -/
def dottedKey : (limit : Nat) → Reader (List String × String)
  | 0, _ => none
  | limit + 1, cs => do
    let (part, cs) ← keyPart (skipBlanks cs)
    match skipBlanks cs with
    | '.' :: cs => (dottedKey limit cs).map fun ((path, name), cs) => ((part :: path, name), cs)
    | cs => return (([], part), cs)

def key : Reader (List String × String) := dottedKey (depthLimit - 1)

/-- A key, an equals sign and a value. -/
def entry (value : Reader Data) : Reader Entry := fun cs => do
  let ((path, name), cs) ← key cs
  let ((), cs) ← literal '=' cs
  let (d, cs) ← value (skipBlanks cs)
  return (⟨path, name, d⟩, cs)

/-! ## Values -/

/-- The rest of an array after its opening or a comma; it has at most `limit` items. -/
def arrayItems (value : Reader Data) : (limit : Nat) → Reader (List Data)
  | 0, _ => none
  | limit + 1, cs => do
    match ← skipGap? cs with
    | ']' :: cs => return ([], cs)
    | cs =>
      let (d, cs) ← value cs
      match ← skipGap? cs with
      | ',' :: cs => (arrayItems value limit cs).map fun (ds, cs) => (d :: ds, cs)
      | ']' :: cs => return ([d], cs)
      | _ => none

/-- The rest of an inline table after its opening or a comma; it has at most `limit` entries. -/
def inlineEntries (value : Reader Data) : (limit : Nat) → Reader (List Entry)
  | 0, _ => none
  | limit + 1, cs => do
    let (e, cs) ← entry value cs
    match skipBlanks cs with
    | ',' :: cs => (inlineEntries value limit cs).map fun (es, cs) => (e :: es, cs)
    | '\x7d' :: cs => return ([e], cs)
    | _ => none

/-- The rest of an inline table after its opening. -/
def inlineTable (value : Reader Data) : Reader Data := fun cs =>
  match skipBlanks cs with
  | '\x7d' :: cs => some (.record [], cs)
  | cs => do
    let (es, rest) ← inlineEntries value cs.length cs
    let entries ← assignAll? [] es
    return (.record (fieldsOf entries), rest)

/-- A value in which arrays and inline tables nest at most `depth` deep. -/
def valueWithin : (depth : Nat) → Reader Data
  | 0, cs => scalar cs
  | depth + 1, cs =>
    match cs with
    | '[' :: cs =>
      (arrayItems (valueWithin depth) (cs.length + 1) cs).map fun (ds, cs) => (.list ds, cs)
    | '\x7b' :: cs => inlineTable (valueWithin depth) cs
    | cs => scalar cs

def value : Reader Data := valueWithin (depthLimit - 1)

/-! ## Lines -/

/-- A line that says something. -/
inductive Line where
  | entry (e : Entry)
  | header (path : List String) (name : String) (repeated : Bool)

/-- The line at the start of the text, its end apart. -/
def line : Reader Line
  | '[' :: '[' :: cs => do
    let ((path, name), cs) ← key cs
    let ((), cs) ← literal ']' cs
    let ((), cs) ← literal ']' cs
    return (.header path name true, cs)
  | '[' :: cs => do
    let ((path, name), cs) ← key cs
    let ((), cs) ← literal ']' cs
    return (.header path name false, cs)
  | cs => (entry value cs).map fun (e, cs) => (.entry e, cs)

/-- Whether the text starts with a comment or a line end. -/
def startsBlank : List Char → Bool
  | '#' :: _ => true
  | '\n' :: _ => true
  | '\r' :: _ => true
  | _ => false

/-- The lines of a text, at most `limit` of them. -/
def linesWithin? : (limit : Nat) → List Char → Option (List Line)
  | 0, _ => none
  | limit + 1, cs =>
    match skipBlanks cs with
    | [] => some []
    | cs =>
      if startsBlank cs then do linesWithin? limit (← endOfLine? cs)
      else do
        let (l, cs) ← line cs
        return l :: (← linesWithin? limit (← endOfLine? cs))

/-- The lines of a document, which may start with a byte order mark. -/
def lines? (cs : List Char) : Option (List Line) :=
  match cs with
  | '\ufeff' :: cs => linesWithin? (cs.length + 1) cs
  | cs => linesWithin? (cs.length + 1) cs

/-- The entries before the first header, and the sections. -/
def sections : List Line → List Entry × List Section
  | [] => ([], [])
  | .entry e :: rest =>
    let (entries, ss) := sections rest
    (e :: entries, ss)
  | .header path name repeated :: rest =>
    let (entries, ss) := sections rest
    ([], ⟨path, name, repeated, entries⟩ :: ss)

/-- The fields of a document. -/
def parse? (text : String) : Option Fields := do
  let (entries, ss) := sections (← lines? text.toList)
  let root ← assignAll? [] entries
  let root ← ss.foldlM (fun root s => s.place? s.path root) root
  return fieldsOf root

end IssueFlow.Toml
