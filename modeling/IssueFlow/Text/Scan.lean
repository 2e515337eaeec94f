import IssueFlow.Text.Blank

/-!
# Scanning digits

Readers over lists of characters: each returns what it read and the rest of the text, or `none` if
the text does not start with it. Only ASCII digits count.
-/

namespace IssueFlow.Text

/-- A reader of the front of a text. -/
abbrev Reader (α : Type) := List Char → Option (α × List Char)

def digitValue (c : Char) : Nat := c.toNat - 48

/-- The number that a list of digits writes. -/
def numberOf (ds : List Char) : Nat :=
  ds.foldl (fun n c => 10 * n + digitValue c) 0

/-- The leading digits, at most `limit` of them, and the rest. -/
def spanDigits : Nat → List Char → List Char × List Char
  | 0, cs => ([], cs)
  | _ + 1, [] => ([], [])
  | limit + 1, c :: cs =>
    if c.isDigit then
      let (ds, rest) := spanDigits limit cs
      (c :: ds, rest)
    else ([], c :: cs)

/-- All leading digits, and the rest. -/
def allDigits (cs : List Char) : List Char × List Char :=
  (cs.takeWhile Char.isDigit, cs.dropWhile Char.isDigit)

/-- A number of exactly `n` digits. -/
def exactly (n : Nat) : Reader Nat := fun cs =>
  let (ds, rest) := spanDigits n cs
  if ds.length = n then some (numberOf ds, rest) else none

/-- A number of one to `limit` digits, taking as many as there are. -/
def upTo (limit : Nat) : Reader Nat := fun cs =>
  let (ds, rest) := spanDigits limit cs
  if ds.isEmpty then none else some (numberOf ds, rest)

/-- A number of one or more digits. -/
def unbounded : Reader Nat := fun cs =>
  let (ds, rest) := allDigits cs
  if ds.isEmpty then none else some (numberOf ds, rest)

/-- One given character. -/
def literal (c : Char) : Reader Unit
  | [] => none
  | d :: cs => if d = c then some ((), cs) else none

end IssueFlow.Text
