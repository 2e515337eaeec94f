import IssueFlow.Calendar.Written
import IssueFlow.Text.Scan

/-!
# Layouts of dates and instants

The four layouts in which trackers write a point in time. The first is strict: fixed numbers of
digits and an offset from UTC. The other three have no offset and are read as UTC; before each of
their numbers blanks are skipped, a year may carry a sign, and the other numbers have one or two
digits. Each layout is a function from a whole text to the instant that it writes, if any.

Serialised records have a layout of their own, for single dates and for instants (`Date.ofText?`,
`Instant.ofText?`). It is relaxed: years and numbers as in the loose layouts, blanks before every
part and after the last one, and an offset that need not be written with a colon.
-/

namespace IssueFlow.Calendar

open IssueFlow.Text

/-- An hour, a minute, a second and the nanoseconds. -/
abbrev ClockParts := Nat × Nat × Nat × Nat

/-- A year, a month and a day by the given readers, `hyphen` between them. -/
def dateBy (year : Reader Int) (number : Reader Nat) (hyphen : Reader Unit) : Reader Civil :=
  fun cs => do
    let (year, cs) ← year cs
    let ((), cs) ← hyphen cs
    let (month, cs) ← number cs
    let ((), cs) ← hyphen cs
    let (day, cs) ← number cs
    return (⟨year, month, day⟩, cs)

/-- The nanoseconds that the digits of a fraction write; digits past the ninth do not count. -/
def nanosOf (ds : List Char) : Nat :=
  numberOf ((ds ++ List.replicate 9 '0').take 9)

/-- An optional fraction: a point and one or more digits. -/
def fraction : Reader Nat
  | '.' :: cs =>
    let (ds, rest) := allDigits cs
    if ds.isEmpty then none else some (nanosOf ds, rest)
  | cs => some (0, cs)

/-- An hour, a minute and a second by the given reader, `colon` between them, and an optional
fraction. -/
def clockBy (number : Reader Nat) (colon : Reader Unit) : Reader ClockParts := fun cs => do
  let (hour, cs) ← number cs
  let ((), cs) ← colon cs
  let (minute, cs) ← number cs
  let ((), cs) ← colon cs
  let (second, cs) ← number cs
  let (nano, cs) ← fraction cs
  return ((hour, minute, second, nano), cs)

/-- The sign of an offset: `+`, `-` or the minus sign U+2212. -/
def offsetSign (c : Char) : Option Int :=
  if c = '+' then some 1 else if c = '-' ∨ c = '\u2212' then some (-1) else none

/-- An offset from UTC in minutes: `Z`, `z`, or a sign and hours and minutes below a full day, with
`colon` between them. -/
def offsetBy (colon : Reader Unit) : Reader Int
  | [] => none
  | c :: cs =>
    if c = 'Z' ∨ c = 'z' then some (0, cs)
    else do
      let sign ← offsetSign c
      let (hours, cs) ← exactly 2 cs
      let ((), cs) ← colon cs
      let (minutes, cs) ← exactly 2 cs
      if hours < 24 ∧ minutes < 60 then return (sign * (hours * 60 + minutes : Nat), cs) else none

/-- Date, one of `T`, `t` and a space, time of day and offset by the given readers, and nothing
after it. -/
def instantBy (date : Reader Civil) (clock : Reader ClockParts) (offset : Reader Int)
    (cs : List Char) : Option Instant := do
  let (civil, cs) ← date cs
  match cs with
  | [] => none
  | separator :: cs =>
    if separator = 'T' ∨ separator = 't' ∨ separator = ' ' then
      let ((hour, minute, second, nano), cs) ← clock cs
      let (minutes, cs) ← offset cs
      if cs.isEmpty then
        let d ← Date.ofCivil? civil
        let local_ ← Instant.ofParts? d hour minute second nano
        local_.minutesEarlier? minutes
      else none
    else none

/-! ## The strict layout with an offset -/

/-- A year of four digits. -/
def fixedYear : Reader Int := fun cs => (exactly 4 cs).map fun (n, rest) => ((n : Int), rest)

/-- Four, two and two digits, joined by hyphens. -/
def fixedDate : Reader Civil := dateBy fixedYear (exactly 2) (literal '-')

/-- Two, two and two digits, joined by colons, and an optional fraction. -/
def fixedClock : Reader ClockParts := clockBy (exactly 2) (literal ':')

/-- An offset from UTC in minutes, with a colon. -/
def offset : Reader Int := offsetBy (literal ':')

/-- Date, one of `T`, `t` and a space, time of day and offset, and nothing after it. -/
def withOffset? (cs : List Char) : Option Instant := instantBy fixedDate fixedClock offset cs

/-! ## The loose layouts without an offset -/

/-- A number of one or two digits after any blanks. -/
def looseNumber : Reader Nat := fun cs => upTo 2 (dropBlanks cs)

/-- A year after any blanks: up to four digits, or a sign and any number of digits. -/
def looseYear : Reader Int := fun cs =>
  match dropBlanks cs with
  | '-' :: rest => (unbounded rest).map fun (n, rest) => (-(n : Int), rest)
  | '+' :: rest => (unbounded rest).map fun (n, rest) => ((n : Int), rest)
  | rest => (upTo 4 rest).map fun (n, rest) => ((n : Int), rest)

def looseDate : Reader Civil := dateBy looseYear looseNumber (literal '-')

def looseClock : Reader ClockParts := clockBy looseNumber (literal ':')

/-- A time of day that ends the text, on the given date. -/
def endingClock? (civil : Civil) (cs : List Char) : Option Instant := do
  let ((hour, minute, second, nano), cs) ← looseClock cs
  if cs.isEmpty then
    let d ← Date.ofCivil? civil
    Instant.ofParts? d hour minute second nano
  else none

/-- A date, `T` and a time of day. -/
def joinedByT? (cs : List Char) : Option Instant := do
  let (civil, cs) ← looseDate cs
  let ((), cs) ← literal 'T' cs
  endingClock? civil cs

/-- A date, any blanks or none, and a time of day. -/
def joinedByBlanks? (cs : List Char) : Option Instant := do
  let (civil, cs) ← looseDate cs
  endingClock? civil (dropBlanks cs)

/-- A date alone stands for its midnight. -/
def dateOnly? (cs : List Char) : Option Instant := do
  let (civil, cs) ← looseDate cs
  if cs.isEmpty then (Date.ofCivil? civil).map Instant.startOf else none

/-! ## The relaxed layout of serialised records -/

/-- A given character after any blanks. -/
def spacedLiteral (c : Char) : Reader Unit := fun cs => literal c (dropBlanks cs)

def relaxedDate : Reader Civil := dateBy looseYear looseNumber (spacedLiteral '-')

def relaxedClock : Reader ClockParts := clockBy looseNumber (spacedLiteral ':')

/-- Any colons and blanks, or none. -/
def colonsOrBlanks : Reader Unit := fun cs =>
  some ((), cs.dropWhile fun c => c == ':' || isBlank c)

/-- An offset from UTC in minutes, with any blanks before and after it: the letters `UTC`, in upper
or lower case, or an offset with or without colons. -/
def relaxedOffset : Reader Int := fun cs => do
  let cs := dropBlanks cs
  let (minutes, rest) ←
    if (cs.take 3).map Char.toLower = ['u', 't', 'c'] then some (0, cs.drop 3)
    else offsetBy colonsOrBlanks cs
  return (minutes, dropBlanks rest)

/-- The date that a text in a serialised record writes. -/
def Date.ofText? (s : String) : Option Date := do
  let (civil, rest) ← relaxedDate s.toList
  if (dropBlanks rest).isEmpty then Date.ofCivil? civil else none

/-- The instant that a text in a serialised record writes. -/
def Instant.ofText? (s : String) : Option Instant :=
  instantBy relaxedDate relaxedClock relaxedOffset s.toList

end IssueFlow.Calendar
