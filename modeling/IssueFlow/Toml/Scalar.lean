import IssueFlow.Calendar.Date
import IssueFlow.Serial.Data
import IssueFlow.Text.Scan
import IssueFlow.Toml.Quoted

/-!
# Scalars

The TOML values without parts: strings, dates and times, numbers and Booleans. A date or time is
read as a record, so that no text field accepts it.
-/

namespace IssueFlow.Toml

open IssueFlow.Text IssueFlow.Serial

/-! ## Numbers -/

/-- A sign in front of a number: whether it is negative. -/
def sign : List Char → Bool × List Char
  | '-' :: cs => (true, cs)
  | '+' :: cs => (false, cs)
  | cs => (false, cs)

/-- More digits; an underscore must stand between two digits. -/
def moreDigits (isDigit : Char → Bool) : Reader (List Char)
  | '_' :: c :: cs => if isDigit c then pushFront c (moreDigits isDigit cs) else none
  | c :: cs =>
    if isDigit c then pushFront c (moreDigits isDigit cs)
    else if c = '_' then none
    else some ([], c :: cs)
  | [] => some ([], [])

/-- One or more digits. -/
def digits (isDigit : Char → Bool) : Reader (List Char)
  | c :: cs => if isDigit c then pushFront c (moreDigits isDigit cs) else none
  | [] => none

/-- The digits of a decimal number, which has no zero in front. -/
def wholeDigits : Reader (List Char)
  | '0' :: cs => some (['0'], cs)
  | cs => digits Char.isDigit cs

/-- A number of 64 bits with a sign. -/
def signed64? (n : Int) : Option Data :=
  if -0x8000000000000000 ≤ n ∧ n < 0x8000000000000000 then some (.int n) else none

/-- The number that digits of the given base write. -/
def numberIn? (base : Nat) (cs : List Char) : Option Nat :=
  cs.foldl (fun n c => n.bind fun n => (hexValue? c).map (base * n + ·)) (some 0)

/-- A whole number in the given base, below 16. -/
def basedInteger (base : Nat) : Reader Data := fun cs => do
  let (ds, cs) ← digits (fun c => (hexValue? c).any (· < base)) cs
  let n ← numberIn? base ds
  return (← signed64? n, cs)

def integer : Reader Data
  | '0' :: 'x' :: cs => basedInteger 16 cs
  | '0' :: 'o' :: cs => basedInteger 8 cs
  | '0' :: 'b' :: cs => basedInteger 2 cs
  | cs => do
    let (negative, cs) := sign cs
    let (ds, cs) ← wholeDigits cs
    let n := numberOf ds
    return (← signed64? (if negative then -n else n), cs)

/-- A point and the digits after it. -/
def decimals : Reader (List Char)
  | '.' :: cs => digits Char.isDigit cs
  | _ => none

/-- A power of ten after `e` or `E`. -/
def power : Reader Int
  | c :: cs =>
    if c = 'e' ∨ c = 'E' then do
      let (negative, cs) := sign cs
      let (ds, cs) ← digits Char.isDigit cs
      return (if negative then -numberOf ds else numberOf ds, cs)
    else none
  | [] => none

/-- The decimals and the power of ten of a number that has one of them or both. -/
def floatTail : Reader (List Char × Int) := fun cs =>
  match decimals cs with
  | some (ds, cs) =>
    match power cs with
    | some (n, cs) => some ((ds, n), cs)
    | none => some ((ds, 0), cs)
  | none => (power cs).map fun (n, cs) => (([], n), cs)

/-- The float nearest to `m` times ten to the power of `n`; no float is that small or that large
beyond the powers cut off here. -/
def decimalFloat (m : Nat) (n : Int) : Float :=
  let length := (Nat.log2 m / 3 : Nat)
  if m = 0 ∨ n + length < -400 then 0
  else if 400 < n then 1 / 0
  else if n < 0 then Float.ofScientific m true n.natAbs
  else Float.ofScientific m false n.toNat

/-- A float; one above the range is refused. -/
def finiteFloat : Reader Data := fun cs => do
  let (negative, cs) := sign cs
  let (whole, cs) ← wholeDigits cs
  let ((ds, n), cs) ← floatTail cs
  let size := decimalFloat (numberOf (whole ++ ds)) (n - ds.length)
  if size.isInf && !negative then none
  else return (.real (if negative then -size else size), cs)

/-- The float `inf` or `nan`. -/
def namedFloat : Reader Data := fun cs =>
  let (negative, cs) := sign cs
  match cs with
  | 'i' :: 'n' :: 'f' :: cs => some (.real (if negative then -1 / 0 else 1 / 0), cs)
  | 'n' :: 'a' :: 'n' :: cs => some (.real (0 / 0), cs)
  | _ => none

/-! ## Dates and times -/

/-- A number of two digits within bounds. -/
def twoDigits (low high : Nat) : Reader Unit := fun cs => do
  let (n, cs) ← exactly 2 cs
  if low ≤ n ∧ n ≤ high then return ((), cs) else none

/-- Hours and minutes joined by a colon. -/
def hourMinute : Reader Unit := fun cs => do
  let ((), cs) ← twoDigits 0 23 cs
  let ((), cs) ← literal ':' cs
  twoDigits 0 59 cs

/-- A time of day; second 60 is a leap second. -/
def clock : Reader Unit := fun cs => do
  let ((), cs) ← hourMinute cs
  let ((), cs) ← literal ':' cs
  let ((), cs) ← twoDigits 0 60 cs
  match cs with
  | '.' :: cs => (unbounded cs).map fun (_, cs) => ((), cs)
  | cs => return ((), cs)

/-- The text after an offset from UTC, if it starts with one. -/
def skipOffset? : List Char → Option (List Char)
  | c :: cs =>
    if c = 'Z' ∨ c = 'z' then some cs
    else if c = '+' ∨ c = '-' then (hourMinute cs).map Prod.snd
    else some (c :: cs)
  | [] => some []

/-- A time of day and an optional offset after `T`, `t` or a space. -/
def clockAfterDate : Reader Unit
  | c :: cs =>
    if c = 'T' ∨ c = 't' ∨ c = ' ' then do
      let ((), cs) ← clock cs
      return ((), ← skipOffset? cs)
    else none
  | [] => none

/-- A date of the calendar. -/
def calendarDate : Reader Unit := fun cs => do
  let (year, cs) ← exactly 4 cs
  let ((), cs) ← literal '-' cs
  let (month, cs) ← exactly 2 cs
  let ((), cs) ← literal '-' cs
  let (day, cs) ← exactly 2 cs
  if (⟨year, month, day⟩ : Calendar.Civil).isReal then return ((), cs) else none

/-- A date, a time, or both. -/
def moment : Reader Unit := fun cs =>
  match calendarDate cs with
  | some ((), rest) => clockAfterDate rest <|> some ((), rest)
  | none => clock cs

/-- A date or time as a record that holds its text. -/
def momentData : Reader Data := fun cs =>
  (moment cs).map fun ((), rest) =>
    (.record [("datetime", .text (String.ofList (cs.take (cs.length - rest.length))))], rest)

/-! ## All scalars -/

def boolean : Reader Data
  | 't' :: 'r' :: 'u' :: 'e' :: cs => some (.bool true, cs)
  | 'f' :: 'a' :: 'l' :: 's' :: 'e' :: cs => some (.bool false, cs)
  | _ => none

/-- A value without parts. -/
def scalar : Reader Data := fun cs =>
  (anyString cs).map (fun (s, cs) => (.text s, cs)) <|> momentData cs <|> finiteFloat cs <|>
    namedFloat cs <|> integer cs <|> boolean cs

end IssueFlow.Toml
