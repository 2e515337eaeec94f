import IssueFlow.Calendar.Instant

/-!
# Written dates and instants

Years from 0 to 9999 are written with four digits, others with a sign and at least four digits.
Instants are written in UTC, the fraction with the shortest of 0, 3, 6 and 9 digits that loses
nothing, and a leap second as second 60.
-/

namespace IssueFlow.Calendar

/-- The last `width` decimal digits of a number. -/
def padded : (width : Nat) → (n : Nat) → List Char
  | 0, _ => []
  | width + 1, n => padded width (n / 10) ++ [Nat.digitChar (n % 10)]

/-- The decimal digits of a number, at least four. -/
def atLeastFour (n : Nat) : List Char :=
  if n < 10000 then padded 4 n else Nat.toDigits 10 n

def yearChars (year : Int) : List Char :=
  if 0 ≤ year ∧ year ≤ 9999 then padded 4 year.toNat
  else (if year < 0 then '-' else '+') :: atLeastFour year.natAbs

namespace Date

def chars (d : Date) : List Char :=
  let c := d.civil
  yearChars c.year ++ '-' :: padded 2 c.month ++ '-' :: padded 2 c.day

/-- The date as year, month and day joined by hyphens. -/
def text (d : Date) : String := String.ofList d.chars

end Date

/-- The fraction of a second, with its point, for nanoseconds below `giga`. -/
def fractionChars (nano : Nat) : List Char :=
  if nano = 0 then []
  else if nano % 1000000 = 0 then '.' :: padded 3 (nano / 1000000)
  else if nano % 1000 = 0 then '.' :: padded 6 (nano / 1000)
  else '.' :: padded 9 nano

namespace Instant

/-- The second of the minute, 60 in a leap second. -/
def secondOfMinute (t : Instant) : Nat :=
  if t.inLeapSecond then 60 else t.second % 60

def chars (t : Instant) : List Char :=
  t.date.chars ++ 'T' :: padded 2 (t.second / 3600) ++ ':' :: padded 2 (t.second / 60 % 60) ++
    ':' :: padded 2 t.secondOfMinute ++ fractionChars (t.nano % giga) ++ ['Z']

/-- The instant in UTC: date, `T`, time of day, fraction and `Z`. -/
def text (t : Instant) : String := String.ofList t.chars

end Instant

end IssueFlow.Calendar
