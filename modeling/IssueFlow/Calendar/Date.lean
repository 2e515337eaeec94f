/-!
# Dates

A date of the proleptic Gregorian calendar, stored as the number of days since 1970-01-01. Dates
run from `-262143-01-01` to `+262142-12-31`. `Civil` is the year, month and day of a date:
`Date.ofCivil?` accepts exactly the civil dates that exist and lie in the range, and
`Date.civil` reads them back.
-/

namespace IssueFlow.Calendar

/-- The day number of `-262143-01-01`. -/
def firstDay : Int := -96465292

/-- The day number of `+262142-12-31`. -/
def lastDay : Int := 95026236

/-- A date, as the number of days since 1970-01-01. -/
structure Date where
  number : Int
  first_le : firstDay ≤ number
  le_last : number ≤ lastDay
  deriving DecidableEq

/-- A year, a month from 1 to 12 and a day from 1. -/
structure Civil where
  year : Int
  month : Nat
  day : Nat
  deriving DecidableEq, Repr

/-- Every fourth year is a leap year, but of the full centuries only every fourth. -/
def isLeap (year : Int) : Bool :=
  year % 4 == 0 && (year % 100 != 0 || year % 400 == 0)

/-- The lengths of the months of a year, January first. -/
def monthLengths (year : Int) : List Nat :=
  [31, if isLeap year then 29 else 28, 31, 30, 31, 30, 31, 31, 30, 31, 30, 31]

/-- Days from the first day of a year to the first day of a month of that year. -/
def daysBeforeMonth (year : Int) (month : Nat) : Nat :=
  ((monthLengths year).take (month - 1)).foldr (· + ·) 0

/-- Days from 0001-01-01 to the first day of a year. -/
def daysBeforeYear (year : Int) : Int :=
  365 * (year - 1) + (year - 1) / 4 - (year - 1) / 100 + (year - 1) / 400

/-- Days from 0001-01-01 to 1970-01-01. -/
def epochOffset : Int := 719162

/-- The month number, from `month` on, and the day of the month of a day counted from zero. -/
def splitMonths : (lengths : List Nat) → (month day : Nat) → Nat × Nat
  | [], month, day => (month, day + 1)
  | n :: lengths, month, day =>
    if day < n then (month, day + 1) else splitMonths lengths (month + 1) (day - n)

/--
The year that holds the day `n` days after 0001-01-01, and the day of the year counted from zero:
400, 100, 4 and 1 years at a time, the last century and the last year of a cycle being one day
longer.
-/
def splitYear (n : Int) : Int × Nat :=
  let cycle := n / 146097
  let inCycle := n % 146097
  let century := min (inCycle / 36524) 3
  let inCentury := inCycle - 36524 * century
  let four := inCentury / 1461
  let inFour := inCentury % 1461
  let one := min (inFour / 365) 3
  (400 * cycle + 100 * century + 4 * four + one + 1, (inFour - 365 * one).toNat)

namespace Civil

/-- Whether the calendar has this date. -/
def isReal (c : Civil) : Bool :=
  match c.month with
  | 0 => false
  | m + 1 =>
    match (monthLengths c.year)[m]? with
    | none => false
    | some n => 1 ≤ c.day && c.day ≤ n

/-- Days from 1970-01-01. -/
def dayNumber (c : Civil) : Int :=
  daysBeforeYear c.year - epochOffset + daysBeforeMonth c.year c.month + c.day - 1

end Civil

namespace Date

theorem ext {a b : Date} (h : a.number = b.number) : a = b := by
  cases a; cases b; simp_all

/-! ## Order -/

instance : LE Date := ⟨fun a b => a.number ≤ b.number⟩

instance : LT Date := ⟨fun a b => a.number < b.number⟩

instance (a b : Date) : Decidable (a ≤ b) := inferInstanceAs (Decidable (a.number ≤ b.number))

instance (a b : Date) : Decidable (a < b) := inferInstanceAs (Decidable (a.number < b.number))

instance : Ord Date := ⟨compareOn Date.number⟩

instance : Std.TransOrd Date := inferInstanceAs (Std.TransCmp (compareOn Date.number))

instance : Std.LawfulEqOrd Date where
  eq_of_compare h := ext (Std.LawfulEqOrd.eq_of_compare (α := Int) h)

instance : Max Date := ⟨fun a b => if a ≤ b then b else a⟩

theorem le_def {a b : Date} : a ≤ b ↔ a.number ≤ b.number := Iff.rfl

theorem lt_def {a b : Date} : a < b ↔ a.number < b.number := Iff.rfl

protected theorem le_refl (a : Date) : a ≤ a := Int.le_refl a.number

protected theorem le_trans {a b c : Date} (hab : a ≤ b) (hbc : b ≤ c) : a ≤ c :=
  Int.le_trans hab hbc

theorem lt_of_le_of_lt {a b c : Date} (hab : a ≤ b) (hbc : b < c) : a < c :=
  Int.lt_of_le_of_lt hab hbc

protected theorem max_eq_right {a b : Date} (h : a ≤ b) : max a b = b := if_pos h

protected theorem max_eq_left {a b : Date} (h : b < a) : max a b = a := if_neg (Int.not_le.2 h)

theorem number_max (a b : Date) : (max a b).number = max a.number b.number := by
  by_cases h : a ≤ b
  · rw [Date.max_eq_right h, Int.max_eq_right h]
  · have h : b < a := Int.not_le.1 h
    rw [Date.max_eq_left h, Int.max_eq_left (Int.le_of_lt h)]

/-! ## Construction -/

/-- The date with the given day number, if it is in the range. -/
def ofNumber? (n : Int) : Option Date :=
  if h : firstDay ≤ n ∧ n ≤ lastDay then some ⟨n, h.1, h.2⟩ else none

/-- The last date of the range. -/
def last : Date := ⟨lastDay, by decide, by decide⟩

/-- The day before, unless this is the first date. -/
def pred? (d : Date) : Option Date := ofNumber? (d.number - 1)

theorem pred?_of_lt {a b : Date} (h : a < b) : ∃ p, b.pred? = some p ∧ p.number = b.number - 1 := by
  have ha := a.first_le
  have hb := b.le_last
  rw [lt_def] at h
  exact ⟨⟨b.number - 1, by omega, by omega⟩, dif_pos ⟨by omega, by omega⟩, rfl⟩

/-- The date with the given year, month and day, if the calendar and the range have it. -/
def ofCivil? (c : Civil) : Option Date :=
  if c.isReal then ofNumber? c.dayNumber else none

/-- The year, month and day of a date. -/
def civil (d : Date) : Civil :=
  let (year, dayOfYear) := splitYear (d.number + epochOffset)
  let (month, day) := splitMonths (monthLengths year) 1 dayOfYear
  ⟨year, month, day⟩

/-- Saturday or Sunday; 1970-01-01 was a Thursday. -/
def isWeekend (d : Date) : Bool := 5 ≤ (d.number + 3) % 7

end Date

end IssueFlow.Calendar
