import IssueFlow.Calendar.Date

/-!
# Instants

A point in UTC: a date, a second of the day and nanoseconds. A leap second is the second after
second 59 of a minute; it is stored as second 59 with nanoseconds from one to two thousand million,
so it sorts after second 59 and before the next minute. `rank` orders instants; the difference of
two instants (`Instant.nanosecondsTo`) takes days and time of day apart.
-/

namespace IssueFlow.Calendar

/-- Nanoseconds in a second. -/
def giga : Nat := 1000000000

def secondsPerDay : Nat := 86400

/-- A point in UTC. -/
structure Instant where
  date : Date
  second : Nat
  nano : Nat
  second_lt : second < secondsPerDay
  nano_lt : nano < 2 * giga
  leap_last : giga ≤ nano → second % 60 = 59
  deriving DecidableEq

namespace Instant

/-- The position of an instant on the line of all of them. -/
def rank (t : Instant) : Int :=
  (t.date.number * secondsPerDay + t.second) * (2 * giga : Nat) + t.nano

theorem ext {a b : Instant} (hd : a.date = b.date) (hs : a.second = b.second)
    (hn : a.nano = b.nano) : a = b := by
  cases a; cases b; simp_all

theorem rank_inj {a b : Instant} (h : a.rank = b.rank) : a = b := by
  have ha := a.second_lt
  have hb := b.second_lt
  have ha' := a.nano_lt
  have hb' := b.nano_lt
  simp only [rank, secondsPerDay, giga] at h ha hb ha' hb'
  have hn : a.nano = b.nano := by omega
  have hs : a.second = b.second := by omega
  exact ext (Date.ext (by omega)) hs hn

/-! ## Order -/

instance : LE Instant := ⟨fun a b => a.rank ≤ b.rank⟩

instance : LT Instant := ⟨fun a b => a.rank < b.rank⟩

instance (a b : Instant) : Decidable (a ≤ b) := inferInstanceAs (Decidable (a.rank ≤ b.rank))

instance (a b : Instant) : Decidable (a < b) := inferInstanceAs (Decidable (a.rank < b.rank))

instance : Ord Instant := ⟨compareOn Instant.rank⟩

instance : Std.TransOrd Instant := inferInstanceAs (Std.TransCmp (compareOn Instant.rank))

instance : Std.LawfulEqOrd Instant where
  eq_of_compare h := rank_inj (Std.LawfulEqOrd.eq_of_compare (α := Int) h)

instance : Min Instant := ⟨fun a b => if a ≤ b then a else b⟩

theorem le_def {a b : Instant} : a ≤ b ↔ a.rank ≤ b.rank := Iff.rfl

theorem lt_def {a b : Instant} : a < b ↔ a.rank < b.rank := Iff.rfl

/-- A later instant does not lie on an earlier date. -/
theorem date_le_of_le {a b : Instant} (h : a ≤ b) : a.date ≤ b.date := by
  have ha := a.second_lt
  have hb := b.second_lt
  have hn := b.nano_lt
  rw [le_def] at h
  rw [Date.le_def]
  simp only [rank, secondsPerDay, giga] at h ha hb hn
  omega

/-! ## Construction -/

/-- Midnight at the start of a date. -/
def startOf (d : Date) : Instant :=
  ⟨d, 0, 0, by decide, by decide, by decide⟩

/-- The given time of a date. Second 60 is the leap second of its minute. -/
def ofParts? (d : Date) (hour minute second nano : Nat) : Option Instant :=
  if h : hour < 24 ∧ minute < 60 ∧ second ≤ 60 ∧ nano < giga then
    if hs : second = 60 then
      some ⟨d, hour * 3600 + minute * 60 + 59, giga + nano,
        by simp only [secondsPerDay]; omega, by omega, by omega⟩
    else
      some ⟨d, hour * 3600 + minute * 60 + second, nano,
        by simp only [secondsPerDay]; omega, by omega, by omega⟩
  else none

/-- Seconds from 1970-01-01T00:00:00Z; a leap second counts as the second before it. -/
def unixSeconds (t : Instant) : Int :=
  t.date.number * secondsPerDay + t.second

/-- The instant that reads the same on a clock the given number of minutes earlier. -/
def minutesEarlier? (t : Instant) (minutes : Int) : Option Instant :=
  let seconds := t.unixSeconds - 60 * minutes
  (Date.ofNumber? (seconds / 86400)).map fun d =>
    { date := d
      second := (seconds % 86400).toNat
      nano := t.nano
      second_lt := by simp only [secondsPerDay]; omega
      nano_lt := t.nano_lt
      leap_last := fun h => by
        have := t.leap_last h
        simp only [seconds, unixSeconds, secondsPerDay]
        omega }

/-! ## Difference -/

/-- Whether the instant lies in a leap second. -/
def inLeapSecond (t : Instant) : Bool := giga ≤ t.nano

/--
Seconds from one time of day to another: a leap second at the start counts when the end is in a
later second, one at the end when the start is in a later second.
-/
def clockSecondsTo (a b : Instant) : Int :=
  (b.second : Int) - a.second +
    (if a.second < b.second ∧ a.inLeapSecond then 1
     else if b.second < a.second ∧ b.inLeapSecond then -1 else 0)

/-- Nanoseconds from one instant to another, days and time of day taken apart. -/
def nanosecondsTo (a b : Instant) : Int :=
  ((b.date.number - a.date.number) * secondsPerDay + clockSecondsTo a b) * giga +
    ((b.nano : Int) - a.nano)

/-- Whole milliseconds from one instant to another, the rest cut off toward zero. -/
def millisecondsTo (a b : Instant) : Int :=
  (nanosecondsTo a b).tdiv 1000000

/-- Hours from one instant to another, negative if the second comes first. -/
def hoursTo (a b : Instant) : Float :=
  Float.ofInt (millisecondsTo a b) / 1000 / 3600

end Instant

/-- Both ends belong to a window. -/
structure Window where
  start : Instant
  stop : Instant
  deriving DecidableEq

namespace Window

def contains (w : Window) (t : Instant) : Bool := w.start ≤ t && t ≤ w.stop

/-- Whether each window starts no later than the other ends. -/
def overlaps (v w : Window) : Bool := v.start ≤ w.stop && w.start ≤ v.stop

theorem contains_iff {w : Window} {t : Instant} :
    w.contains t = true ↔ w.start ≤ t ∧ t ≤ w.stop := by
  simp [contains]

theorem overlaps_comm (v w : Window) : v.overlaps w = w.overlaps v := by
  simp only [overlaps, Bool.and_comm]

end Window

end IssueFlow.Calendar
