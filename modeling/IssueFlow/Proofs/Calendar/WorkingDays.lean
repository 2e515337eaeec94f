import IssueFlow.Calendar.Walk
import Mathlib.Data.List.Basic

/-!
# Counting working days

`workingDays` subtracts two numbers of days before a date. Here it is compared with a walk: from
the day after the first date on, day by day, counting what is neither Saturday nor Sunday
(`workingDays_eq_countP_upTo`). Both move by one step of the week from a day to the next
(`workingDaysBefore_succ`), which is all that the comparison rests on; neither months nor years nor
the sign of a year come in.

Main statement: `workingDays_laws`, additivity, whole weeks with the days that are left over, and
the bounds.
-/

namespace IssueFlow.Calendar

/-! ## The days before a day -/

section

variable {m n : Int}

theorem workingDaysBefore_succ (n : Int) : workingDaysBefore (n + 1) =
    workingDaysBefore n + if 5 ≤ (n + 3) % 7 then 0 else 1 := by
  unfold workingDaysBefore
  split <;> omega

theorem workingDaysBefore_mono (h : m ≤ n) : workingDaysBefore m ≤ workingDaysBefore n := by
  unfold workingDaysBefore
  omega

theorem workingDaysBefore_sub_le (h : m ≤ n) :
    workingDaysBefore n - workingDaysBefore m ≤ n - m := by
  unfold workingDaysBefore
  omega

theorem workingDaysBefore_add_weeks (n k : Int) :
    workingDaysBefore (n + 7 * k) = workingDaysBefore n + 5 * k := by
  unfold workingDaysBefore
  omega

end

/-! ## Walks -/

/-- The first date of the range. -/
def Date.first : Date := ⟨firstDay, Int.le_refl firstDay, Date.last.first_le⟩

/-- The dates that a walk comes to on the given number of days after a date. -/
def Date.following (a : Date) (n : Nat) : List Date :=
  (List.range n).filterMap fun i : Nat => Date.walked? (a.number + 1 + i)

/-- The number of Monday-to-Friday dates in a list. -/
def countWorkingDays (ds : List Date) : Nat := ds.countP fun d => !d.isWeekend

section

variable {a b c d : Date} {n : Nat}

theorem Date.following_succ (a : Date) (n : Nat) :
    a.following (n + 1) = a.following n ++ (Date.walked? (a.number + 1 + n)).toList := by
  simp only [Date.following, List.range_succ, List.filterMap_append, List.filterMap_cons,
    List.filterMap_nil]
  cases Date.walked? (a.number + 1 + n) <;> rfl

/-- A walk up to a date starts with its first date, unless that is the last one of all. -/
theorem Date.upTo_eq_cons (h : a ≤ b) (ha : a < Date.last) :
    Date.upTo a b = a :: a.following (b.number - a.number).toNat := by
  rw [Date.le_def] at h
  have hlength : (b.number + 1 - a.number).toNat = (b.number - a.number).toNat + 1 := by omega
  have hfirst : Date.walked? (a.number + (0 : Nat)) = some a :=
    Date.walked?_eq_some_iff.2 ⟨by omega, ha⟩
  have hshift (i : Nat) : a.number + (i.succ : Nat) = a.number + 1 + i := by omega
  rw [Date.upTo, hlength, List.range_succ_eq_map, List.filterMap_cons]
  simp only [hfirst, List.filterMap_map, Function.comp_def, hshift, Date.following]

theorem countWorkingDays_walked? (n : Int) (h : firstDay ≤ n) :
    countWorkingDays (Date.walked? n).toList =
      if n < lastDay ∧ (n + 3) % 7 < 5 then 1 else 0 := by
  by_cases hlast : n < lastDay
  · have hwalked : Date.walked? n = some ⟨n, h, by omega⟩ :=
      Date.walked?_eq_some_iff.2 ⟨rfl, hlast⟩
    simp only [hwalked, Option.toList_some, countWorkingDays, List.countP_singleton,
      Date.isWeekend, Bool.not_eq_true', decide_eq_false_iff_not, Int.not_le, hlast, true_and]
  · simp only [Date.walked?, hlast, if_false, false_and, Option.toList_none, countWorkingDays,
      List.countP_nil]

/-- By induction on the length of the walk, which stops growing in front of the last date. -/
theorem countWorkingDays_following (ha : a < Date.last) (n : Nat) :
    (countWorkingDays (a.following n) : Int) =
      workingDaysBefore (min (a.number + n) (lastDay - 1) + 1) -
        workingDaysBefore (a.number + 1) := by
  have hfirst := a.first_le
  have ha : a.number < lastDay := ha
  induction n with
  | zero =>
    have hstop : min (a.number + (0 : Nat)) (lastDay - 1) = a.number := by omega
    rw [hstop, Int.sub_self]
    rfl
  | succ n ih =>
    have hstep := workingDaysBefore_succ (a.number + 1 + n)
    have hmore : countWorkingDays (a.following (n + 1)) = countWorkingDays (a.following n) +
        countWorkingDays (Date.walked? (a.number + 1 + n)).toList := by
      rw [Date.following_succ]
      exact List.countP_append
    rw [hmore, countWorkingDays_walked? _ (by omega), Int.natCast_add, ih]
    by_cases hlast : a.number + 1 + n < lastDay
    · have hold : min (a.number + (n : Int)) (lastDay - 1) + 1 = a.number + 1 + n := by omega
      have hnew : min (a.number + ((n + 1 : Nat) : Int)) (lastDay - 1) + 1 =
          a.number + 1 + n + 1 := by
        omega
      rw [hold, hnew, hstep]
      split <;> split <;> omega
    · have hsame : min (a.number + ((n + 1 : Nat) : Int)) (lastDay - 1) =
          min (a.number + (n : Int)) (lastDay - 1) := by
        omega
      rw [hsame, if_neg fun hwalked => hlast hwalked.1]
      omega

/-! ## The count -/

theorem workingDays_eq_zero (h : b ≤ a) : workingDays a b = 0 := by
  rw [Date.le_def] at h
  have hmono : workingDaysBefore (min b.number (lastDay - 1) + 1) ≤
      workingDaysBefore (a.number + 1) :=
    workingDaysBefore_mono (by omega)
  rw [workingDays]
  omega

/-- The number of working days is that of the working days on a walk, its first date left out. -/
theorem workingDays_eq_countP_upTo (a b : Date) :
    workingDays a b = countWorkingDays (Date.upTo a b).tail := by
  by_cases h : a < b
  · have ha : a < Date.last := Int.lt_of_lt_of_le h b.le_last
    rw [Date.lt_def] at h
    have hcount := countWorkingDays_following ha (b.number - a.number).toNat
    have hlength : a.number + ((b.number - a.number).toNat : Int) = b.number := by omega
    rw [hlength] at hcount
    rw [Date.upTo_eq_cons (Int.le_of_lt h) ha, List.tail_cons, workingDays, ← hcount,
      Int.toNat_natCast]
  · have hle : b ≤ a := Int.not_lt.1 h
    rw [workingDays_eq_zero hle]
    rw [Date.le_def] at hle
    have hshort : (b.number + 1 - a.number).toNat ≤ 1 := by omega
    have hlength : (Date.upTo a b).tail.length = 0 := by
      have := List.length_filterMap_le (fun i : Nat => Date.walked? (a.number + i))
        (List.range (b.number + 1 - a.number).toNat)
      rw [List.length_range] at this
      rw [List.length_tail, Date.upTo]
      omega
    rw [List.eq_nil_of_length_eq_zero hlength]
    rfl

theorem workingDays_add (hab : a ≤ b) (hbc : b ≤ c) :
    workingDays a c = workingDays a b + workingDays b c := by
  rw [Date.le_def] at hab hbc
  have hc := c.le_last
  by_cases hb : b.number < lastDay
  · have hstop : min b.number (lastDay - 1) = b.number := by omega
    have hleft : workingDaysBefore (a.number + 1) ≤ workingDaysBefore (b.number + 1) :=
      workingDaysBefore_mono (by omega)
    have hright : workingDaysBefore (b.number + 1) ≤
        workingDaysBefore (min c.number (lastDay - 1) + 1) :=
      workingDaysBefore_mono (by omega)
    simp only [workingDays, hstop]
    omega
  · have hsame : c = b := Date.ext (by omega)
    rw [hsame, workingDays_eq_zero (Date.le_refl b), Nat.add_zero]

theorem workingDays_mono (hca : c ≤ a) (hab : a ≤ b) (hbd : b ≤ d) :
    workingDays a b ≤ workingDays c d := by
  have hfirst := workingDays_add hca (Date.le_trans hab hbd)
  have hsecond := workingDays_add hab hbd
  omega

/-- Whole weeks have five working days each, the days that are left over stand after the date. -/
theorem workingDays_add_weeks {k r : Nat} (hb : b.number = a.number + (7 * k + r : Nat))
    (hlast : b < Date.last) :
    workingDays a b = 5 * k + countWorkingDays (a.following r) := by
  have hb' : b.number < lastDay := hlast
  have ha : a < Date.last := Int.lt_of_le_of_lt (by omega) hb'
  have hcount := countWorkingDays_following ha r
  have hrest : min (a.number + (r : Int)) (lastDay - 1) = a.number + r := by omega
  have hstop : min b.number (lastDay - 1) + 1 = a.number + r + 1 + 7 * (k : Int) := by omega
  rw [hrest] at hcount
  rw [workingDays, hstop, workingDaysBefore_add_weeks]
  omega

theorem workingDays_le (a b : Date) : workingDays a b ≤ (b.number - a.number).toNat := by
  by_cases h : a ≤ b
  · rw [Date.le_def] at h
    have hb := b.le_last
    by_cases ha : a.number < lastDay
    · have hsub := workingDaysBefore_sub_le (m := a.number + 1)
        (n := min b.number (lastDay - 1) + 1) (by omega)
      rw [workingDays]
      omega
    · rw [workingDays_eq_zero (by rw [Date.le_def]; omega)]
      omega
  · rw [workingDays_eq_zero (Int.le_of_lt (Int.not_le.1 h))]
    omega

/-- The dates span fewer days than there are numbers of 32 bits. -/
theorem workingDays_lt_size (a b : Date) : workingDays a b < UInt32.size := by
  have hle := workingDays_le a b
  have ha := a.first_le
  have hb := b.le_last
  simp only [firstDay, lastDay, UInt32.size] at *
  omega

end

/-- Working days as a walk counts them: they add up, five a week, at most one a day, and always fit
into 32 bits, so a conversion that stops at the greatest number never does. -/
theorem workingDays_laws (a b c : Date) :
    workingDays a b = countWorkingDays (Date.upTo a b).tail ∧
    (a ≤ b → b ≤ c → workingDays a c = workingDays a b + workingDays b c) ∧
    (∀ k r : Nat, a.number + (7 * k + r : Nat) < lastDay →
      ∃ e, Date.ofNumber? (a.number + (7 * k + r : Nat)) = some e ∧
        workingDays a e = 5 * k + countWorkingDays (a.following r)) ∧
    (b ≤ a → workingDays a b = 0) ∧
    workingDays a b ≤ (b.number - a.number).toNat ∧
    (UInt32.ofNatClamp (workingDays a b)).toNat = workingDays a b := by
  refine ⟨workingDays_eq_countP_upTo a b, workingDays_add, fun k r hlast => ?_,
    workingDays_eq_zero, workingDays_le a b,
    UInt32.toNat_ofNatClamp_of_lt (workingDays_lt_size a b)⟩
  have ha := a.first_le
  have hrange : firstDay ≤ a.number + (7 * k + r : Nat) ∧
      a.number + (7 * k + r : Nat) ≤ lastDay := by
    omega
  exact ⟨⟨_, hrange.1, hrange.2⟩, dif_pos hrange, workingDays_add_weeks rfl hlast⟩

/-- A Thursday, the last one of the year before the year zero. -/
def lateBeforeYearZero : Date := (Date.ofCivil? ⟨-1, 12, 30⟩).getD .last

/-- The year zero is a leap year. -/
def leapDayOfYearZero : Date := (Date.ofCivil? ⟨0, 2, 29⟩).getD .last

theorem workingDays_laws_leapDayOfYearZero :
    lateBeforeYearZero ≤ leapDayOfYearZero ∧ leapDayOfYearZero ≤ Date.last ∧
      workingDays lateBeforeYearZero Date.last =
        workingDays lateBeforeYearZero leapDayOfYearZero + workingDays leapDayOfYearZero Date.last ∧
      Date.ofNumber? (lateBeforeYearZero.number + (7 * 8 + 5 : Nat)) = some leapDayOfYearZero ∧
      workingDays lateBeforeYearZero leapDayOfYearZero = 5 * 8 + 3 ∧
      workingDays Date.last leapDayOfYearZero = 0 := by
  have hab : lateBeforeYearZero ≤ leapDayOfYearZero := by decide +kernel
  have hbc : leapDayOfYearZero ≤ Date.last := by decide +kernel
  have hleap : Date.ofNumber? (lateBeforeYearZero.number + (7 * 8 + 5 : Nat)) =
      some leapDayOfYearZero := by
    decide +kernel
  have hlate : lateBeforeYearZero.number + (7 * 8 + 5 : Nat) < lastDay := by decide +kernel
  obtain ⟨-, hadd, hweeks, -⟩ := workingDays_laws lateBeforeYearZero leapDayOfYearZero Date.last
  obtain ⟨-, -, -, hzero, -⟩ := workingDays_laws Date.last leapDayOfYearZero Date.last
  obtain ⟨e, he, hcount⟩ := hweeks 8 5 hlate
  obtain rfl := Option.some.inj (he.symm.trans hleap)
  exact ⟨hab, hbc, hadd hab hbc, hleap, hcount, hzero hbc⟩

end IssueFlow.Calendar
