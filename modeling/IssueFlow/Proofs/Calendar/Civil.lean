import IssueFlow.Calendar.Date

/-!
# Civil dates

Every date has a year, a month and a day that the calendar has, and they name the date again
(`ofCivil?_civil`). A day number is split into cycles of 400, 100, 4 and 1 years and then along the
lengths of the months; both splits lose nothing (`splitYear_spec`, `splitMonths_spec`).
-/

namespace IssueFlow.Calendar

/-- The number of days of a year. -/
def daysInYear (year : Int) : Nat := if isLeap year then 366 else 365

theorem isLeap_iff {year : Int} :
    isLeap year = true ↔ year % 4 = 0 ∧ (year % 100 ≠ 0 ∨ year % 400 = 0) := by
  simp [isLeap]

theorem foldr_monthLengths (year : Int) :
    (monthLengths year).foldr (· + ·) 0 = daysInYear year := by
  unfold monthLengths daysInYear
  split <;> rfl

/-! ## Years -/

section

variable {cycle century four one : Int} (hcentury : 0 ≤ century ∧ century ≤ 3)
  (hfour : 0 ≤ four ∧ four ≤ 24) (hone : 0 ≤ one ∧ one ≤ 3)

include hcentury hfour hone

theorem daysBeforeYear_split :
    daysBeforeYear (400 * cycle + 100 * century + 4 * four + one + 1) =
      146097 * cycle + 36524 * century + 1461 * four + 365 * one := by
  unfold daysBeforeYear
  omega

/-- The last year of four is a leap year, but not that of the last four years of a century, unless
the century is the last one of its cycle. -/
theorem isLeap_split : isLeap (400 * cycle + 100 * century + 4 * four + one + 1) = true ↔
    one = 3 ∧ (four < 24 ∨ century = 3) := by
  rw [isLeap_iff]
  omega

end

/-- The day of the year is counted from the first day of the year, and the year has it. -/
theorem splitYear_spec (n : Int) :
    daysBeforeYear (splitYear n).1 + (splitYear n).2 = n ∧
      (splitYear n).2 < daysInYear (splitYear n).1 := by
  simp only [splitYear]
  generalize hcentury : min (n % 146097 / 36524) 3 = century
  generalize hinCentury : n % 146097 - 36524 * century = inCentury
  generalize hone : min (inCentury % 1461 / 365) 3 = one
  have hcentury : 0 ≤ century ∧ century ≤ 3 := by omega
  have hcenturyEnd : 0 ≤ inCentury ∧ inCentury ≤ 36524 ∧ (century < 3 → inCentury < 36524) := by
    omega
  have hfour : 0 ≤ inCentury / 1461 ∧ inCentury / 1461 ≤ 24 := by omega
  have hone : 0 ≤ one ∧ one ≤ 3 := by omega
  have hday : 0 ≤ inCentury % 1461 - 365 * one ∧ inCentury % 1461 - 365 * one ≤ 365 ∧
      (one < 3 → inCentury % 1461 - 365 * one < 365) := by
    omega
  rw [daysBeforeYear_split hcentury hfour hone, daysInYear]
  simp only [isLeap_split hcentury hfour hone]
  refine ⟨by omega, ?_⟩
  split <;> omega

/-! ## Months -/

/-- The day is a day of one of the months, behind the months before it. -/
theorem splitMonths_spec (month : Nat) {lengths : List Nat} {day : Nat}
    (h : day < lengths.foldr (· + ·) 0) :
    ∃ before n after k, lengths = before ++ n :: after ∧ k < n ∧
      day = before.foldr (· + ·) 0 + k ∧
      splitMonths lengths month day = (month + before.length, k + 1) := by
  induction lengths generalizing month day with
  | nil => cases h
  | cons n lengths ih =>
    rw [List.foldr_cons] at h
    rw [splitMonths]
    split
    · next hday => exact ⟨[], n, lengths, day, rfl, hday, by simp, rfl⟩
    · next hday =>
      obtain ⟨before, m, after, k, rfl, hk, hsum, hsplit⟩ :=
        @ih (month + 1) (day - n) (by omega)
      refine ⟨n :: before, m, after, k, rfl, hk, ?_, ?_⟩
      · rw [List.foldr_cons]
        omega
      · rw [hsplit, List.length_cons]
        congr 1
        omega

/-! ## Dates -/

/-- No year has more than twelve months, and no month more than 31 days. -/
theorem Civil.le_of_isReal {c : Civil} (h : c.isReal = true) : c.month ≤ 12 ∧ c.day ≤ 31 := by
  obtain ⟨year, _ | m, day⟩ := c
  · cases h
  simp only [isReal] at h
  split at h
  · cases h
  · next n hn =>
    obtain ⟨hm, rfl⟩ := List.getElem?_eq_some_iff.1 hn
    have hlength : ∀ n ∈ monthLengths year, n ≤ 31 := by
      unfold monthLengths
      split <;> decide
    have hle := hlength _ (List.getElem_mem hm)
    have hcount : (monthLengths year).length = 12 := rfl
    simp only [Bool.and_eq_true, decide_eq_true_eq] at h
    show m + 1 ≤ 12 ∧ day ≤ 31
    omega

namespace Date

theorem civil_spec (d : Date) : d.civil.isReal = true ∧ d.civil.dayNumber = d.number := by
  obtain ⟨hyear, hlt⟩ := splitYear_spec (d.number + epochOffset)
  rw [← foldr_monthLengths] at hlt
  obtain ⟨before, n, after, k, hlengths, hk, hday, hsplit⟩ := splitMonths_spec 1 hlt
  have hcivil : d.civil = ⟨(splitYear (d.number + epochOffset)).1, 1 + before.length, k + 1⟩ := by
    simp only [civil, hsplit]
  rw [hcivil]
  constructor
  · have hlength : (before ++ n :: after)[before.length]? = some n := by simp
    simp only [Civil.isReal, Nat.add_comm 1, hlengths, hlength, Bool.and_eq_true, decide_eq_true_eq]
    omega
  · have hmonths : (before ++ n :: after).take (1 + before.length - 1) = before := by simp
    simp only [Civil.dayNumber, daysBeforeMonth, hlengths, hmonths]
    omega

theorem ofCivil?_civil (d : Date) : ofCivil? d.civil = some d := by
  obtain ⟨hreal, hnumber⟩ := d.civil_spec
  rw [ofCivil?, if_pos hreal, hnumber, ofNumber?, dif_pos ⟨d.first_le, d.le_last⟩]

end Date

end IssueFlow.Calendar
