import IssueFlow.Calendar.Date

/-!
# Walking days

`Date.upTo` lists the dates between two bounds; like every walk over dates it never comes to the
last date of the range. `workingDays` counts Monday to Friday without walking, from the number of
such days before a given one.
-/

namespace IssueFlow.Calendar

/-- The date with the given day number, if a walk can come to it. -/
def Date.walked? (n : Int) : Option Date :=
  if n < lastDay then Date.ofNumber? n else none

/-- The dates from `first` to `last`, both included, without the last date of the range. -/
def Date.upTo (first last : Date) : List Date :=
  (List.range (last.number + 1 - first.number).toNat).filterMap fun i : Nat =>
    Date.walked? (first.number + i)

theorem Date.walked?_eq_some_iff {n : Int} {d : Date} :
    Date.walked? n = some d ↔ n = d.number ∧ d.number < lastDay := by
  have hd := d.first_le
  unfold Date.walked? Date.ofNumber?
  constructor
  · intro h
    split at h
    · next hn =>
      split at h
      · cases h
        exact ⟨rfl, hn⟩
      · cases h
    · cases h
  · rintro ⟨rfl, hn⟩
    rw [if_pos hn, dif_pos ⟨hd, by omega⟩]

theorem Date.mem_upTo {first last d : Date} :
    d ∈ Date.upTo first last ↔ first ≤ d ∧ d ≤ last ∧ d.number < lastDay := by
  unfold Date.upTo
  rw [List.mem_filterMap]
  constructor
  · rintro ⟨i, hi, hd⟩
    obtain ⟨hn, hlt⟩ := Date.walked?_eq_some_iff.1 hd
    have hi := List.mem_range.1 hi
    exact ⟨by rw [Date.le_def]; omega, by rw [Date.le_def]; omega, hlt⟩
  · rintro ⟨hf, hl, hlt⟩
    rw [Date.le_def] at hf hl
    refine ⟨(d.number - first.number).toNat, List.mem_range.2 (by omega), ?_⟩
    exact Date.walked?_eq_some_iff.2 ⟨by omega, hlt⟩

theorem Date.pairwise_upTo (first last : Date) : (Date.upTo first last).Pairwise (· < ·) := by
  unfold Date.upTo
  rw [List.pairwise_filterMap]
  refine List.pairwise_lt_range.imp fun {i j} hij a ha b hb => ?_
  have ha := (Date.walked?_eq_some_iff.1 ha).1
  have hb := (Date.walked?_eq_some_iff.1 hb).1
  rw [Date.lt_def]
  omega

/-- The Monday-to-Friday days before the day of that number, counted from the Monday 1969-12-29. -/
def workingDaysBefore (n : Int) : Int :=
  5 * ((n + 3) / 7) + min ((n + 3) % 7) 5

/-- The number of Monday-to-Friday dates after `first` and up to `last` on a walk from `first`. -/
def workingDays (first last : Date) : Nat :=
  let stop := min last.number (lastDay - 1)
  (workingDaysBefore (stop + 1) - workingDaysBefore (first.number + 1)).toNat

end IssueFlow.Calendar
