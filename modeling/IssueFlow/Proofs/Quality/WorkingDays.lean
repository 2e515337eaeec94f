import Mathlib
import IssueFlow.Proofs.Calendar.WorkingDays
import IssueFlow.Proofs.Quality.Summary

/-!
# Room for the working days

A summary adds up the working days of its transitions in 32 bits and divides them by the number of
transitions. The sum is the total as long as that is below `2 ^ 32`, and what is left of the total
from there on. A transition has no more working days than lie between the first date and the last,
which is some 137 million: so 31 transitions always have room (`totalWorkingDays_lt_of_length_le`).
A reopen clears no closure, so one closure may stand behind any number of reopens, and 32 of them
may not have room (`meanDwellWorkingDays_wrapped_lastDate`).

Main statement: `meanDwellWorkingDays_wrapped`.
-/

namespace IssueFlow.Quality

open IssueFlow.Calendar IssueFlow.Tracker IssueFlow.Rules

/-- The working days from the closure of a transition to its reopen. -/
def ReopenTransition.dwellDays (t : ReopenTransition) : Nat :=
  Calendar.workingDays t.closedAt.date t.reopenedAt.date

/-- The working days of all transitions. -/
def totalWorkingDays (ts : List ReopenTransition) : Nat := (ts.map ReopenTransition.dwellDays).sum

section

variable {ts : List ReopenTransition} {first last : Date}

/-- The days of one transition always fit into 32 bits. -/
theorem toNat_workingDays (t : ReopenTransition) : t.workingDays.toNat = t.dwellDays :=
  UInt32.toNat_ofNat_of_lt (workingDays_lt_size _ _)

theorem toNat_workingDaySum (ts : List ReopenTransition) :
    (workingDaySum ts).toNat = totalWorkingDays ts % UInt32.size := by
  have hfold (start : UInt32) : ((ts.map ReopenTransition.workingDays).foldl (· + ·) start).toNat =
      (start.toNat + totalWorkingDays ts) % UInt32.size := by
    induction ts generalizing start with
    | nil =>
      simp only [totalWorkingDays, List.map_nil, List.sum_nil, Nat.add_zero]
      exact (Nat.mod_eq_of_lt start.toNat_lt).symm
    | cons t ts ih =>
      rw [List.map_cons, List.foldl_cons, ih, UInt32.toNat_add, toNat_workingDays]
      simp only [totalWorkingDays, List.map_cons, List.sum_cons, UInt32.size, Nat.mod_add_mod,
        Nat.add_assoc]
  rw [workingDaySum, hfold, UInt32.toNat_zero, Nat.zero_add]

theorem dwellDays_le {t : ReopenTransition} (hfirst : first ≤ t.closedAt.date)
    (hlast : t.reopenedAt.date ≤ last) : t.dwellDays ≤ Calendar.workingDays first last := by
  by_cases h : t.closedAt.date ≤ t.reopenedAt.date
  · exact workingDays_mono hfirst h hlast
  · rw [ReopenTransition.dwellDays, workingDays_eq_zero (Int.le_of_lt (Int.not_le.1 h))]
    exact Nat.zero_le _

theorem totalWorkingDays_le
    (h : ∀ t ∈ ts, first ≤ t.closedAt.date ∧ t.reopenedAt.date ≤ last) :
    totalWorkingDays ts ≤ ts.length * Calendar.workingDays first last := by
  have hle : ∀ days ∈ ts.map ReopenTransition.dwellDays,
      days ≤ Calendar.workingDays first last := by
    intro days hdays
    obtain ⟨t, ht, rfl⟩ := List.mem_map.1 hdays
    exact dwellDays_le (h t ht).1 (h t ht).2
  have hsum := List.sum_le_card_nsmul _ _ hle
  rwa [List.length_map, smul_eq_mul] at hsum

/-- No matter when they are, 31 closures and reopens have room for their working days. -/
theorem totalWorkingDays_lt_of_length_le (h : ts.length ≤ 31) :
    totalWorkingDays ts < UInt32.size := by
  have hspan : Calendar.workingDays Date.first Date.last = 136779661 := by decide +kernel
  have hle : totalWorkingDays ts ≤ ts.length * Calendar.workingDays Date.first Date.last :=
    totalWorkingDays_le fun t _ => ⟨t.closedAt.date.first_le, t.reopenedAt.date.le_last⟩
  rw [hspan] at hle
  simp only [UInt32.size]
  omega

end

/-- The mean is that of the total less all multiples of `2 ^ 32`. It is the true mean if the total
is below, so for few transitions or for transitions within dates that are close together. -/
theorem meanDwellWorkingDays_wrapped (ts : List ReopenTransition) :
    (ReopenSummary.ofTransitions ts).meanDwellWorkingDays =
        (if ts.isEmpty then none
        else some (Float.ofNat (totalWorkingDays ts % UInt32.size) / Float.ofNat ts.length)) ∧
      ((workingDaySum ts).toNat = totalWorkingDays ts ↔ totalWorkingDays ts < UInt32.size) ∧
      (totalWorkingDays ts < UInt32.size →
        (ReopenSummary.ofTransitions ts).meanDwellWorkingDays =
          if ts.isEmpty then none
          else some (Float.ofNat (totalWorkingDays ts) / Float.ofNat ts.length)) ∧
      (∀ first last : Date,
        (∀ t ∈ ts, first ≤ t.closedAt.date ∧ t.reopenedAt.date ≤ last) →
        ts.length * Calendar.workingDays first last < UInt32.size →
        totalWorkingDays ts < UInt32.size) ∧
      (ts.length ≤ 31 → totalWorkingDays ts < UInt32.size) := by
  have hmean : (ReopenSummary.ofTransitions ts).meanDwellWorkingDays =
      if ts.isEmpty then none
      else some (Float.ofNat (totalWorkingDays ts % UInt32.size) / Float.ofNat ts.length) := by
    rw [← toNat_workingDaySum]
    rfl
  refine ⟨hmean, ?_, fun hroom => ?_, fun first last hdates hroom => ?_,
    totalWorkingDays_lt_of_length_le⟩
  · rw [toNat_workingDaySum, Nat.mod_eq_iff_lt (by decide)]
  · rw [hmean, Nat.mod_eq_of_lt hroom]
  · exact Nat.lt_of_le_of_lt (totalWorkingDays_le hdates) hroom

/-- A defect that was closed on the first date of all and opened again on another one, again and
again. -/
def reopenedOn (date : String) (times : Nat) : IssueHistory where
  issue := ⟨"D-1", "A"⟩
  created := "-262143-01-01"
  log := ⟨"Open", "Closed", "-262143-01-01"⟩ :: List.replicate times ⟨"Closed", "Reopened", date⟩

def closesAndReopens : Classification :=
  { closed := .ofList ["Closed"], reopen := some "Reopened" }

/-- The reopens of a defect up to a date. -/
def reopensUntil (stop : Date) (raw : IssueHistory) : List ReopenTransition :=
  let window : Window := ⟨.startOf .first, .startOf stop⟩
  (detectAll ⟨.ofList [("A", closesAndReopens)]⟩ window {} [raw]).transitions

/-- On the last date of all, 31 reopens have room and one more has none. -/
theorem meanDwellWorkingDays_wrapped_lastDate :
    (reopensUntil .last (reopenedOn "+262142-12-31" 31)).length = 31 ∧
      (ReopenSummary.ofTransitions
          (reopensUntil .last (reopenedOn "+262142-12-31" 31))).meanDwellWorkingDays =
        some (136779661 : Float) ∧
      UInt32.size ≤ totalWorkingDays (reopensUntil .last (reopenedOn "+262142-12-31" 32)) := by
  have hlength : (reopensUntil .last (reopenedOn "+262142-12-31" 31)).length = 31 := by
    decide +kernel
  have htotal : totalWorkingDays (reopensUntil .last (reopenedOn "+262142-12-31" 31)) =
      31 * 136779661 := by
    decide +kernel
  obtain ⟨-, -, hmean, -, hroom⟩ :=
    meanDwellWorkingDays_wrapped (reopensUntil .last (reopenedOn "+262142-12-31" 31))
  refine ⟨hlength, ?_, by decide +kernel⟩
  rw [hmean (hroom hlength.le), htotal, hlength]
  decide +kernel

/-- The last date with a year of four digits. -/
def endOf9999 : Date := (Date.ofCivil? ⟨9999, 12, 31⟩).getD .last

theorem workingDaySum_reopenedIn9999 :
    (reopensUntil endOf9999 (reopenedOn "9999-12-31" 61)).length = 61 ∧
      totalWorkingDays (reopensUntil endOf9999 (reopenedOn "9999-12-31" 61)) = 61 * 70998706 ∧
      (workingDaySum (reopensUntil endOf9999 (reopenedOn "9999-12-31" 61))).toNat =
        61 * 70998706 - UInt32.size ∧
      (ReopenSummary.ofTransitions
          (reopensUntil endOf9999 (reopenedOn "9999-12-31" 61))).meanDwellWorkingDays ≠
        some (Float.ofNat (61 * 70998706) / Float.ofNat 61) := by
  decide +kernel

end IssueFlow.Quality
