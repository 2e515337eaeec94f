import IssueFlow.Proofs.Calendar.Difference
import IssueFlow.Proofs.Calendar.Hours
import IssueFlow.Proofs.Quality.Reopen

/-!
# Dwell times

Every reopen comes after the closure to which it is dated back. Its dwell time is their difference
in hours, which is taken from whole milliseconds: so it is positive just if the two instants are at
least one apart (`dwellHours_pos_iff`). A reopen less than a millisecond after its closure counts
with no dwell time at all, and one just after a leap second at midnight with none or a negative one.
-/

namespace IssueFlow.Quality

open IssueFlow.Calendar IssueFlow.Tracker

variable {raw : IssueHistory} {h : ResolvedHistory} {q : ReopenQuery} {a : ReopenTransition}

theorem dwell_of_mem_detectReopens (hr : raw.resolve = .ok h) (ha : a ∈ detectReopens q h) :
    a.closedAt < a.reopenedAt ∧ a.dwellHours = a.closedAt.hoursTo a.reopenedAt := by
  rw [detectReopens_eq_filterMap (IssueHistory.ascending_of_resolve hr)] at ha
  obtain ⟨m, -, hm⟩ := List.mem_filterMap.1 ha
  obtain ⟨hlt, htime⟩ := reopenedAt_of_transitionAfter? hm
  obtain ⟨-, -, -, -, heq⟩ := transitionAfter?_eq_some_iff.1 hm
  refine ⟨hlt, ?_⟩
  rw [htime]
  exact congrArg ReopenTransition.dwellHours heq

/-- The dwell time of a reopen is positive just if it is not within a millisecond of its closure and
does not lose one to a leap second at midnight; in a log written to whole milliseconds, always. -/
theorem dwellHours_pos_iff (hr : raw.resolve = .ok h) (q : ReopenQuery)
    (ha : a ∈ detectReopens q h) :
    a.closedAt < a.reopenedAt ∧ a.dwellHours = a.closedAt.hoursTo a.reopenedAt ∧
      (0 < a.dwellHours ↔ 1 ≤ a.closedAt.millisecondsTo a.reopenedAt) ∧
      (1 ≤ a.closedAt.millisecondsTo a.reopenedAt ↔
        ¬ Instant.CloserThan 1000000 a.closedAt a.reopenedAt ∧
          ¬ (Instant.OverLeapMidnight a.closedAt a.reopenedAt ∧
            a.reopenedAt.sinceMidnight < a.closedAt.intoLeapSecond + 1000000)) ∧
      (a.closedAt.OnMillisecond → a.reopenedAt.OnMillisecond → 0 < a.dwellHours) := by
  obtain ⟨hlt, hdwell⟩ := dwell_of_mem_detectReopens hr ha
  have hpos : 0 < a.dwellHours ↔ 1 ≤ a.closedAt.millisecondsTo a.reopenedAt := by
    rw [hdwell]
    exact Instant.hoursTo_pos_iff a.closedAt a.reopenedAt
  refine ⟨hlt, hdwell, hpos,
    Instant.one_le_millisecondsTo_iff_of_le (Instant.le_of_lt hlt), fun hclosed hreopened => ?_⟩
  exact hpos.2 (Instant.one_le_millisecondsTo_of_onMillisecond hlt hclosed hreopened)

/-- A defect that is closed in the leap second at the end of 2016 and opened again in the new year. -/
def reopenedOverLeap : IssueHistory where
  issue := ⟨"D-1", "A"⟩
  created := "2016-12-01"
  log := [⟨"Open", "Closed", "2016-12-31T23:59:60.050Z"⟩,
    ⟨"Closed", "Reopened", "2017-01-01T00:00:00.300Z"⟩]

/-- Early in 2017, after the leap second of 2016. -/
def earlyIn2017 : Instant :=
  { Instant.startOf2017 with
    nano := 300000000
    nano_lt := by decide
    leap_last := by decide }

/-- The years from 2017 on, with one closed status. -/
def since2017 : ReopenQuery where
  window := ⟨Instant.startOf2017, midnight 31⟩
  closed := .ofList ["Closed"]
  reopen := "Reopened"

/-- A leap second is lost here, but the new year is older than what is lost. -/
theorem dwellHours_pos_iff_reopenedOverLeap :
    ∃ h a, reopenedOverLeap.resolve = .ok h ∧ a ∈ detectReopens since2017 h ∧
      Instant.OverLeapMidnight a.closedAt a.reopenedAt ∧
      1 ≤ a.closedAt.millisecondsTo a.reopenedAt ∧ 0 < a.dwellHours := by
  have hmap : reopenedOverLeap.resolve.map (fun h => (detectReopens since2017 h).map fun a =>
      (a.closedAt, a.reopenedAt)) = .ok [(Instant.leapOf2016, earlyIn2017)] := by
    decide +kernel
  obtain ⟨h, hr, htransitions⟩ := IssueHistory.exists_of_map_resolve hmap
  obtain ⟨a, hlist, hpair⟩ := List.map_eq_singleton_iff.1 htransitions
  obtain ⟨hclosed, hreopened⟩ := Prod.mk.inj hpair
  have ha : a ∈ detectReopens since2017 h := hlist ▸ List.mem_singleton_self a
  obtain ⟨-, -, hpos, hmillis, -⟩ := dwellHours_pos_iff hr since2017 ha
  have hapart : 1 ≤ a.closedAt.millisecondsTo a.reopenedAt := by
    rw [hmillis, hclosed, hreopened]
    unfold Instant.CloserThan
    exact ⟨by decide, fun ⟨_, hlost⟩ => absurd hlost (by decide)⟩
  refine ⟨h, a, hr, ha, ?_, hapart, hpos.2 hapart⟩
  rw [hclosed, hreopened]
  exact ⟨by decide, by decide, by decide⟩

/-- A defect that is opened again within a millisecond of its closure. -/
def reopenedAtOnce : IssueHistory where
  issue := ⟨"D-1", "A"⟩
  created := "2024-01-01"
  log := [⟨"Open", "Closed", "2024-01-02T09:00:00.000000Z"⟩,
    ⟨"Closed", "Reopened", "2024-01-02T09:00:00.000400Z"⟩]

theorem detectReopens_reopenedAtOnce :
    ∃ h a, reopenedAtOnce.resolve = .ok h ∧ a ∈ detectReopens wholeJanuary h ∧
      a.closedAt < a.reopenedAt ∧ a.closedAt.millisecondsTo a.reopenedAt = 0 ∧
      ¬ 0 < a.dwellHours := by
  have hmap : reopenedAtOnce.resolve.map (fun h => (detectReopens wholeJanuary h).map fun a =>
      decide (a.closedAt < a.reopenedAt ∧ a.closedAt.millisecondsTo a.reopenedAt = 0 ∧
        ¬ 0 < a.dwellHours)) = .ok [true] := by
    decide +kernel
  obtain ⟨h, hr, htransitions⟩ := IssueHistory.exists_of_map_resolve hmap
  obtain ⟨a, hlist, hdwell⟩ := List.map_eq_singleton_iff.1 htransitions
  exact ⟨h, a, hr, hlist ▸ List.mem_singleton_self a, of_decide_eq_true hdwell⟩

end IssueFlow.Quality
