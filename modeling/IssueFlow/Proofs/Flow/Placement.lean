import IssueFlow.Proofs.Flow.Timeline
import Mathlib.Data.List.TakeWhile

/-!
# Placements of one issue

When an issue is placed on a day, said about that day and the days of the range before it.
`mem_statusPlacements_iff`: by status, on every tracked day of the range before the first one that
resolves closed. `mem_fieldPlacements_iff`: by field, on every tracked day that does not. On one day
an issue is placed under one value (`eq_of_mem_placements`).
-/

namespace IssueFlow.Flow

open IssueFlow.Calendar IssueFlow.Rules IssueFlow.Tracker

/-- The value of the issue on the day is tracked, and the day resolves closed. -/
def ClosedOn (c : Classification) (completed : Std.ExtTreeSet Date) (h : ResolvedHistory)
    (d : Date) : Prop :=
  ∃ v, dayValue? c h d = some v ∧ c.isExcluded v = false ∧ (c.isClosed v = true ∨ d ∈ completed)

section

variable {c : Classification} {h : ResolvedHistory} {rangeStart today d : Date}
  {completed : Std.ExtTreeSet Date} {selector : FieldSelector} {grouping : Grouping}

theorem mem_trackedDays_iff {v : String} (asc : h.Ascending) :
    (d, v) ∈ daysOf (trackedSegments c rangeStart today h) ↔
      rangeStart ≤ d ∧ d ≤ today ∧ d < Date.last ∧ dayValue? c h d = some v ∧
        c.isExcluded v = false := by
  have hdays : daysOf (trackedSegments c rangeStart today h) =
      (daysOf (segments c rangeStart today h)).filter fun day => !c.isExcluded day.2 :=
    daysOf_filter _ fun value => !c.isExcluded value
  rw [hdays, List.mem_filter, mem_daysOf_segments_iff asc, Bool.not_eq_true', and_assoc, and_assoc,
    and_assoc]
  exact Iff.rfl

theorem mem_statusPlacements_iff {v : String} (asc : h.Ascending) :
    (d, v) ∈ statusPlacements c completed rangeStart today h ↔
      rangeStart ≤ d ∧ d ≤ today ∧ d < Date.last ∧ dayValue? c h d = some v ∧
        c.isExcluded v = false ∧ ∀ e, rangeStart ≤ e → e ≤ d → ¬ ClosedOn c completed h e := by
  have hordered : Ordered (trackedSegments c rangeStart today h) :=
    (ordered_segments asc rangeStart today).sublist List.filter_sublist
  rw [statusPlacements, daysOf_takeWhile hordered fun value => !c.isClosed value,
    List.takeWhile_takeWhile, Order.mem_takeWhile_iff (pairwise_daysOf hordered),
    mem_trackedDays_iff asc]
  constructor
  · rintro ⟨⟨hr, ht, hl, hv, hx⟩, hall⟩
    refine ⟨hr, ht, hl, hv, hx, fun e hre hed hclosed => ?_⟩
    obtain ⟨w, hw, hxw, hcw⟩ := hclosed
    have het : e ≤ today ∧ e < Date.last := by
      simp only [Date.le_def, Date.lt_def] at *
      omega
    have hopen := hall (e, w) ((mem_trackedDays_iff asc).2 ⟨hre, het.1, het.2, hw, hxw⟩) hed
    simp only [Bool.not_eq_true', decide_eq_true_eq] at hopen
    rcases hcw with hcw | hcw
    · rw [hopen.2] at hcw
      cases hcw
    · rw [Std.ExtTreeSet.mem_iff_contains, hopen.1] at hcw
      cases hcw
  · rintro ⟨hr, ht, hl, hv, hx, hall⟩
    refine ⟨⟨hr, ht, hl, hv, hx⟩, fun ⟨e, w⟩ hday hed => ?_⟩
    obtain ⟨hre, -, -, hw, hxw⟩ := (mem_trackedDays_iff asc).1 hday
    have hopen : ¬ (c.isClosed w = true ∨ e ∈ completed) := fun hcw =>
      hall e hre hed ⟨w, hw, hxw, hcw⟩
    rw [not_or, Std.ExtTreeSet.mem_iff_contains, Bool.not_eq_true, Bool.not_eq_true] at hopen
    simp [hopen]

theorem mem_fieldPlacements_iff {f : String} (asc : h.Ascending) :
    (d, f) ∈ fieldPlacements c completed selector rangeStart today h ↔
      rangeStart ≤ d ∧ d ≤ today ∧ d < Date.last ∧ selector.valueOf h = f ∧
        ∃ v, dayValue? c h d = some v ∧ c.isExcluded v = false ∧ c.isClosed v = false ∧
          d ∉ completed := by
  have hdays := daysOf_filter (trackedSegments c rangeStart today h) fun v => !c.isClosed v
  simp only [fieldPlacements, hdays, List.mem_map, List.mem_filter, Prod.exists, Prod.mk.injEq,
    mem_trackedDays_iff asc, Bool.not_eq_true', ← Bool.not_eq_true, ← Std.ExtTreeSet.mem_iff_contains]
  constructor
  · rintro ⟨d, v, ⟨⟨⟨hr, ht, hl, hv, hx⟩, hc⟩, hd⟩, rfl, rfl⟩
    exact ⟨hr, ht, hl, rfl, v, hv, hx, hc, hd⟩
  · rintro ⟨hr, ht, hl, rfl, v, hv, hx, hc, hd⟩
    exact ⟨d, v, ⟨⟨⟨hr, ht, hl, hv, hx⟩, hc⟩, hd⟩, rfl, rfl⟩

theorem eq_of_mem_placements {v w : String} (asc : h.Ascending)
    (hv : (d, v) ∈ placements c completed grouping rangeStart today h)
    (hw : (d, w) ∈ placements c completed grouping rangeStart today h) : v = w := by
  cases grouping with
  | byStatus =>
    have hv := ((mem_statusPlacements_iff asc).1 hv).2.2.2.1
    have hw := ((mem_statusPlacements_iff asc).1 hw).2.2.2.1
    exact Option.some.inj (hv.symm.trans hw)
  | byField selector =>
    have hv := ((mem_fieldPlacements_iff asc).1 hv).2.2.2.1
    have hw := ((mem_fieldPlacements_iff asc).1 hw).2.2.2.1
    exact hv.symm.trans hw

/-- The placement of an issue on a day depends on its values up to that day only. -/
theorem mem_placements_congr {h' : ResolvedHistory} {v : String} (asc : h.Ascending)
    (asc' : h'.Ascending) (hfield : ∀ selector : FieldSelector, selector.valueOf h' = selector.valueOf h)
    (hday : ∀ e, e ≤ d → dayValue? c h' e = dayValue? c h e) :
    (d, v) ∈ placements c completed grouping rangeStart today h' ↔
      (d, v) ∈ placements c completed grouping rangeStart today h := by
  have hd := hday d (Int.le_refl _)
  cases grouping with
  | byStatus =>
    have hclosed (e : Date) (he : e ≤ d) : ClosedOn c completed h' e ↔ ClosedOn c completed h e := by
      rw [ClosedOn, ClosedOn, hday e he]
    simp only [placements, mem_statusPlacements_iff asc, mem_statusPlacements_iff asc', hd]
    have hopen : (∀ e, rangeStart ≤ e → e ≤ d → ¬ ClosedOn c completed h' e) ↔
        ∀ e, rangeStart ≤ e → e ≤ d → ¬ ClosedOn c completed h e :=
      forall_congr' fun e => forall_congr' fun _ => forall_congr' fun he => not_congr (hclosed e he)
    rw [hopen]
  | byField selector =>
    simp only [placements, mem_fieldPlacements_iff asc, mem_fieldPlacements_iff asc', hd,
      hfield selector]

end

end IssueFlow.Flow
