import IssueFlow.Proofs.Flow.Batch

/-!
# Replay by status

`holds_statusReplay_iff` says day by day what a replay by status reports, without segments or walks.
`not_holds_of_closed` says that closing is final: from the first day on whose value is tracked and
that resolves closed, an issue is on no date. A completed cycle closes the day of its date
(`not_holds_of_cycle`). A day with an excluded value does not close an issue, even if the value is
also a closed one (`holds_after_excluded_close`).
-/

namespace IssueFlow.Flow

open IssueFlow.Calendar IssueFlow.Tracker IssueFlow.Rules IssueFlow.Batch IssueFlow.Quality
  IssueFlow.Delivery

theorem holds_statusReplay_iff (s : ClassificationSet) (scope : Option (List Defect × FilterRules))
    (cycles : Option CompletionCycles) (rangeStart today : Date) (issues : List IssueHistory)
    (value : String) (d : Date) (key : String) :
    (replay s { rangeStart := some rangeStart, today := some today, defectScope := scope, cycles }
        .byStatus issues).index.Holds value d key ↔
      d < Date.last ∧ ∃ issue raw h, InScope scope issue ∧
        issues.find? (fun x => x.issue = issue) = some raw ∧ raw.resolve = .ok h ∧
        issue.display = key ∧ rangeStart ≤ d ∧ d ≤ today ∧
        dayValue? (classificationOf s issue.project) h d = some value ∧
        (classificationOf s issue.project).isExcluded value = false ∧
        ¬ ∃ e, rangeStart ≤ e ∧ e ≤ d ∧
          ClosedOn (classificationOf s issue.project) (completedDays cycles issue) h e := by
  rw [holds_replay_iff, replayed, processed_default]
  constructor
  · rintro ⟨_, ⟨⟩, _, ⟨⟩, raw, hraw, rfl, h, hr, hp⟩
    obtain ⟨hscope, hfirst⟩ := mem_admitted_iff.1 hraw
    obtain ⟨hs, ht, hl, hv, hx, hopen⟩ :=
      (mem_statusPlacements_iff (IssueHistory.ascending_of_resolve hr)).1 hp
    refine ⟨hl, raw.issue, raw, h, hscope, hfirst, hr, rfl, hs, ht, hv, hx, ?_⟩
    rintro ⟨e, hse, hed, hc⟩
    exact hopen e hse hed hc
  · rintro ⟨hl, issue, raw, h, hscope, hfirst, hr, rfl, hs, ht, hv, hx, hopen⟩
    have hissue : raw.issue = issue := by simpa using List.find?_some hfirst
    subst hissue
    refine ⟨rangeStart, rfl, today, rfl, raw, mem_admitted_iff.2 ⟨hscope, hfirst⟩, rfl, h, hr, ?_⟩
    exact (mem_statusPlacements_iff (IssueHistory.ascending_of_resolve hr)).2
      ⟨hs, ht, hl, hv, hx, fun e hse hed hc => hopen ⟨e, hse, hed, hc⟩⟩

/-! ## Closing -/

section

variable {s : ClassificationSet} {request : ReplayRequest} {raw : IssueHistory}
  {h : ResolvedHistory} {rangeStart today d : Date} {v : String}

theorem not_holds_of_closedOn {key value : String} {e : Date}
    (hstart : request.rangeStart = some rangeStart) (htoday : request.today = some today)
    (hr : raw.resolve = .ok h) (hd : rangeStart ≤ d) (hde : d ≤ e)
    (hc : ClosedOn (classificationOf s raw.issue.project) (completedDays request.cycles raw.issue)
      h d) :
    ¬ (replay s request .byStatus [raw]).index.Holds value e key := by
  intro hh
  have asc := IssueHistory.ascending_of_resolve hr
  obtain ⟨-, -, -, -, -, hopen⟩ :=
    (mem_statusPlacements_iff asc).1 ((placed_iff hr).1 (placed_of_holds hstart htoday hh))
  exact hopen d hd hde hc

theorem not_holds_of_closed (hstart : request.rangeStart = some rangeStart)
    (htoday : request.today = some today) (hr : raw.resolve = .ok h) (hd : rangeStart ≤ d)
    (hv : dayValue? (classificationOf s raw.issue.project) h d = some v)
    (hc : (classificationOf s raw.issue.project).isClosed v = true ∨
      d ∈ completedDays request.cycles raw.issue) :
    (∀ value key, ¬ (replay s request .byStatus [raw]).index.Holds value d key) ∧
      ((classificationOf s raw.issue.project).isExcluded v = false → ∀ e value key, d ≤ e →
        ¬ (replay s request .byStatus [raw]).index.Holds value e key) := by
  -- On a later day the walk has met the closed one, unless the value there is excluded.
  have hlater (hx : (classificationOf s raw.issue.project).isExcluded v = false) (e : Date)
      (value key : String) (hde : d ≤ e) :
      ¬ (replay s request .byStatus [raw]).index.Holds value e key :=
    not_holds_of_closedOn hstart htoday hr hd hde ⟨v, hv, hx, hc⟩
  refine ⟨fun value key hh => ?_, hlater⟩
  have asc := IssueHistory.ascending_of_resolve hr
  obtain ⟨-, -, -, hv', hx, -⟩ :=
    (mem_statusPlacements_iff asc).1 ((placed_iff hr).1 (placed_of_holds hstart htoday hh))
  obtain rfl := Option.some.inj (hv.symm.trans hv')
  exact hlater hx d v key (Date.le_refl d) hh

/-- A completed cycle closes an issue too, from the date of the cycle on. -/
theorem not_holds_of_cycle {cs : CompletionCycles} {minimums : List Instant} {t : Instant}
    {key value : String} {e : Date} (hstart : request.rangeStart = some rangeStart)
    (htoday : request.today = some today) (hcycles : request.cycles = some cs)
    (hr : raw.resolve = .ok h)
    (hget : cs.get? raw.issue.project raw.issue.number = some minimums) (ht : t ∈ minimums)
    (hd : rangeStart ≤ t.date) (hde : t.date ≤ e)
    (hv : dayValue? (classificationOf s raw.issue.project) h t.date = some v)
    (hx : (classificationOf s raw.issue.project).isExcluded v = false) :
    ¬ (replay s request .byStatus [raw]).index.Holds value e key :=
  not_holds_of_closedOn hstart htoday hr hd hde
    (closedOn_completedDays_iff.2 ⟨v, hv, hx, .inr ⟨cs, hcycles, minimums, hget, t, ht, rfl⟩⟩)

end

/-- An issue that is done on the first of January and open again on the second. -/
def reopened : IssueHistory where
  issue := ⟨"T-1", "A"⟩
  log := [⟨"", "Done", "2024-01-01"⟩, ⟨"Done", "Open", "2024-01-02"⟩]
  created := "2024-01-01"

def reopenedResolved : ResolvedHistory :=
  ⟨⟨"T-1", "A"⟩, [⟨"", "Done", .startOf (january 1)⟩, ⟨"Done", "Open", .startOf (january 2)⟩],
    .startOf (january 1), none, []⟩

def closesDone : Classification := { closed := .ofList ["Done"] }

def closesAndExcludesDone : Classification :=
  { closed := .ofList ["Done"], excluded := .ofList ["Done"] }

theorem not_holds_reopened :
    reopened.resolve = .ok reopenedResolved ∧
      dayValue? closesDone reopenedResolved (january 1) = some "Done" ∧
      closesDone.isClosed "Done" = true ∧
      ∀ e value key, january 1 ≤ e →
        ¬ (replay ⟨.ofList [("A", closesDone)]⟩ twoDays .byStatus [reopened]).index.Holds value e
          key :=
  ⟨by decide +kernel, by decide +kernel, by decide +kernel,
    (not_holds_of_closed (v := "Done") (h := reopenedResolved) rfl rfl (by decide +kernel)
      (Date.le_refl (january 1)) (by decide +kernel) (.inl (by decide +kernel))).2
      (by decide +kernel)⟩

theorem holds_after_excluded_close :
    closesAndExcludesDone.validate = .ok () ∧ reopened.resolve = .ok reopenedResolved ∧
      dayValue? closesAndExcludesDone reopenedResolved (january 1) = some "Done" ∧
      closesAndExcludesDone.isClosed "Done" = true ∧
      (replay ⟨.ofList [("A", closesAndExcludesDone)]⟩ twoDays .byStatus [reopened]).index.Holds
        "Open" (january 2) "A/T-1" :=
  ⟨by decide +kernel, by decide +kernel, by decide +kernel, by decide +kernel,
    .ofList ["A/T-1"], by decide +kernel, by decide +kernel⟩

end IssueFlow.Flow
