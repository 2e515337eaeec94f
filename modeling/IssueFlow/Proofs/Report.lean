import IssueFlow.Proofs.Delivery.Cycle
import IssueFlow.Proofs.Delivery.Deduplication
import IssueFlow.Proofs.Flow.Aging
import IssueFlow.Proofs.Flow.Failures
import IssueFlow.Proofs.Quality.Summary
import IssueFlow.Report

/-!
# Whole reports

The figures of a report belong together. An issue that is shown on a day has completed no cycle by
then, as far as its status counts (`cycle_excluded_of_holds`), and the ages of the issues of the
last day add up to the issues of that day (`totalIn_aging`). A record that cannot be read is
reported (`malformed_mem_diagnostics`).

Without limits, and if no two issues are shown by one key, the order of the records does not matter:
all figures are the same (`sameFigures_of_perm`). Only what is listed record by record, the reopens
and the diagnostics, follows the order of the records.
-/

namespace IssueFlow.Report

open IssueFlow.Calendar IssueFlow.Tracker IssueFlow.Rules IssueFlow.Batch IssueFlow.Quality
  IssueFlow.Delivery IssueFlow.Flow

/-! ## The status of an issue, its cycles and its age -/

section

variable {i : ReportInput} {value key : String} {d : Date}

theorem exists_of_holds_status (h : (ofInput i).status.Holds value d key) :
    ∃ raw history, lookupFirst i.issues raw.issue = some raw ∧ raw.resolve = .ok history ∧
      raw.issue.display = key ∧
      (d, value) ∈ statusPlacements (classificationOf i.classifications raw.issue.project)
        (completedDays (some (ofInput i).cycles) raw.issue) i.rangeStart i.today history := by
  obtain ⟨_, ⟨⟩, _, ⟨⟩, raw, hraw, hkey, history, hr, hplaced⟩ := holds_replay_iff.1 h
  have hfirst := (mem_admitted_iff.1 ((processed_sublist _ _).mem hraw)).2
  exact ⟨raw, history, hfirst, hr, hkey, hplaced⟩

/-- A cycle of the report that was completed by a day on which its issue is shown fell on a day with
an excluded value, or before the range. -/
theorem cycle_excluded_of_holds (h : (ofInput i).status.Holds value d key) :
    ∃ raw history, lookupFirst i.issues raw.issue = some raw ∧ raw.resolve = .ok history ∧
      raw.issue.display = key ∧
      ∀ minimums ∈ (ofInput i).cycles.get? raw.issue.project raw.issue.number, ∀ t ∈ minimums,
        i.rangeStart ≤ t.date → t.date ≤ d → ∃ v,
          dayValue? (classificationOf i.classifications raw.issue.project) history t.date =
              some v ∧
            (classificationOf i.classifications raw.issue.project).isExcluded v = true := by
  obtain ⟨raw, history, hfirst, hr, hkey, hplaced⟩ := exists_of_holds_status h
  have asc := IssueHistory.ascending_of_resolve hr
  refine ⟨raw, history, hfirst, hr, hkey, fun minimums hget t ht hstart hd => ?_⟩
  -- The cycles of the entry are those of the record that is shown.
  obtain ⟨-, c, raw', history', -, hfirst', hr', rfl⟩ := exists_of_get?_resolveCycles hget
  obtain rfl := Option.some.inj (hfirst.symm.trans hfirst')
  obtain rfl := Except.ok.inj (hr.symm.trans hr')
  obtain ⟨e, he, rfl⟩ := exists_event_of_mem_cycleMinimums asc ht
  obtain ⟨v, hv⟩ := exists_dayValue? he (Date.le_refl e.time.date)
  refine ⟨v, hv, ?_⟩
  cases hx : (classificationOf i.classifications raw.issue.project).isExcluded v with
  | true => rfl
  | false =>
    obtain ⟨-, -, -, -, -, hopen⟩ := (mem_statusPlacements_iff asc).1 hplaced
    have hclosed := closedOn_completedDays_iff.2
      ⟨v, hv, hx, .inr ⟨_, rfl, _, hget, e.time, ht, rfl⟩⟩
    exact absurd hclosed (hopen e.time.date hstart hd)

theorem totalIn_aging (i : ReportInput) (value : String) :
    totalIn (ofInput i).aging value = ((ofInput i).status.countSeries value).getD i.today 0 :=
  totalIn_ageBuckets_eq_count rfl

end

/-! ## Diagnostics -/

theorem malformed_mem_diagnostics {i : ReportInput} (ho : i.options = {}) {raw : IssueHistory}
    {e : ResolveError} (hfirst : lookupFirst i.issues raw.issue = some raw)
    (he : raw.resolve = .error e) : .malformed e ∈ (ofInput i).diagnostics := by
  have hfails : FailsWith none i.issues raw.issue e :=
    failsWith_iff.2 ⟨raw, mem_admitted_iff.2 ⟨fun _ _ hscope => (nomatch hscope), hfirst⟩, rfl, he⟩
  refine Order.mem_distinctOn_id.2 ?_
  simp only [List.mem_append]
  exact .inl (.inl (.inr ((mem_diagnostics_replay_iff rfl rfl ho).2 (.inl ⟨_, e, hfails, rfl⟩))))

/-! ## The order of the records -/

/-- Reports with the same figures. What is listed record by record may be in another order. -/
structure SameFigures (r r' : Report) : Prop where
  kept : r.kept = r'.kept
  duplicates : r.duplicates = r'.duplicates
  cycles : r.cycles = r'.cycles
  velocity : r.velocity = r'.velocity
  status : r.status = r'.status
  rootCause : r.rootCause = r'.rootCause
  aging : r.aging = r'.aging
  summary : r.summary = r'.summary
  reopenRate : r.reopenRate = r'.reopenRate
  firstTimePassRate : r.firstTimePassRate = r'.firstTimePassRate
  transitions : r.transitions.Perm r'.transitions
  diagnostics : r.diagnostics.Perm r'.diagnostics

section

variable {xs ys : List IssueHistory}

theorem lookupFirst_perm (h : xs.Perm ys) (hxs : xs.Pairwise fun x y => x.issue ≠ y.issue) :
    lookupFirst xs = lookupFirst ys := by
  funext issue
  rw [lookupFirst, lookupFirst, ← List.head?_filter, ← List.head?_filter,
    Order.filter_eq_of_perm h hxs]
  intro x y hx hy
  exact (of_decide_eq_true hx).trans (of_decide_eq_true hy).symm

theorem transitions_detectAll_perm (s : ClassificationSet) (window : Window) (h : xs.Perm ys) :
    (detectAll s window {} xs).transitions.Perm (detectAll s window {} ys).transitions := by
  simp only [detectAll, zipWith_fanOut_unlimited]
  exact (h.map _).flatMap_right _

theorem diagnostics_detectAll_perm (s : ClassificationSet) (window : Window) (h : xs.Perm ys) :
    (detectAll s window {} xs).diagnostics.Perm (detectAll s window {} ys).diagnostics := by
  simp only [detectAll, zipWith_fanOut_unlimited]
  exact (h.map _).flatMap_right _

end

theorem sameFigures_of_perm {i : ReportInput} (ho : i.options = {}) {issues : List IssueHistory}
    (h : i.issues.Perm issues)
    (hkeys : i.issues.Pairwise fun x y => x.issue.display ≠ y.issue.display) :
    SameFigures (ofInput i) (ofInput { i with issues }) := by
  have hissues : i.issues.Pairwise fun x y => x.issue ≠ y.issue :=
    hkeys.imp fun hne heq => hne (congrArg IssueRef.display heq)
  have hresolved : resolveCycles (lookupFirst i.issues) = resolveCycles (lookupFirst issues) :=
    congrArg resolveCycles (lookupFirst_perm h hissues)
  have hcycles : (ofInput i).cycles = (ofInput { i with issues }).cycles := by
    simp only [ofInput, hresolved]
  have hstatus : (ofInput i).status = (ofInput { i with issues }).status := by
    simp only [ofInput, hresolved]
    exact index_replay_perm ho h hissues
  have htransitions : (ofInput i).transitions.Perm (ofInput { i with issues }).transitions := by
    simp only [ofInput, ho]
    exact transitions_detectAll_perm _ _ h
  exact
    { kept := rfl
      duplicates := rfl
      cycles := hcycles
      velocity := congrArg (Delivery.velocity i.selections i.points) hcycles
      status := hstatus
      rootCause := index_replay_perm ho h hissues
      aging := by
        show ageBuckets (ofInput i).status _ _ = ageBuckets (ofInput { i with issues }).status _ _
        rw [hstatus, ageBuckets, ageBuckets, creationDates_perm h hkeys]
      summary := ofTransitions_eq_of_perm htransitions
      reopenRate := congrArg (Quality.reopenRate · _) (distinctIssues_perm htransitions)
      firstTimePassRate := rfl
      transitions := htransitions
      diagnostics := by
        simp only [ofInput, hresolved]
        refine Order.perm_distinctOn_id (((List.Perm.append_left _ ?_).append ?_).append ?_)
        · exact diagnostics_replay_perm ho h hissues
        · exact diagnostics_replay_perm ho h hissues
        · rw [ho]
          exact diagnostics_detectAll_perm _ _ h }

/-- Two issues that are shown by one key are both aged by the last record of the two. -/
example :
    creationDates [{ issue := ⟨"C", "A/B"⟩, created := "2024-01-01" },
        { issue := ⟨"B/C", "A"⟩, created := "2024-01-31" }] ≠
      creationDates [{ issue := ⟨"B/C", "A"⟩, created := "2024-01-31" },
        { issue := ⟨"C", "A/B"⟩, created := "2024-01-01" }] := by
  decide +kernel

end IssueFlow.Report
