import IssueFlow.Proofs.Flow.Batch

/-!
# Replay over a part of a range

What a replay over a part of a range tells of its days, against the replay over the whole range
(`replay_range`). Both groupings look at the past of a day only, so an earlier end cuts the index
off and changes no day before it. At the start of the range they differ: a replay by field decides
each day by itself, so a later start cuts off too; a replay by status carries a closing on, so from
a later start it can report issues that an earlier start has already met closed.
-/

namespace IssueFlow.Flow

open IssueFlow.Calendar IssueFlow.Tracker IssueFlow.Rules IssueFlow.Batch IssueFlow.Quality
  IssueFlow.Delivery

/-! ## Restriction -/

namespace FlowIndex

/-- The placements on the dates that pass a test. -/
def restrict (keep : Date → Bool) (x : FlowIndex) : FlowIndex :=
  ⟨x.entries.filterMap fun _ column =>
    let kept := column.filter fun date _ => keep date
    if kept.isEmpty then none else some kept⟩

variable {x : FlowIndex} {keep : Date → Bool} {value key : String} {date : Date}

theorem getElem?_restrict {column : DateColumn} :
    (x.restrict keep).entries[value]? = some column ↔
      ∃ whole, x.entries[value]? = some whole ∧ column = whole.filter (fun date _ => keep date) ∧
        column ≠ ∅ := by
  simp only [restrict, Std.ExtTreeMap.getElem?_filterMap', Option.bind_eq_some_iff,
    Option.ite_none_left_eq_some, Option.some.injEq, Std.ExtTreeMap.isEmpty_iff]
  constructor
  · rintro ⟨whole, hwhole, hne, rfl⟩
    exact ⟨whole, hwhole, rfl, hne⟩
  · rintro ⟨whole, hwhole, rfl, hne⟩
    exact ⟨whole, hwhole, hne, rfl⟩

theorem issuesOn?_restrict_eq_some_iff {keys : TextSet} :
    (x.restrict keep).issuesOn? value date = some keys ↔
      keep date = true ∧ x.issuesOn? value date = some keys := by
  simp only [issuesOn?, Option.bind_eq_some_iff, getElem?_restrict]
  constructor
  · rintro ⟨_, ⟨whole, hwhole, rfl, -⟩, hkeys⟩
    rw [Std.ExtTreeMap.getElem?_filter', Option.filter_eq_some_iff] at hkeys
    exact ⟨hkeys.2, whole, hwhole, hkeys.1⟩
  · rintro ⟨hkeep, whole, hwhole, hkeys⟩
    have hfilter : (whole.filter fun date _ => keep date)[date]? = some keys := by
      rw [Std.ExtTreeMap.getElem?_filter', Option.filter_eq_some_iff]
      exact ⟨hkeys, hkeep⟩
    refine ⟨_, ⟨whole, hwhole, rfl, fun hempty => ?_⟩, hfilter⟩
    rw [hempty] at hfilter
    simp at hfilter

theorem holds_restrict : (x.restrict keep).Holds value date key ↔
    keep date = true ∧ x.Holds value date key := by
  simp only [Holds, issuesOn?_restrict_eq_some_iff, and_assoc, exists_and_left]

theorem Tidy.restrict (hx : x.Tidy) (keep : Date → Bool) : (x.restrict keep).Tidy where
  column_ne h := by
    obtain ⟨-, -, -, hne⟩ := getElem?_restrict.1 h
    exact hne
  keys_ne h := hx.keys_ne (issuesOn?_restrict_eq_some_iff.1 h).2

end FlowIndex

/-! ## One issue -/

section

variable {c : Classification} {completed : Std.ExtTreeSet Date} {selector : FieldSelector}
  {h : ResolvedHistory} {r r₁ r₂ t t₁ t₂ d : Date} {v : String}

theorem mem_fieldPlacements_range (asc : h.Ascending) (hr : r₁ ≤ r₂) (ht : t₁ ≤ t₂) :
    (d, v) ∈ fieldPlacements c completed selector r₂ t₁ h ↔
      (r₂ ≤ d ∧ d ≤ t₁) ∧ (d, v) ∈ fieldPlacements c completed selector r₁ t₂ h := by
  rw [mem_fieldPlacements_iff asc, mem_fieldPlacements_iff asc]
  constructor
  · rintro ⟨hrd, hdt, hday⟩
    exact ⟨⟨hrd, hdt⟩, Date.le_trans hr hrd, Date.le_trans hdt ht, hday⟩
  · rintro ⟨⟨hrd, hdt⟩, -, -, hday⟩
    exact ⟨hrd, hdt, hday⟩

theorem mem_statusPlacements_until (asc : h.Ascending) (ht : t₁ ≤ t₂) :
    (d, v) ∈ statusPlacements c completed r t₁ h ↔
      d ≤ t₁ ∧ (d, v) ∈ statusPlacements c completed r t₂ h := by
  rw [mem_statusPlacements_iff asc, mem_statusPlacements_iff asc]
  constructor
  · rintro ⟨hrd, hdt, hday⟩
    exact ⟨hdt, hrd, Date.le_trans hdt ht, hday⟩
  · rintro ⟨hdt, hrd, -, hday⟩
    exact ⟨hrd, hdt, hday⟩

/-- A later start forgets the days before it: what is left to meet closed is less. -/
theorem mem_statusPlacements_from (asc : h.Ascending) (hr : r₁ ≤ r₂) (hd : r₂ ≤ d)
    (hv : (d, v) ∈ statusPlacements c completed r₁ t h) :
    (d, v) ∈ statusPlacements c completed r₂ t h := by
  rw [mem_statusPlacements_iff asc] at hv ⊢
  obtain ⟨-, hdt, hl, hday, hx, hopen⟩ := hv
  refine ⟨hd, hdt, hl, hday, hx, ?_⟩
  intro e hre hed
  exact hopen e (Date.le_trans hr hre) hed

/-- If no day before the later start resolves closed, the walk from the earlier one gets there. -/
theorem mem_statusPlacements_from_iff (asc : h.Ascending) (hr : r₁ ≤ r₂)
    (hopen : ∀ e, r₁ ≤ e → e < r₂ → ¬ ClosedOn c completed h e) :
    (d, v) ∈ statusPlacements c completed r₂ t h ↔
      r₂ ≤ d ∧ (d, v) ∈ statusPlacements c completed r₁ t h := by
  constructor
  · intro hv
    rw [mem_statusPlacements_iff asc] at hv ⊢
    obtain ⟨hrd, hdt, hl, hday, hx, hlater⟩ := hv
    refine ⟨hrd, Date.le_trans hr hrd, hdt, hl, hday, hx, ?_⟩
    intro e hre hed
    by_cases he : r₂ ≤ e
    · exact hlater e he hed
    · exact hopen e hre (Int.not_le.1 he)
  · rintro ⟨hrd, hv⟩
    exact mem_statusPlacements_from asc hr hrd hv

end

/-! ## The batch -/

section

variable {s : ClassificationSet} {scope : Option (List Defect × FilterRules)}
  {cycles : Option CompletionCycles} {grouping : Grouping} {issues : List IssueHistory}
  {first last d : Date} {value key : String}

/-- The index of a replay over the dates from `first` to `last`, without limits. -/
def indexOver (s : ClassificationSet) (scope : Option (List Defect × FilterRules))
    (cycles : Option CompletionCycles) (grouping : Grouping) (issues : List IssueHistory)
    (first last : Date) : FlowIndex :=
  (replay s { rangeStart := some first, today := some last, defectScope := scope, cycles } grouping
    issues).index

theorem tidy_indexOver : (indexOver s scope cycles grouping issues first last).Tidy :=
  tidy_replay s _ grouping issues

theorem holds_indexOver_iff :
    (indexOver s scope cycles grouping issues first last).Holds value d key ↔
      ∃ raw ∈ admitted scope issues, raw.issue.display = key ∧ ∃ h, raw.resolve = .ok h ∧
        (d, value) ∈ placements (classificationOf s raw.issue.project)
          (completedDays cycles raw.issue) grouping first last h := by
  rw [indexOver, holds_replay_iff, replayed, processed_default]
  simp only [Option.mem_def, Option.some.injEq, exists_eq_left', Placed]

/-- What a restriction does to the placements of each issue, it does to the index. -/
theorem indexOver_eq_restrict {first' last' : Date} {keep : Date → Bool}
    (hunit : ∀ raw ∈ admitted scope issues, ∀ h, raw.resolve = .ok h → ∀ d v,
      (d, v) ∈ placements (classificationOf s raw.issue.project) (completedDays cycles raw.issue)
          grouping first last h ↔
        keep d = true ∧ (d, v) ∈ placements (classificationOf s raw.issue.project)
          (completedDays cycles raw.issue) grouping first' last' h) :
    indexOver s scope cycles grouping issues first last =
      (indexOver s scope cycles grouping issues first' last').restrict keep := by
  refine tidy_indexOver.ext (tidy_indexOver.restrict keep) fun value d key => ?_
  rw [FlowIndex.holds_restrict, holds_indexOver_iff, holds_indexOver_iff]
  constructor
  · rintro ⟨raw, hraw, hkey, h, hr, hp⟩
    obtain ⟨hkeep, hp⟩ := (hunit raw hraw h hr d value).1 hp
    exact ⟨hkeep, raw, hraw, hkey, h, hr, hp⟩
  · rintro ⟨hkeep, raw, hraw, hkey, h, hr, hp⟩
    exact ⟨raw, hraw, hkey, h, hr, (hunit raw hraw h hr d value).2 ⟨hkeep, hp⟩⟩

end

theorem replay_range (s : ClassificationSet) (scope : Option (List Defect × FilterRules))
    (cycles : Option CompletionCycles) (selector : FieldSelector) (issues : List IssueHistory)
    {r₁ r₂ t₁ t₂ : Date} (hr : r₁ ≤ r₂) (ht : t₁ ≤ t₂) :
    indexOver s scope cycles (.byField selector) issues r₂ t₁ =
        (indexOver s scope cycles (.byField selector) issues r₁ t₂).restrict
          (fun d => r₂ ≤ d ∧ d ≤ t₁) ∧
      indexOver s scope cycles .byStatus issues r₁ t₁ =
        (indexOver s scope cycles .byStatus issues r₁ t₂).restrict (fun d => d ≤ t₁) ∧
      (∀ value d key,
        ((indexOver s scope cycles .byStatus issues r₁ t₁).restrict fun d => r₂ ≤ d).Holds value d
            key →
          (indexOver s scope cycles .byStatus issues r₂ t₁).Holds value d key) ∧
      ((∀ raw ∈ admitted scope issues, ∀ h, raw.resolve = .ok h → ∀ e, r₁ ≤ e → e < r₂ →
          ¬ ClosedOn (classificationOf s raw.issue.project) (completedDays cycles raw.issue) h e) →
        (indexOver s scope cycles .byStatus issues r₁ t₁).restrict (fun d => r₂ ≤ d) =
          indexOver s scope cycles .byStatus issues r₂ t₁) := by
  refine ⟨?_, ?_, ?_, fun hopen => ?_⟩
  · refine indexOver_eq_restrict fun raw _ h hres d v => ?_
    rw [decide_eq_true_iff]
    exact mem_fieldPlacements_range (IssueHistory.ascending_of_resolve hres) hr ht
  · refine indexOver_eq_restrict fun raw _ h hres d v => ?_
    rw [decide_eq_true_iff]
    exact mem_statusPlacements_until (IssueHistory.ascending_of_resolve hres) ht
  · intro value d key hd
    rw [FlowIndex.holds_restrict, decide_eq_true_iff, holds_indexOver_iff] at hd
    obtain ⟨hd, raw, hraw, hkey, h, hres, hp⟩ := hd
    have asc := IssueHistory.ascending_of_resolve hres
    exact holds_indexOver_iff.2
      ⟨raw, hraw, hkey, h, hres, mem_statusPlacements_from asc hr hd hp⟩
  · refine (indexOver_eq_restrict fun raw hraw h hres d v => ?_).symm
    rw [decide_eq_true_iff]
    exact mem_statusPlacements_from_iff (IssueHistory.ascending_of_resolve hres) hr
      (hopen raw hraw h hres)

/-- An issue that is open on the first of January, in review on the second and done on the third. -/
def doneOnThird : IssueHistory where
  issue := ⟨"T-1", "A"⟩
  log := [⟨"", "Open", "2024-01-01"⟩, ⟨"Open", "Review", "2024-01-02"⟩,
    ⟨"Review", "Done", "2024-01-03"⟩]
  created := "2024-01-01"

def doneOnThirdResolved : ResolvedHistory :=
  ⟨⟨"T-1", "A"⟩, [⟨"", "Open", .startOf (january 1)⟩, ⟨"Open", "Review", .startOf (january 2)⟩,
    ⟨"Review", "Done", .startOf (january 3)⟩], .startOf (january 1), none, []⟩

/-- Done closes the issues of the project. -/
def closedByDone : ClassificationSet :=
  ClassificationSet.insert {} "A" { closed := .ofList ["Done"] }

/-- Over January, from one day to another. -/
def doneOnThirdOver (grouping : Grouping) (first last : Nat) : FlowIndex :=
  indexOver closedByDone none none grouping [doneOnThird] (january first) (january last)

theorem replay_range_doneOnThird :
    january 1 ≤ january 2 ∧ january 2 ≤ january 3 ∧
      doneOnThirdOver (.byField .priority) 2 2 =
        (doneOnThirdOver (.byField .priority) 1 3).restrict
          (fun d => january 2 ≤ d ∧ d ≤ january 2) ∧
      (doneOnThirdOver .byStatus 1 2).restrict (fun d => january 2 ≤ d) =
        doneOnThirdOver .byStatus 2 2 ∧
      (doneOnThirdOver .byStatus 2 2).Holds "Review" (january 2) "A/T-1" := by
  have hr : january 1 ≤ january 2 := by decide
  have ht : january 2 ≤ january 3 := by decide
  have hopen : ∀ raw ∈ admitted none [doneOnThird], ∀ h, raw.resolve = .ok h →
      ∀ e, january 1 ≤ e → e < january 2 →
        ¬ ClosedOn (classificationOf closedByDone raw.issue.project)
          (completedDays none raw.issue) h e := by
    rintro raw hraw h hres e hre her ⟨v, hv, -, hclosed⟩
    have hunits : admitted none [doneOnThird] = [doneOnThird] := by decide
    obtain rfl : raw = doneOnThird := by simpa [hunits] using hraw
    have hresolved : doneOnThird.resolve = .ok doneOnThirdResolved := by decide +kernel
    obtain rfl := Except.ok.inj (hres.symm.trans hresolved)
    -- The first of January is the only day from the one start to the other.
    obtain rfl : e = january 1 := by
      have hfirst : (january 1).number = 19723 := by decide
      have hsecond : (january 2).number = 19724 := by decide
      rw [Date.le_def] at hre
      rw [Date.lt_def] at her
      exact Date.ext (by omega)
    have hvalue : dayValue? (classificationOf closedByDone doneOnThird.issue.project)
        doneOnThirdResolved (january 1) = some "Open" := by decide +kernel
    obtain rfl := Option.some.inj (hv.symm.trans hvalue)
    revert hclosed
    decide +kernel
  have hrange := replay_range closedByDone none none .priority [doneOnThird] hr ht
  exact ⟨hr, ht, hrange.1, hrange.2.2.2 hopen, .ofList ["A/T-1"], by decide +kernel,
    by decide +kernel⟩

end IssueFlow.Flow
