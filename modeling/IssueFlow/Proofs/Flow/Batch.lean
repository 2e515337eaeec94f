import IssueFlow.Proofs.Batch.Processed
import IssueFlow.Proofs.Flow.Index
import IssueFlow.Proofs.Flow.Placement
import Mathlib.Data.List.Pairwise

/-!
# Replay of a batch

The index of a batch holds the placements of the records that it replays (`holds_replay_iff`), and
nothing else of the batch shows in it. Without limits, these are the first records of the issues in
scope (`mem_admitted_iff`).
-/

namespace IssueFlow.Flow

open IssueFlow.Calendar IssueFlow.Tracker IssueFlow.Rules IssueFlow.Batch IssueFlow.Quality
  IssueFlow.Delivery

/-- The classification that the issues of a project are replayed with. -/
def classificationOf (s : ClassificationSet) (project : String) : Classification :=
  (s.get? project).getD {}

/-- The days on which a cycle of the issue was completed. -/
def completedDays (cycles : Option CompletionCycles) (issue : IssueRef) : Std.ExtTreeSet Date :=
  (cycles.map fun cs => cs.completionDays issue).getD ∅

/-- The record resolves, and its issue is placed under the value on the day. -/
def Placed (s : ClassificationSet) (cycles : Option CompletionCycles) (grouping : Grouping)
    (rangeStart today : Date) (raw : IssueHistory) (d : Date) (value : String) : Prop :=
  ∃ h, raw.resolve = .ok h ∧
    (d, value) ∈ placements (classificationOf s raw.issue.project) (completedDays cycles raw.issue)
      grouping rangeStart today h

/-- The records that a batch replays. -/
def replayed (request : ReplayRequest) (issues : List IssueHistory) : List IssueHistory :=
  request.options.processed (admitted request.defectScope issues)

section

variable {s : ClassificationSet} {cycles : Option CompletionCycles} {request : ReplayRequest}
  {grouping : Grouping} {issues : List IssueHistory} {raw : IssueHistory} {rangeStart today d : Date}
  {value key : String}

theorem placed_iff {h : ResolvedHistory} (hr : raw.resolve = .ok h) :
    Placed s cycles grouping rangeStart today raw d value ↔
      (d, value) ∈ placements (classificationOf s raw.issue.project)
        (completedDays cycles raw.issue) grouping rangeStart today h := by
  simp only [Placed, hr, Except.ok.injEq, exists_eq_left']

theorem Placed.unique {w : String} (hv : Placed s cycles grouping rangeStart today raw d value)
    (hw : Placed s cycles grouping rangeStart today raw d w) : value = w := by
  obtain ⟨h, hr, hv⟩ := hv
  exact eq_of_mem_placements (IssueHistory.ascending_of_resolve hr) hv ((placed_iff hr).1 hw)

theorem mem_completedDays_iff {issue : IssueRef} : d ∈ completedDays cycles issue ↔
    ∃ cs ∈ cycles, ∃ minimums ∈ cs.get? issue.project issue.number, ∃ t ∈ minimums, t.date = d := by
  cases cycles with
  | none => simp [completedDays]
  | some cs =>
    rw [completedDays, Option.map_some, Option.getD_some, CompletionCycles.mem_completionDays_iff]
    simp only [Option.mem_def, Option.some.injEq, exists_eq_left']

/-- A day resolves closed by its value or by a cycle that was completed on it. -/
theorem closedOn_completedDays_iff {c : Classification} {h : ResolvedHistory} {issue : IssueRef} :
    ClosedOn c (completedDays cycles issue) h d ↔
      ∃ v, dayValue? c h d = some v ∧ c.isExcluded v = false ∧
        (c.isClosed v = true ∨ ∃ cs ∈ cycles, ∃ minimums ∈ cs.get? issue.project issue.number,
          ∃ t ∈ minimums, t.date = d) := by
  simp only [ClosedOn, mem_completedDays_iff]

/-! ## The index -/

theorem holds_replayIssue_iff :
    (replayIssue s cycles grouping rangeStart today raw).index.Holds value d key ↔
      raw.issue.display = key ∧ Placed s cycles grouping rangeStart today raw d value := by
  unfold replayIssue Placed
  cases hr : raw.resolve with
  | error e =>
    refine ⟨fun h => absurd h FlowIndex.not_holds_empty, fun ⟨_, h, hr', _⟩ => ?_⟩
    cases hr'
  | ok h =>
    simp only [indexOf, FlowIndex.holds_foldl_insert, FlowIndex.not_holds_empty, or_false,
      IssueHistory.issue_of_resolve hr, Except.ok.injEq, exists_eq_left', @eq_comm _ key]
    exact Iff.rfl

theorem holds_replay_iff : (replay s request grouping issues).index.Holds value d key ↔
    ∃ rangeStart ∈ request.rangeStart, ∃ today ∈ request.today,
      ∃ raw ∈ replayed request issues, raw.issue.display = key ∧
        Placed s request.cycles grouping rangeStart today raw d value := by
  have hskip (u : IssueHistory) (code : ErrorCode) :
      ¬ (replayUnit u (.error code)).index.Holds value d key := FlowIndex.not_holds_empty
  unfold replay
  cases hr : request.rangeStart with
  | none => simp [FlowIndex.not_holds_empty]
  | some rangeStart =>
    cases ht : request.today with
    | none => simp [FlowIndex.not_holds_empty]
    | some today =>
      simp only [ReplayOutput.gather, FlowIndex.holds_foldl_union, FlowIndex.not_holds_empty,
        false_or, Option.mem_def, Option.some.injEq, exists_eq_left']
      rw [exists_mem_zipWith_fanOut_iff hskip]
      simp only [replayUnit, holds_replayIssue_iff]
      exact Iff.rfl

theorem tidy_replayIssue : (replayIssue s cycles grouping rangeStart today raw).index.Tidy := by
  unfold replayIssue
  cases raw.resolve with
  | error e => exact FlowIndex.tidy_empty
  | ok h => exact FlowIndex.tidy_empty.foldl_insert _ _

theorem tidy_replay (s : ClassificationSet) (request : ReplayRequest) (grouping : Grouping)
    (issues : List IssueHistory) : (replay s request grouping issues).index.Tidy := by
  unfold replay
  split
  · refine FlowIndex.tidy_empty.foldl_union fun out hout => ?_
    rw [zipWith_fanOut] at hout
    rcases List.mem_append.1 hout with hout | hout
    · obtain ⟨raw, -, rfl⟩ := List.mem_map.1 hout
      cases request.options.cancelled
      · exact tidy_replayIssue
      · exact FlowIndex.tidy_empty
    · obtain ⟨raw, -, rfl⟩ := List.mem_map.1 hout
      exact FlowIndex.tidy_empty
  · exact FlowIndex.tidy_empty

/-- What there is to report about one unit. -/
theorem mem_diagnostics_replayIssue_iff {x : Diagnostic} :
    x ∈ (replayIssue s cycles grouping rangeStart today raw).diagnostics ↔
      (∃ e, raw.resolve = .error e ∧ x = .malformed e) ∨
        s.get? raw.issue.project = none ∧ x = unclassified raw.issue.project := by
  unfold replayIssue
  cases hr : raw.resolve with
  | error e => simp [or_comm]
  | ok h => simp

/-! ## The records -/

/-- The issue counts under the scope: one of the defects that are left is its own. -/
def InScope (scope : Option (List Defect × FilterRules)) (issue : IssueRef) : Prop :=
  ∀ defects rules, scope = some (defects, rules) → ∃ x ∈ exclude rules defects, x.issue = issue

theorem inScope_iff {scope : Option (List Defect × FilterRules)} :
    inScope (scope.map fun (ds, r) => Std.ExtTreeSet.ofList ((exclude r ds).map Defect.issue)) raw =
      true ↔ InScope scope raw.issue := by
  unfold inScope InScope
  cases scope with
  | none => simp
  | some p =>
    obtain ⟨ds, r⟩ := p
    simp only [Option.map_some, Std.ExtTreeSet.contains_ofList, List.contains_iff_mem,
      List.mem_map, Option.some.injEq, Prod.mk.injEq]
    exact ⟨fun hx ds' r' ⟨hd, hr⟩ => hd ▸ hr ▸ hx, fun hx => hx ds r ⟨rfl, rfl⟩⟩

instance {scope : Option (List Defect × FilterRules)} {issue : IssueRef} :
    Decidable (InScope scope issue) :=
  let raw : IssueHistory := { issue, created := "" }
  decidable_of_iff _ (inScope_iff : _ ↔ InScope scope raw.issue)

theorem inScope_congr {allowed : Option (Std.ExtTreeSet IssueRef)} {x y : IssueHistory}
    (h : x.issue = y.issue) : inScope allowed x = inScope allowed y := by
  unfold inScope
  rw [h]

theorem mem_admitted_iff {scope : Option (List Defect × FilterRules)} :
    raw ∈ admitted scope issues ↔
      InScope scope raw.issue ∧ issues.find? (fun x => x.issue = raw.issue) = some raw := by
  rw [← inScope_iff, admitted, Order.mem_distinctOn_iff, List.find?_filter]
  generalize scope.map _ = allowed
  cases hraw : inScope allowed raw with
  | true =>
    have hsame (x : IssueHistory) :
        (inScope allowed x && decide (x.issue = raw.issue)) = decide (x.issue = raw.issue) := by
      by_cases hx : x.issue = raw.issue
      · rw [inScope_congr hx, hraw, Bool.true_and]
      · rw [decide_eq_false hx, Bool.and_false]
    simp [hsame]
  | false =>
    refine ⟨fun hfind => ?_, fun ⟨hscope, _⟩ => nomatch hscope⟩
    have := List.find?_some hfind
    simp [hraw] at this

/-- The units of a batch are different issues. -/
theorem pairwise_admitted (scope : Option (List Defect × FilterRules))
    (issues : List IssueHistory) :
    (admitted scope issues).Pairwise fun x y => x.issue ≠ y.issue :=
  Order.pairwise_distinctOn IssueHistory.issue _

/-- Without limits, what an index holds it holds for the first record of an issue in scope. -/
theorem holds_unlimited_iff {scope : Option (List Defect × FilterRules)} :
    (replay s { rangeStart := some rangeStart, today := some today, defectScope := scope, cycles }
        grouping issues).index.Holds value d key ↔
      ∃ issue raw h, InScope scope issue ∧ issues.find? (fun x => x.issue = issue) = some raw ∧
        raw.resolve = .ok h ∧ issue.display = key ∧
        (d, value) ∈ placements (classificationOf s issue.project) (completedDays cycles issue)
          grouping rangeStart today h := by
  rw [holds_replay_iff, replayed, processed_default]
  constructor
  · rintro ⟨_, ⟨⟩, _, ⟨⟩, raw, hraw, hkey, h, hr, hp⟩
    obtain ⟨hscope, hfirst⟩ := mem_admitted_iff.1 hraw
    exact ⟨raw.issue, raw, h, hscope, hfirst, hr, hkey, hp⟩
  · rintro ⟨issue, raw, h, hscope, hfirst, hr, hkey, hp⟩
    obtain rfl : raw.issue = issue := by simpa using List.find?_some hfirst
    exact ⟨rangeStart, rfl, today, rfl, raw, mem_admitted_iff.2 ⟨hscope, hfirst⟩, hkey, h, hr, hp⟩

theorem mem_of_mem_replayed (h : raw ∈ replayed request issues) : raw ∈ issues :=
  (List.mem_filter.1 (Order.mem_of_mem_distinctOn ((processed_sublist _ _).mem h))).1

/-- Of one issue, one record is replayed. -/
theorem eq_of_mem_replayed {x y : IssueHistory} (hx : x ∈ replayed request issues)
    (hy : y ∈ replayed request issues) (h : x.issue = y.issue) : x = y := by
  have hpairs : (replayed request issues).Pairwise fun x y => x.issue ≠ y.issue :=
    (pairwise_admitted _ _).sublist (processed_sublist _ _)
  have : Std.Symm fun x y : IssueHistory => x.issue ≠ y.issue := ⟨fun _ _ => Ne.symm⟩
  by_contra hne
  exact hpairs.forall hx hy hne h

theorem replayed_singleton (h : raw ∈ replayed request issues) :
    replayed request [raw] = [raw] := by
  have hmem := (processed_sublist _ _).mem h
  have hscope := (List.mem_filter.1 (Order.mem_of_mem_distinctOn hmem)).2
  have hadmitted : admitted request.defectScope [raw] = [raw] := by
    show Order.distinctOn IssueHistory.issue ([raw].filter _) = [raw]
    rw [List.filter_cons_of_pos hscope]
    rfl
  rw [replayed, hadmitted]
  exact processed_singleton h raw

theorem holds_replay_singleton (h : (replay s request grouping [raw]).index.Holds value d key) :
    ∃ rangeStart ∈ request.rangeStart, ∃ today ∈ request.today, raw.issue.display = key ∧
      Placed s request.cycles grouping rangeStart today raw d value := by
  obtain ⟨rangeStart, hstart, today, htoday, x, hx, hkey, hp⟩ := holds_replay_iff.1 h
  obtain rfl := List.mem_singleton.1 (mem_of_mem_replayed hx)
  exact ⟨rangeStart, hstart, today, htoday, hkey, hp⟩

theorem placed_of_holds (hstart : request.rangeStart = some rangeStart)
    (htoday : request.today = some today)
    (h : (replay s request grouping [raw]).index.Holds value d key) :
    Placed s request.cycles grouping rangeStart today raw d value := by
  obtain ⟨rangeStart', hstart', today', htoday', -, hp⟩ := holds_replay_singleton h
  obtain rfl := Option.some.inj (hstart.symm.trans hstart')
  obtain rfl := Option.some.inj (htoday.symm.trans htoday')
  exact hp

/-! ## Related batches -/

variable {r : IssueHistory → IssueHistory → Prop} {issues' : List IssueHistory}

theorem forall₂_append_cons {x y : IssueHistory} (hrefl : ∀ x, r x x) (h : r x y)
    (before after : List IssueHistory) :
    List.Forall₂ r (before ++ x :: after) (before ++ y :: after) :=
  List.rel_append (List.forall₂_same.2 fun x _ => hrefl x)
    (.cons h (List.forall₂_same.2 fun x _ => hrefl x))

theorem forall₂_admitted (scope : Option (List Defect × FilterRules))
    (hissue : ∀ x y, r x y → x.issue = y.issue) (h : List.Forall₂ r issues issues') :
    List.Forall₂ r (admitted scope issues) (admitted scope issues') := by
  have hfilter (allowed : Option (Std.ExtTreeSet IssueRef)) :
      List.Forall₂ r (issues.filter (inScope allowed)) (issues'.filter (inScope allowed)) := by
    refine List.rel_filter (fun x y hxy => ?_) h
    show inScope allowed x = true ↔ inScope allowed y = true
    rw [inScope_congr (hissue x y hxy)]
  exact Order.forall₂_distinctOn hissue (hfilter _)

theorem forall₂_replayed (hissue : ∀ x y, r x y → x.issue = y.issue)
    (h : List.Forall₂ r issues issues') :
    List.Forall₂ r (replayed request issues) (replayed request issues') := by
  have hadmitted := forall₂_admitted request.defectScope hissue h
  rw [replayed, replayed, Options.processed, Options.processed, hadmitted.length_eq]
  split
  · exact .nil
  · exact List.forall₂_take _ hadmitted

/-- The records are of one issue, and they place it alike on the day. -/
structure PlacedAlike (s : ClassificationSet) (cycles : Option CompletionCycles)
    (grouping : Grouping) (d : Date) (x y : IssueHistory) : Prop where
  issue_eq : x.issue = y.issue
  placed_iff : ∀ rangeStart today value, Placed s cycles grouping rangeStart today x d value ↔
    Placed s cycles grouping rangeStart today y d value

theorem PlacedAlike.refl (x : IssueHistory) : PlacedAlike s cycles grouping d x x :=
  ⟨rfl, fun _ _ _ => Iff.rfl⟩

/-- Where one batch places its issues under the one value and the other under the other value, the
indices hold the same issues under the two. -/
theorem holds_replay_iff_of_forall₂ {value' : String}
    (h : List.Forall₂ (fun x y => x.issue = y.issue ∧ ∀ rangeStart today,
      Placed s request.cycles grouping rangeStart today x d value ↔
        Placed s request.cycles grouping rangeStart today y d value') issues issues') :
    (replay s request grouping issues).index.Holds value d key ↔
      (replay s request grouping issues').index.Holds value' d key := by
  rw [holds_replay_iff, holds_replay_iff]
  have hunits := @forall₂_replayed request _ _ _ (fun x y hxy => hxy.1) h
  refine exists_congr fun rangeStart => and_congr_right fun _ => exists_congr fun today =>
    and_congr_right fun _ => ?_
  generalize replayed request issues = xs at hunits ⊢
  generalize replayed request issues' = ys at hunits ⊢
  induction hunits with
  | nil => simp
  | @cons x y xs ys hxy _ ih =>
    simp only [List.mem_cons, exists_eq_or_imp, ih, hxy.1, hxy.2 rangeStart today]

theorem holds_replay_congr
    (h : List.Forall₂ (PlacedAlike s request.cycles grouping d) issues issues') :
    (replay s request grouping issues).index.Holds value d key ↔
      (replay s request grouping issues').index.Holds value d key :=
  holds_replay_iff_of_forall₂ (h.imp fun _ _ hxy =>
    ⟨hxy.issue_eq, fun rangeStart today => hxy.placed_iff rangeStart today value⟩)

/-- Batches that differ in one record agree on the days on which it places its issue alike. -/
theorem issuesOn?_replay_congr {x y : IssueHistory}
    (h : PlacedAlike s request.cycles grouping d x y) (before after : List IssueHistory) :
    (replay s request grouping (before ++ x :: after)).index.issuesOn? value d =
      (replay s request grouping (before ++ y :: after)).index.issuesOn? value d := by
  have hbatch : List.Forall₂ (PlacedAlike s request.cycles grouping d) (before ++ x :: after)
      (before ++ y :: after) :=
    forall₂_append_cons .refl h before after
  exact (tidy_replay s request grouping _).issuesOn?_congr (tidy_replay s request grouping _)
    fun key => holds_replay_congr hbatch

/-- A day on which its record places an issue nowhere stays empty. -/
theorem issuesOn?_replay_eq_none
    (h : ∀ rangeStart today value, ¬ Placed s request.cycles grouping rangeStart today raw d value) :
    (replay s request grouping [raw]).index.issuesOn? value d = none := by
  rw [← FlowIndex.issuesOn?_empty value d]
  refine (tidy_replay s request grouping [raw]).issuesOn?_congr FlowIndex.tidy_empty fun key => ?_
  refine iff_of_false (fun hh => ?_) FlowIndex.not_holds_empty
  obtain ⟨rangeStart, -, today, -, -, hp⟩ := holds_replay_singleton hh
  exact h rangeStart today value hp

end

/-- A day of January 2024. -/
def january (day : Nat) : Date := (Date.ofNumber? (19722 + day)).getD .last

/-- The first two days of January. -/
def twoDays : ReplayRequest := { rangeStart := some (january 1), today := some (january 2) }

end IssueFlow.Flow
