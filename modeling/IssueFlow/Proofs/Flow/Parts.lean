import IssueFlow.Proofs.Flow.Batch

/-!
# Replay in parts

A batch without limits gathers the outputs of its units (`replay_eq_gather`), and gathering does not
look at how the units are grouped or ordered: the index is settled by its placements, and the
diagnostics by their first occurrences. So a batch may be cut between any two issues and put
together again, and the order of the issues does not show in the index
(`replay_append_and_perm`).
-/

namespace IssueFlow.Flow

open IssueFlow.Calendar IssueFlow.Tracker IssueFlow.Rules IssueFlow.Batch IssueFlow.Quality
  IssueFlow.Delivery

/-! ## Gathered outputs -/

section

variable {xs ys outputs : List ReplayOutput} {value key : String} {d : Date}

theorem holds_gather_iff : (ReplayOutput.gather outputs).index.Holds value d key ↔
    ∃ output ∈ outputs, output.index.Holds value d key := by
  simp only [ReplayOutput.gather, FlowIndex.holds_foldl_union, FlowIndex.not_holds_empty, false_or]

theorem tidy_gather (h : ∀ output ∈ outputs, output.index.Tidy) :
    (ReplayOutput.gather outputs).index.Tidy :=
  FlowIndex.tidy_empty.foldl_union h

theorem index_gather_append (hxs : ∀ output ∈ xs, output.index.Tidy)
    (hys : ∀ output ∈ ys, output.index.Tidy) :
    (ReplayOutput.gather (xs ++ ys)).index =
      (ReplayOutput.gather xs).index.union (ReplayOutput.gather ys).index := by
  have hall : ∀ output ∈ xs ++ ys, output.index.Tidy := List.forall_mem_append.2 ⟨hxs, hys⟩
  refine (tidy_gather hall).ext ((tidy_gather hxs).union (tidy_gather hys)) fun value date key => ?_
  simp only [FlowIndex.holds_union, holds_gather_iff, List.mem_append, or_and_right, exists_or]

theorem diagnostics_gather_append : (ReplayOutput.gather (xs ++ ys)).diagnostics =
    Diagnostic.distinct ((ReplayOutput.gather xs).diagnostics ++
      (ReplayOutput.gather ys).diagnostics) := by
  simp only [ReplayOutput.gather, List.flatMap_append]
  exact Order.distinctOn_id_append_distinctOn.symm

theorem index_gather_perm (hxs : ∀ output ∈ xs, output.index.Tidy) (h : xs.Perm ys) :
    (ReplayOutput.gather xs).index = (ReplayOutput.gather ys).index := by
  have hys : ∀ output ∈ ys, output.index.Tidy := fun output hmem => hxs output (h.mem_iff.2 hmem)
  refine (tidy_gather hxs).ext (tidy_gather hys) fun value date key => ?_
  simp only [holds_gather_iff, h.mem_iff]

theorem diagnostics_gather_perm (h : xs.Perm ys) :
    (ReplayOutput.gather xs).diagnostics.Perm (ReplayOutput.gather ys).diagnostics :=
  Order.perm_distinctOn_id (h.flatMap_right ReplayOutput.diagnostics)

end

/-! ## The units of a batch -/

section

variable {s : ClassificationSet} {request : ReplayRequest} {grouping : Grouping}
  {scope : Option (List Defect × FilterRules)} {issues xs ys : List IssueHistory}

theorem admitted_append (h : ∀ x ∈ xs, ∀ y ∈ ys, x.issue ≠ y.issue) :
    admitted scope (xs ++ ys) = admitted scope xs ++ admitted scope ys := by
  simp only [admitted, List.filter_append]
  refine Order.distinctOn_append_of_forall_ne fun x hx y hy => ?_
  exact h x (List.mem_filter.1 hx).1 y (List.mem_filter.1 hy).1

/-- With one record an issue, every record in scope is a unit. -/
theorem admitted_eq_filter (h : xs.Pairwise fun x y => x.issue ≠ y.issue) :
    admitted scope xs = xs.filter (inScope (scope.map fun (ds, r) =>
      Std.ExtTreeSet.ofList ((exclude r ds).map Defect.issue))) :=
  Order.distinctOn_eq_self (h.filter _)

/-- Leaving out issues leaves out their units. -/
theorem admitted_filter {keep : IssueHistory → Bool}
    (hkeep : ∀ x y, x.issue = y.issue → keep x = keep y) :
    admitted scope (issues.filter keep) = (admitted scope issues).filter keep := by
  simp only [admitted, ← Order.distinctOn_filter hkeep, List.filter_comm]

theorem admitted_perm (h : xs.Perm ys) (hxs : xs.Pairwise fun x y => x.issue ≠ y.issue) :
    (admitted scope xs).Perm (admitted scope ys) := by
  have hys : ys.Pairwise fun x y => x.issue ≠ y.issue := hxs.perm h Ne.symm
  rw [admitted_eq_filter hxs, admitted_eq_filter hys]
  exact h.filter _

/-- The outputs of the units of a batch without limits. -/
def unitOutputs (s : ClassificationSet) (request : ReplayRequest) (grouping : Grouping)
    (issues : List IssueHistory) : List ReplayOutput :=
  match request.rangeStart, request.today with
  | some rangeStart, some today =>
    (admitted request.defectScope issues).map
      (replayIssue s request.cycles grouping rangeStart today)
  | _, _ => []

theorem tidy_unitOutputs : ∀ output ∈ unitOutputs s request grouping issues, output.index.Tidy := by
  intro output hmem
  unfold unitOutputs at hmem
  split at hmem
  · obtain ⟨raw, -, rfl⟩ := List.mem_map.1 hmem
    exact tidy_replayIssue
  · cases hmem

theorem unitOutputs_append (h : ∀ x ∈ xs, ∀ y ∈ ys, x.issue ≠ y.issue) :
    unitOutputs s request grouping (xs ++ ys) =
      unitOutputs s request grouping xs ++ unitOutputs s request grouping ys := by
  unfold unitOutputs
  split
  · rw [admitted_append h, List.map_append]
  · rfl

theorem unitOutputs_perm (h : xs.Perm ys) (hxs : xs.Pairwise fun x y => x.issue ≠ y.issue) :
    (unitOutputs s request grouping xs).Perm (unitOutputs s request grouping ys) := by
  unfold unitOutputs
  split
  · exact (admitted_perm h hxs).map _
  · exact .refl _

theorem replay_eq_gather (ho : request.options = {}) :
    replay s request grouping issues = .gather (unitOutputs s request grouping issues) := by
  obtain ⟨start, stop, options, scope, cycles⟩ := request
  obtain rfl : options = {} := ho
  unfold replay unitOutputs
  cases start with
  | none => rfl
  | some rangeStart =>
    cases stop with
    | none => rfl
    | some today =>
      simp only [zipWith_fanOut_unlimited, replayUnit]

theorem index_replay_perm (ho : request.options = {}) (h : xs.Perm ys)
    (hxs : xs.Pairwise fun x y => x.issue ≠ y.issue) :
    (replay s request grouping xs).index = (replay s request grouping ys).index := by
  rw [replay_eq_gather ho, replay_eq_gather ho]
  exact index_gather_perm tidy_unitOutputs (unitOutputs_perm h hxs)

theorem diagnostics_replay_perm (ho : request.options = {}) (h : xs.Perm ys)
    (hxs : xs.Pairwise fun x y => x.issue ≠ y.issue) :
    (replay s request grouping xs).diagnostics.Perm (replay s request grouping ys).diagnostics := by
  rw [replay_eq_gather ho, replay_eq_gather ho]
  exact diagnostics_gather_perm (unitOutputs_perm h hxs)

end

theorem replay_append_and_perm (s : ClassificationSet) {request : ReplayRequest}
    (grouping : Grouping) (ho : request.options = {}) :
    (∀ xs ys : List IssueHistory, (∀ x ∈ xs, ∀ y ∈ ys, x.issue ≠ y.issue) →
      (replay s request grouping (xs ++ ys)).index =
          (replay s request grouping xs).index.union (replay s request grouping ys).index ∧
        (replay s request grouping (xs ++ ys)).diagnostics =
          Diagnostic.distinct ((replay s request grouping xs).diagnostics ++
            (replay s request grouping ys).diagnostics)) ∧
    ∀ xs ys : List IssueHistory, xs.Perm ys → (xs.Pairwise fun x y => x.issue ≠ y.issue) →
      (replay s request grouping xs).index = (replay s request grouping ys).index ∧
        (replay s request grouping xs).diagnostics.Perm
          (replay s request grouping ys).diagnostics := by
  constructor
  · intro xs ys hne
    simp only [replay_eq_gather ho]
    rw [unitOutputs_append hne]
    exact ⟨index_gather_append tidy_unitOutputs tidy_unitOutputs, diagnostics_gather_append⟩
  · intro xs ys hperm hxs
    exact ⟨index_replay_perm ho hperm hxs, diagnostics_replay_perm ho hperm hxs⟩

/-- An issue that goes into review on the second of January. -/
def inReview : IssueHistory where
  issue := ⟨"T-1", "A"⟩
  log := [⟨"", "Open", "2024-01-01"⟩, ⟨"Open", "Review", "2024-01-02"⟩]
  created := "2024-01-01"

/-- An issue of another project with the same number, and a creation that cannot be read. -/
def unreadable : IssueHistory where
  issue := ⟨"T-1", "B"⟩
  created := "yesterday"

theorem replay_inReview_unreadable :
    twoDays.options = {} ∧ inReview.issue ≠ unreadable.issue ∧
      (replay {} twoDays .byStatus [inReview, unreadable]).index =
        (replay {} twoDays .byStatus [inReview]).index.union
          (replay {} twoDays .byStatus [unreadable]).index ∧
      (replay {} twoDays .byStatus [inReview, unreadable]).diagnostics.length = 3 ∧
      (replay {} twoDays .byStatus [inReview, unreadable]).diagnostics.Perm
        (replay {} twoDays .byStatus [unreadable, inReview]).diagnostics := by
  have hne : inReview.issue ≠ unreadable.issue := by decide
  have hoptions : twoDays.options = {} := rfl
  have hparts := replay_append_and_perm {} .byStatus hoptions
  refine ⟨hoptions, hne, ?_, by decide +kernel, ?_⟩
  · exact (hparts.1 [inReview] [unreadable] (by simpa using hne)).1
  · exact (hparts.2 _ _ (.swap unreadable inReview []) (by simpa using hne)).2

end IssueFlow.Flow
