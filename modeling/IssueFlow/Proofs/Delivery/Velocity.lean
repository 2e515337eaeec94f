import IssueFlow.Proofs.Delivery.Owner
import Mathlib.Data.List.Nodup
import Mathlib.Data.List.Perm.Subperm

/-!
# Credited issues

The velocity of a selection counts the issues that `Counts` describes, each once, and adds up their
points by number. A duplicate whose cycles are known is counted by the owners of its cycles and by
nobody else: by no more selections than it has cycles, and by one at least if some selection has a
claim to a cycle.
-/

namespace IssueFlow.Delivery

open IssueFlow.Calendar IssueFlow.Tracker IssueFlow.Rules

/-- Overlapping selections list the issue. -/
def IsDuplicate (selections : List SprintSelection) (x : IssueRef) : Prop :=
  x.number ∈ (findDuplicates selections).getD x.project ∅

/-- The selection at a place lists the issue, and the issue is no duplicate, has no entry among the
cycles, or has a cycle whose date the selection owns. -/
def Counts (selections : List SprintSelection) (cycles : CompletionCycles) (x : IssueRef)
    (i : Nat) : Prop :=
  (∃ s, selections[i]? = some s ∧ Lists s x) ∧
    (¬ IsDuplicate selections x ∨ cycles.get? x.project x.number = none ∨
      ∃ minimums, cycles.get? x.project x.number = some minimums ∧
        ∃ t ∈ minimums, Owns selections x t i)

/-! ## Credits -/

section

variable {selections : List SprintSelection} {cycles : CompletionCycles} {duplicates : DuplicateSet}
  {placed : List Placed} {x : IssueRef} {i : Nat}

theorem mem_owners_iff : i ∈ owners selections.zipIdx cycles x ↔
    ∃ minimums, cycles.get? x.project x.number = some minimums ∧
      ∃ t ∈ minimums, Owns selections x t i := by
  simp only [owners, List.mem_filterMap, owner?_eq_some_iff]
  cases cycles.get? x.project x.number <;> simp

/-- The duplicates, and only they, have an entry: their owners. -/
theorem getElem?_credits (placed : List Placed) (cycles : CompletionCycles)
    (duplicates : DuplicateSet) (x : IssueRef) :
    ((credits placed cycles duplicates)[x.project]?.bind fun numbers => numbers[x.number]?) =
      if x.number ∈ duplicates.getD x.project ∅ then some (owners placed cycles x) else none := by
  rw [credits, Std.ExtTreeMap.getElem?_map, Std.ExtTreeMap.getD_eq_getD_getElem?]
  cases duplicates[x.project]? with
  | none => simp
  | some numbers =>
    rw [Option.map_some, Option.bind_some, Option.getD_some]
    have hkeys : (numbers.toList.map fun number =>
        (number, owners placed cycles ⟨number, x.project⟩)).map Prod.fst = numbers.toList := by
      rw [List.map_map]
      exact List.map_id _
    split
    · next h =>
      refine Std.ExtTreeMap.getElem?_ofList_of_mem Std.ReflCmp.compare_self ?_ ?_
      · have hdistinct : numbers.toList.Pairwise fun a b => ¬ compare a b = .eq :=
          Std.ExtTreeSet.distinct_toList
        rw [List.pairwise_map]
        exact hdistinct
      · exact List.mem_map.2 ⟨x.number, Std.ExtTreeSet.mem_toList.2 h, rfl⟩
    · next h =>
      refine Std.ExtTreeMap.getElem?_ofList_of_contains_eq_false ?_
      rw [hkeys, List.contains_eq_mem, decide_eq_false_iff_not, Std.ExtTreeSet.mem_toList]
      exact h

theorem isCredited_iff : isCredited cycles (credits placed cycles duplicates) i x = true ↔
    x.number ∉ duplicates.getD x.project ∅ ∨ cycles.get? x.project x.number = none ∨
      i ∈ owners placed cycles x := by
  rw [isCredited, getElem?_credits]
  by_cases h : x.number ∈ duplicates.getD x.project ∅ <;> simp [h]

theorem mem_listedIssues_iff {s : SprintSelection} : x ∈ listedIssues s ↔ Lists s x := by
  rw [listedIssues, List.mem_map]
  constructor
  · rintro ⟨number, hnumber, rfl⟩
    rw [Std.ExtTreeSet.mem_toList, Std.ExtTreeSet.mem_ofList, List.contains_iff_mem] at hnumber
    exact ⟨rfl, hnumber⟩
  · rintro ⟨hproject, hnumber⟩
    refine ⟨x.number, ?_, by rw [hproject]⟩
    rw [Std.ExtTreeSet.mem_toList, Std.ExtTreeSet.mem_ofList, List.contains_iff_mem]
    exact hnumber

theorem pairwise_listedIssues (s : SprintSelection) :
    (listedIssues s).Pairwise fun x y => x.number < y.number := by
  have hordered : (Std.ExtTreeSet.ofList s.issues).toList.Pairwise fun a b => compare a b = .lt :=
    Std.ExtTreeSet.ordered_toList
  rw [listedIssues, List.pairwise_map]
  exact hordered.imp compareOfLessAndEq_eq_lt.1

end

/-! ## Counted issues -/

/-- The places of the selections that count an issue. -/
def countedBy (selections : List SprintSelection) (cycles : CompletionCycles) (x : IssueRef) :
    List Nat :=
  (List.range selections.length).filter fun i => x ∈ (countedIssues selections cycles).getD i []

section

variable {selections : List SprintSelection} {cycles : CompletionCycles} {x : IssueRef} {i : Nat}

theorem getElem?_countedIssues (selections : List SprintSelection) (cycles : CompletionCycles)
    (i : Nat) : (countedIssues selections cycles)[i]? = selections[i]?.map fun s =>
      (listedIssues s).filter
        (isCredited cycles (credits selections.zipIdx cycles (findDuplicates selections)) i) := by
  rw [countedIssues, List.getElem?_map, List.getElem?_zipIdx, Nat.zero_add, Option.map_map]
  rfl

theorem mem_countedIssues_iff : x ∈ (countedIssues selections cycles).getD i [] ↔
    Counts selections cycles x i := by
  rw [List.getD_eq_getElem?_getD, getElem?_countedIssues, Counts, ← mem_owners_iff]
  cases hs : selections[i]? with
  | none => simp
  | some s =>
    rw [Option.map_some, Option.getD_some, List.mem_filter, isCredited_iff, mem_listedIssues_iff]
    simp [IsDuplicate]

theorem pairwise_countedIssues (selections : List SprintSelection) (cycles : CompletionCycles)
    (i : Nat) :
    ((countedIssues selections cycles).getD i []).Pairwise fun x y => x.number < y.number := by
  rw [List.getD_eq_getElem?_getD, getElem?_countedIssues]
  cases selections[i]? with
  | none => exact .nil
  | some s => exact (pairwise_listedIssues s).filter _

theorem getElem?_velocity (selections : List SprintSelection) (points : Estimates)
    (cycles : CompletionCycles) (i : Nat) :
    (velocity selections points cycles)[i]? = selections[i]?.map fun s =>
      { project := s.project
        sprint := s.sprint
        committedIssues := (listedIssues s).length
        countedIssues := ((countedIssues selections cycles).getD i []).length
        points := (((countedIssues selections cycles).getD i []).filterMap fun x =>
          points[x]?).foldl (· + ·) (-0.0) } := by
  rw [velocity, List.getElem?_zipWith, List.getD_eq_getElem?_getD, getElem?_countedIssues]
  cases selections[i]? <;> rfl

theorem mem_countedBy_iff : i ∈ countedBy selections cycles x ↔ Counts selections cycles x i := by
  rw [countedBy, List.mem_filter, List.mem_range, decide_eq_true_eq, mem_countedIssues_iff,
    and_iff_right_iff_imp]
  rintro ⟨⟨s, hs, -⟩, -⟩
  exact (List.getElem?_eq_some_iff.1 hs).1

theorem nodup_countedBy (selections : List SprintSelection) (cycles : CompletionCycles)
    (x : IssueRef) : (countedBy selections cycles x).Nodup :=
  List.nodup_range.filter _

variable {minimums : List Instant}

/-- The owners of its cycles count a duplicate, and nobody else does. -/
theorem mem_countedBy_duplicate_iff (hdup : IsDuplicate selections x)
    (hentry : cycles.get? x.project x.number = some minimums) :
    i ∈ countedBy selections cycles x ↔ ∃ t ∈ minimums, Owns selections x t i := by
  rw [mem_countedBy_iff, Counts, hentry]
  constructor
  · rintro ⟨-, hnot | hnone | ⟨_, ⟨⟩, h⟩⟩
    · exact absurd hdup hnot
    · cases hnone
    · exact h
  · rintro ⟨t, ht, howns⟩
    exact ⟨howns.lists, .inr (.inr ⟨minimums, rfl, t, ht, howns⟩)⟩

/-- No more selections count a duplicate than it has cycles. -/
theorem length_countedBy_le (hdup : IsDuplicate selections x)
    (hentry : cycles.get? x.project x.number = some minimums) :
    (countedBy selections cycles x).length ≤ minimums.length := by
  have hsub : countedBy selections cycles x ⊆ minimums.filterMap (owner? selections.zipIdx x) := by
    intro i hi
    obtain ⟨t, ht, howns⟩ := (mem_countedBy_duplicate_iff hdup hentry).1 hi
    exact List.mem_filterMap.2 ⟨t, ht, owner?_eq_some_iff.2 howns⟩
  calc (countedBy selections cycles x).length
      ≤ (minimums.filterMap (owner? selections.zipIdx x)).length :=
        (List.subperm_of_subset (nodup_countedBy selections cycles x) hsub).length_le
    _ ≤ minimums.length := List.length_filterMap_le _ _

/-- A selection counts a duplicate as soon as one has a claim to a cycle. -/
theorem countedBy_ne_nil_iff (hdup : IsDuplicate selections x)
    (hentry : cycles.get? x.project x.number = some minimums) :
    countedBy selections cycles x ≠ [] ↔
      ∃ t ∈ minimums, ∃ s ∈ selections, Lists s x ∧ s.window.contains t = true := by
  simp only [← exists_owns_iff]
  constructor
  · intro hne
    obtain ⟨i, hi⟩ := List.exists_mem_of_ne_nil _ hne
    obtain ⟨t, ht, howns⟩ := (mem_countedBy_duplicate_iff hdup hentry).1 hi
    exact ⟨t, ht, i, howns⟩
  · rintro ⟨t, ht, i, howns⟩
    exact List.ne_nil_of_mem ((mem_countedBy_duplicate_iff hdup hentry).2 ⟨t, ht, howns⟩)

end

theorem velocity_counts (selections : List SprintSelection) (points : Estimates)
    (cycles : CompletionCycles) :
    (∀ i : Nat, (velocity selections points cycles)[i]?.map (fun v => (v.countedIssues, v.points)) =
        selections[i]?.map fun _ => (((countedIssues selections cycles).getD i []).length,
          (((countedIssues selections cycles).getD i []).filterMap fun x => points[x]?).foldl
            (· + ·) (-0.0))) ∧
      (∀ i, ((countedIssues selections cycles).getD i []).Pairwise fun x y => x.number < y.number) ∧
      (∀ i x, x ∈ (countedIssues selections cycles).getD i [] ↔ Counts selections cycles x i) ∧
      ∀ x minimums, IsDuplicate selections x →
        cycles.get? x.project x.number = some minimums →
        (countedBy selections cycles x).length ≤ minimums.length ∧
          ((∃ t ∈ minimums, ∃ s ∈ selections, Lists s x ∧ s.window.contains t = true) →
            1 ≤ (countedBy selections cycles x).length) := by
  refine ⟨fun i => ?_, pairwise_countedIssues selections cycles, fun i x => mem_countedIssues_iff,
    fun x minimums hdup hentry => ⟨length_countedBy_le hdup hentry, fun hclaim => ?_⟩⟩
  · rw [getElem?_velocity, Option.map_map]
    rfl
  · exact List.length_pos_of_ne_nil ((countedBy_ne_nil_iff hdup hentry).2 hclaim)

/-- Two sprints that overlap from the eighth to the tenth of January. -/
def overlapping : List SprintSelection :=
  [⟨"A", "first", ⟨midnight 1, midnight 10⟩, ["S-1", "S-2"]⟩,
    ⟨"A", "second", ⟨midnight 8, midnight 20⟩, ["S-1"]⟩]

/-- A single completion of the issue that both sprints list. -/
def completedOn (day : Nat) : CompletionCycles := .ofList [(⟨"S-1", "A"⟩, [midnight day])]

theorem velocity_counts_overlapping :
    IsDuplicate overlapping ⟨"S-1", "A"⟩ ∧
      (completedOn 9).get? "A" "S-1" = some [midnight 9] ∧
      (velocity overlapping ∅ (completedOn 9)).map SprintVelocity.countedIssues = [2, 0] ∧
      (countedBy overlapping (completedOn 9) ⟨"S-1", "A"⟩).length ≤ 1 ∧
      1 ≤ (countedBy overlapping (completedOn 9) ⟨"S-1", "A"⟩).length := by
  have hdup : IsDuplicate overlapping ⟨"S-1", "A"⟩ := by
    unfold IsDuplicate
    decide +kernel
  have hentry : (completedOn 9).get? "A" "S-1" = some [midnight 9] := by decide +kernel
  obtain ⟨-, -, -, hduplicate⟩ := velocity_counts overlapping ∅ (completedOn 9)
  obtain ⟨hle, hge⟩ := hduplicate ⟨"S-1", "A"⟩ [midnight 9] hdup hentry
  refine ⟨hdup, hentry, by decide +kernel, hle, hge ?_⟩
  exact ⟨midnight 9, List.mem_singleton_self _, ⟨"A", "second", ⟨midnight 8, midnight 20⟩, ["S-1"]⟩,
    by decide +kernel, ⟨rfl, List.mem_singleton_self _⟩, by decide +kernel⟩

end IssueFlow.Delivery
