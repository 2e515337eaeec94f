import IssueFlow.Proofs.Batch.Processed
import IssueFlow.Proofs.Delivery.Velocity
import Mathlib.Data.List.Induction

/-!
# Deduplication of completed issues

A resolved cycle entry is the list of cycles of a duplicate's own history
(`exists_of_get?_resolveCycles`). Velocity does not lose an issue with a cycle that is dated inside
the window of a sprint that lists it: a single cycle is credited once (`countedBy_resolveCycles`).
A cycle that is dated outside of all those windows is credited to none of them.
-/

namespace IssueFlow.Delivery

open IssueFlow.Calendar IssueFlow.Tracker IssueFlow.Rules IssueFlow.Batch

/-! ## Entries -/

namespace CompletionCycles

theorem get?_insert (cycles : CompletionCycles) (x y : IssueRef) (minimums : List Instant) :
    (cycles.insert x minimums).get? y.project y.number =
      if x = y then some minimums else cycles.get? y.project y.number := by
  obtain ⟨n, p⟩ := x
  obtain ⟨n', p'⟩ := y
  simp only [insert, get?, Std.ExtTreeMap.getElem?_alter, IssueRef.mk.injEq]
  by_cases hp : p = p'
  · subst hp
    cases cycles.byProject[p]? <;> simp [Std.ExtTreeMap.getElem?_insert]
  · simp [hp]

theorem ofList_concat (entries : List (IssueRef × List Instant)) (e : IssueRef × List Instant) :
    ofList (entries ++ [e]) = (ofList entries).insert e.1 e.2 := by
  rw [ofList, List.foldl_append]
  rfl

/-- Of several entries for an issue the last one stays. -/
theorem get?_ofList (entries : List (IssueRef × List Instant)) (x : IssueRef) :
    (ofList entries).get? x.project x.number =
      (entries.filter fun entry => entry.1 = x).getLast?.map Prod.snd := by
  induction entries using List.reverseRecOn with
  | nil => simp [ofList, get?]
  | append_singleton entries entry ih =>
    rw [ofList_concat, get?_insert, ih, List.filter_append]
    by_cases h : entry.1 = x <;> simp [h]

theorem mem_of_get?_ofList {entries : List (IssueRef × List Instant)} {x : IssueRef}
    {minimums : List Instant} (h : (ofList entries).get? x.project x.number = some minimums) :
    (x, minimums) ∈ entries := by
  rw [get?_ofList] at h
  obtain ⟨⟨y, ms⟩, hlast, rfl⟩ := Option.map_eq_some_iff.1 h
  obtain ⟨hmem, hy⟩ := List.mem_filter.1 (List.mem_of_getLast? hlast)
  exact of_decide_eq_true hy ▸ hmem

end CompletionCycles

section

variable {lookup : HistoryLookup} {s : ClassificationSet} {c : Classification} {o : Options}
  {duplicates : DuplicateSet} {unit : String × TextSet} {x : IssueRef} {minimums : List Instant}

theorem resolveDuplicate_eq_ok_iff : resolveDuplicate lookup c x = .ok minimums ↔
    ∃ raw h, lookup x = some raw ∧ raw.resolve = .ok h ∧ minimums = cycleMinimums c h := by
  unfold resolveDuplicate
  cases lookup x with
  | none => simp
  | some raw => cases hr : raw.resolve <;> simp [hr, eq_comm]

theorem toOption_eq_some_iff {ε α : Type} {outcome : Except ε α} {a : α} :
    outcome.toOption = some a ↔ outcome = .ok a := by
  cases outcome <;> simp [Except.toOption]

theorem mem_resolved_iff : (x, minimums) ∈ (resolveProject lookup s unit).resolved ↔
    x.project = unit.1 ∧ x.number ∈ unit.2 ∧
      ∃ c, s.get? unit.1 = some c ∧ resolveDuplicate lookup c x = .ok minimums := by
  unfold resolveProject
  cases s.get? unit.1 with
  | none => simp
  | some c =>
    simp only [ProjectOutcome.gather, List.filterMap_map, List.mem_filterMap, Function.comp_apply,
      Option.map_eq_some_iff, toOption_eq_some_iff, Std.ExtTreeSet.mem_toList, Option.some.injEq,
      exists_eq_left', Prod.mk.injEq]
    constructor
    · rintro ⟨number, hnumber, ms, hresolve, rfl, rfl⟩
      exact ⟨rfl, hnumber, hresolve⟩
    · rintro ⟨hproject, hnumber, hresolve⟩
      have hx : (⟨x.number, unit.1⟩ : IssueRef) = x := by rw [← hproject]
      exact ⟨x.number, hnumber, minimums, hx ▸ hresolve, hx, rfl⟩

/-- An entry holds the cycles of the issue's own history, and only duplicates have one. -/
theorem exists_of_get?_resolveCycles
    (h : (resolveCycles lookup s o duplicates).cycles.get? x.project x.number = some minimums) :
    x.number ∈ duplicates.getD x.project ∅ ∧ ∃ c raw history, s.get? x.project = some c ∧
      lookup x = some raw ∧ raw.resolve = .ok history ∧ minimums = cycleMinimums c history := by
  have hentry := CompletionCycles.mem_of_get?_ofList h
  rw [List.mem_flatMap] at hentry
  have hskip (u : String × TextSet) (code : ErrorCode) :
      ¬ (x, minimums) ∈ (projectUnit u (.error code)).resolved := List.not_mem_nil
  rw [exists_mem_zipWith_fanOut_iff hskip] at hentry
  obtain ⟨unit, hunit, hmem⟩ := hentry
  obtain ⟨hproject, hnumber, c, hc, hresolve⟩ := mem_resolved_iff.1 hmem
  obtain ⟨raw, history, hraw, hr, hm⟩ := resolveDuplicate_eq_ok_iff.1 hresolve
  have hentry : duplicates[x.project]? = some unit.2 := by
    rw [hproject]
    exact Std.ExtTreeMap.mem_toList_iff_getElem?_eq_some.1 ((processed_sublist o _).subset hunit)
  rw [Std.ExtTreeMap.getD_eq_getD_getElem?, hentry]
  exact ⟨hnumber, c, raw, history, hproject ▸ hc, hraw, hr, hm⟩

end

theorem countedBy_resolveCycles (selections : List SprintSelection) (lookup : HistoryLookup)
    (s : ClassificationSet) (o : Options) {x : IssueRef} {minimums : List Instant}
    (hentry : (resolveCycles lookup s o (findDuplicates selections)).cycles.get? x.project x.number
      = some minimums) :
    (∃ c raw h, s.get? x.project = some c ∧ lookup x = some raw ∧ raw.resolve = .ok h ∧
        minimums = cycleMinimums c h) ∧
      (countedBy selections (resolveCycles lookup s o (findDuplicates selections)).cycles x ≠ [] ↔
        ∃ t ∈ minimums, ∃ sel ∈ selections, Lists sel x ∧ sel.window.contains t = true) ∧
      ∀ t, minimums = [t] →
        (∃ sel ∈ selections, Lists sel x ∧ sel.window.contains t = true) →
        (countedBy selections (resolveCycles lookup s o (findDuplicates selections)).cycles
          x).length = 1 := by
  obtain ⟨hdup, hhistory⟩ := exists_of_get?_resolveCycles hentry
  refine ⟨hhistory, countedBy_ne_nil_iff hdup hentry, fun t ht hclaim => ?_⟩
  subst ht
  have hle := length_countedBy_le hdup hentry
  have hpos := List.length_pos_of_ne_nil
    ((countedBy_ne_nil_iff hdup hentry).2 ⟨t, List.mem_singleton_self t, hclaim⟩)
  exact Nat.le_antisymm hle hpos

/-- The issue that two sprints list, done at the given time. -/
def doneAt (timestamp : String) : IssueHistory where
  issue := ⟨"S-1", "A"⟩
  log := [⟨"Open", "Done", timestamp⟩]
  created := "2024-01-01"

/-- Done completes the issues of the project. -/
def completedByDone : ClassificationSet :=
  ClassificationSet.insert {} "A" { completion := .ofList ["Done"] }

/-- The cycles of the issue, done at the given time. -/
def cyclesDoneAt (timestamp : String) : CompletionCycles :=
  (resolveCycles (lookupFirst [doneAt timestamp]) completedByDone {}
    (findDuplicates overlapping)).cycles

theorem countedBy_cyclesDoneAt_ninth :
    (cyclesDoneAt "2024-01-09").get? "A" "S-1" = some [midnight 9] ∧
      (countedBy overlapping (cyclesDoneAt "2024-01-09") ⟨"S-1", "A"⟩).length = 1 := by
  have hentry : (cyclesDoneAt "2024-01-09").get? "A" "S-1" = some [midnight 9] := by decide +kernel
  have hclaim : ∃ sel ∈ overlapping, Lists sel ⟨"S-1", "A"⟩ ∧
      sel.window.contains (midnight 9) = true :=
    ⟨⟨"A", "second", ⟨midnight 8, midnight 20⟩, ["S-1"]⟩, by decide +kernel,
      ⟨rfl, List.mem_singleton_self _⟩, by decide +kernel⟩
  have hcounted := countedBy_resolveCycles (x := ⟨"S-1", "A"⟩) overlapping
    (lookupFirst [doneAt "2024-01-09"]) completedByDone {} hentry
  exact ⟨hentry, hcounted.2.2 (midnight 9) rfl hclaim⟩

theorem countedIssues_cyclesDoneAt_last :
    IsDuplicate overlapping ⟨"S-1", "A"⟩ ∧
      (cyclesDoneAt "2024-01-25").get? "A" "S-1" = some [midnight 25] ∧
      countedIssues overlapping (cyclesDoneAt "2024-01-25") = [[⟨"S-2", "A"⟩], []] ∧
      (velocity overlapping ∅ (cyclesDoneAt "2024-01-25")).map SprintVelocity.countedIssues =
        [1, 0] := by
  unfold IsDuplicate
  decide +kernel

end IssueFlow.Delivery
