import IssueFlow.Proofs.Flow.Parts
import IssueFlow.Proofs.Order.Maps
import IssueFlow.Quality.Reopen

/-!
# Limited batches

A limited batch is the batch over its first units, and one report for each unit that it skips
(`limited_batches`): the results stay with their units, and no report is lost among the diagnostics
of the units before it. A batch that was cancelled before it started reports every unit and computes
nothing.
-/

namespace IssueFlow.Batch

open IssueFlow.Calendar IssueFlow.Tracker IssueFlow.Rules IssueFlow.Quality IssueFlow.Delivery
  IssueFlow.Flow

variable {α β γ δ : Type}

/-! ## Reports -/

/-- The report on a skipped issue. -/
def issueReport (detail : String) (code : ErrorCode) (raw : IssueHistory) : Diagnostic :=
  ⟨.issue raw.issue, code, detail⟩

/-- The report on a skipped project. -/
def projectReport (code : ErrorCode) (unit : String × TextSet) : Diagnostic :=
  ⟨.project unit.1, code, "project not processed"⟩

/-- The reports on the units after the first `k`. -/
def limitReports (report : ErrorCode → α → Diagnostic) (k : Nat) (units : List α) :
    List Diagnostic :=
  (units.drop k).map (report .batchLimitReached)

/-- The reports on all units: the first `k` are cancelled, and the others are past the limit. -/
def cancelReports (report : ErrorCode → α → Diagnostic) (k : Nat) (units : List α) :
    List Diagnostic :=
  (units.take k).map (report .cancelled) ++ limitReports report k units

section

variable {g : α → Except ErrorCode β → γ} {part : γ → List δ} {code : ErrorCode}

theorem flatMap_skipped_eq_nil (units : List α) (h : ∀ u, part (g u (.error code)) = []) :
    (units.map fun u => g u (.error code)).flatMap part = [] := by
  rw [List.flatMap_map]
  exact List.flatMap_eq_nil_iff.2 fun u _ => h u

theorem flatMap_skipped_eq_map {report : α → δ} (units : List α)
    (h : ∀ u, part (g u (.error code)) = [report u]) :
    (units.map fun u => g u (.error code)).flatMap part = units.map report := by
  rw [List.flatMap_map, List.map_eq_flatMap]
  simp only [h]

end

/-! ## Replay -/

/-- A replay over the dates between two bounds, under the given limits. -/
def replayBetween (s : ClassificationSet) (request : ReplayRequest) (rangeStart today : Date)
    (o : Options) (grouping : Grouping) (issues : List IssueHistory) : ReplayOutput :=
  replay s { request with rangeStart := some rangeStart, today := some today, options := o }
    grouping issues

section

variable {s : ClassificationSet} {cycles : Option CompletionCycles} {grouping : Grouping}
  {scope : Option (List Defect × FilterRules)} {rangeStart today : Date} {raw : IssueHistory}
  {issues units : List IssueHistory} {outputs : List ReplayOutput} {code : ErrorCode}

theorem code_of_mem_replayIssue {x : Diagnostic}
    (h : x ∈ (replayIssue s cycles grouping rangeStart today raw).diagnostics) :
    x.code = .missingClassification ∨ x.code = .malformedTimestamp := by
  rcases mem_diagnostics_replayIssue_iff.1 h with ⟨e, -, rfl⟩ | ⟨-, rfl⟩
  · exact .inr rfl
  · exact .inl rfl

/-- The units of a batch are the units of any part of them. -/
theorem admitted_eq_self (h : units.Sublist (admitted scope issues)) :
    admitted scope units = units := by
  rw [admitted_eq_filter ((pairwise_admitted _ _).sublist h), List.filter_eq_self]
  intro raw hraw
  exact (List.mem_filter.1 (Order.mem_of_mem_distinctOn (h.subset hraw))).2

theorem tidy_skipped :
    ∀ output ∈ units.map fun raw => replayUnit raw (.error code), output.index.Tidy := by
  intro output hmem
  obtain ⟨raw, -, rfl⟩ := List.mem_map.1 hmem
  exact FlowIndex.tidy_empty

theorem index_gather_append_skipped (htidy : ∀ output ∈ outputs, output.index.Tidy) :
    (ReplayOutput.gather (outputs ++ units.map fun raw => replayUnit raw (.error code))).index =
      (ReplayOutput.gather outputs).index := by
  have hall : ∀ output ∈ outputs ++ units.map fun raw => replayUnit raw (.error code),
      output.index.Tidy :=
    List.forall_mem_append.2 ⟨htidy, tidy_skipped⟩
  refine (tidy_gather hall).ext (tidy_gather htidy) fun value d key => ?_
  simp [holds_gather_iff, or_and_right, exists_or, replayUnit, FlowIndex.not_holds_empty]

/-- The report on an issue outlives the removal of repeats if no other unit has one like it. -/
theorem diagnostics_gather_append_skipped
    (hcode : ∀ output ∈ outputs, ∀ x ∈ output.diagnostics, x.code ≠ code)
    (hunits : units.Pairwise fun x y => x.issue ≠ y.issue) :
    (ReplayOutput.gather
        (outputs ++ units.map fun raw => replayUnit raw (.error code))).diagnostics =
      (ReplayOutput.gather outputs).diagnostics ++
        units.map (issueReport "issue not replayed" code) := by
  have hreports : (units.map fun raw => replayUnit raw (.error code)).flatMap
      ReplayOutput.diagnostics = units.map (issueReport "issue not replayed" code) :=
    flatMap_skipped_eq_map units fun _ => rfl
  simp only [ReplayOutput.gather, List.flatMap_append, hreports]
  refine Order.distinctOn_id_append_of_notMem ?_ ?_
  · rw [List.Nodup, List.pairwise_map]
    refine hunits.imp fun {x y} hne heq => hne ?_
    simpa [issueReport] using heq
  · intro x hx hmem
    obtain ⟨raw, -, rfl⟩ := List.mem_map.1 hx
    obtain ⟨output, houtput, hmem⟩ := List.mem_flatMap.1 hmem
    exact hcode output houtput _ hmem rfl

theorem gather_append_skipped (htidy : ∀ output ∈ outputs, output.index.Tidy)
    (hcode : ∀ output ∈ outputs, ∀ x ∈ output.diagnostics, x.code ≠ code)
    (hunits : units.Pairwise fun x y => x.issue ≠ y.issue) :
    ReplayOutput.gather (outputs ++ units.map fun raw => replayUnit raw (.error code)) =
      ⟨(ReplayOutput.gather outputs).index, (ReplayOutput.gather outputs).diagnostics ++
        units.map (issueReport "issue not replayed" code)⟩ :=
  congrArg₂ ReplayOutput.mk (index_gather_append_skipped htidy)
    (diagnostics_gather_append_skipped hcode hunits)

theorem replayBetween_limited (s : ClassificationSet) (request : ReplayRequest)
    (rangeStart today : Date) (grouping : Grouping) (issues : List IssueHistory) (k : Nat) :
    replayBetween s request rangeStart today { maxUnits := some k } grouping issues =
      let units := admitted request.defectScope issues
      let first := replayBetween s request rangeStart today {} grouping (units.take k)
      ⟨first.index,
        first.diagnostics ++ limitReports (issueReport "issue not replayed") k units⟩ := by
  have hfirst := admitted_eq_self (List.take_sublist k (admitted request.defectScope issues))
  simp only [replayBetween, replay, hfirst, zipWith_fanOut_limited, zipWith_fanOut_unlimited]
  refine gather_append_skipped ?_ ?_ ?_
  · intro output hmem
    obtain ⟨raw, -, rfl⟩ := List.mem_map.1 hmem
    exact tidy_replayIssue
  · intro output hmem x hx hcode
    obtain ⟨raw, -, rfl⟩ := List.mem_map.1 hmem
    have hx := code_of_mem_replayIssue hx
    simp [hcode] at hx
  · exact (pairwise_admitted _ _).sublist (List.drop_sublist k _)

theorem replayBetween_cancelled (s : ClassificationSet) (request : ReplayRequest)
    (rangeStart today : Date) (grouping : Grouping) (issues : List IssueHistory) (k : Nat) :
    replayBetween s request rangeStart today { maxUnits := some k, cancelled := true } grouping
        issues =
      ⟨{}, cancelReports (issueReport "issue not replayed") k
        (admitted request.defectScope issues)⟩ := by
  have hpairs := pairwise_admitted request.defectScope issues
  have hnone : ∀ output ∈ ([] : List ReplayOutput), output.index.Tidy := by simp
  have hcancelled : ReplayOutput.gather
      (((admitted request.defectScope issues).take k).map fun raw =>
        replayUnit raw (.error .cancelled)) =
      ⟨{}, ((admitted request.defectScope issues).take k).map
        (issueReport "issue not replayed" .cancelled)⟩ :=
    gather_append_skipped hnone (by simp) (hpairs.sublist (List.take_sublist k _))
  simp only [replayBetween, replay, zipWith_fanOut_cancelled]
  rw [gather_append_skipped tidy_skipped, hcancelled]
  · rfl
  · intro output hmem x hx
    obtain ⟨raw, -, rfl⟩ := List.mem_map.1 hmem
    obtain rfl := List.mem_singleton.1 hx
    simp
  · exact hpairs.sublist (List.drop_sublist k _)

end

/-! ## Reopens -/

section

variable (histories : List IssueHistory) (code : ErrorCode)

theorem transitions_skipped : (histories.map fun raw => reopenUnit raw (.error code)).flatMap
    ReopenOutput.transitions = [] :=
  flatMap_skipped_eq_nil histories fun _ => rfl

theorem diagnostics_skipped : (histories.map fun raw => reopenUnit raw (.error code)).flatMap
    ReopenOutput.diagnostics = histories.map (issueReport "issue not processed" code) :=
  flatMap_skipped_eq_map histories fun _ => rfl

theorem detectAll_limited (s : ClassificationSet) (window : Window) (k : Nat) :
    detectAll s window { maxUnits := some k } histories =
      let first := detectAll s window {} (histories.take k)
      ⟨first.transitions,
        first.diagnostics ++ limitReports (issueReport "issue not processed") k histories⟩ := by
  simp only [detectAll, zipWith_fanOut_limited, List.flatMap_append, transitions_skipped,
    diagnostics_skipped, List.append_nil, limitReports]

theorem detectAll_cancelled (s : ClassificationSet) (window : Window) (k : Nat) :
    detectAll s window { maxUnits := some k, cancelled := true } histories =
      ⟨[], cancelReports (issueReport "issue not processed") k histories⟩ := by
  simp only [detectAll, zipWith_fanOut_cancelled, List.flatMap_append, transitions_skipped,
    diagnostics_skipped, List.append_nil, cancelReports, limitReports]

end

/-! ## Cycles -/

section

variable (lookup : HistoryLookup) (s : ClassificationSet) (duplicates : DuplicateSet) (k : Nat)

theorem resolved_skipped (units : List (String × TextSet)) (code : ErrorCode) :
    (units.map fun unit => projectUnit unit (.error code)).flatMap ProjectOutcome.resolved = [] :=
  flatMap_skipped_eq_nil units fun _ => rfl

theorem reports_skipped (units : List (String × TextSet)) (code : ErrorCode) :
    (units.map fun unit => projectUnit unit (.error code)).flatMap ProjectOutcome.diagnostics =
      units.map (projectReport code) :=
  flatMap_skipped_eq_map units fun _ => rfl

theorem resolveCycles_limited :
    resolveCycles lookup s { maxUnits := some k } duplicates =
      let first := resolveCycles lookup s {} (.ofList (duplicates.toList.take k))
      ⟨first.cycles, first.diagnostics ++ limitReports projectReport k duplicates.toList⟩ := by
  have hfirst : (Std.ExtTreeMap.ofList (duplicates.toList.take k)).toList =
      duplicates.toList.take k :=
    Order.toList_ofList_of_pairwise (Std.ExtTreeMap.ordered_keys_toList.sublist (List.take_sublist k _))
  simp only [resolveCycles, hfirst, zipWith_fanOut_limited, List.flatMap_append, resolved_skipped,
    reports_skipped, List.append_nil, limitReports]

theorem resolveCycles_cancelled :
    resolveCycles lookup s { maxUnits := some k, cancelled := true } duplicates =
      ⟨{}, cancelReports projectReport k duplicates.toList⟩ := by
  simp only [resolveCycles, zipWith_fanOut_cancelled, List.flatMap_append, resolved_skipped,
    reports_skipped, List.append_nil, cancelReports, limitReports]
  rfl

end

/-! ## All batches -/

theorem limited_batches (s : ClassificationSet) (k : Nat) :
    (∀ (request : ReplayRequest) (rangeStart today : Date) (grouping : Grouping)
        (issues : List IssueHistory),
      let units := admitted request.defectScope issues
      let run := fun o issues => replayBetween s request rangeStart today o grouping issues
      let first := run {} (units.take k)
      run { maxUnits := some k } issues =
          ⟨first.index,
            first.diagnostics ++ limitReports (issueReport "issue not replayed") k units⟩ ∧
        run { maxUnits := some k, cancelled := true } issues =
          ⟨{}, cancelReports (issueReport "issue not replayed") k units⟩) ∧
    (∀ (window : Window) (histories : List IssueHistory),
      let first := detectAll s window {} (histories.take k)
      detectAll s window { maxUnits := some k } histories =
          ⟨first.transitions,
            first.diagnostics ++ limitReports (issueReport "issue not processed") k histories⟩ ∧
        detectAll s window { maxUnits := some k, cancelled := true } histories =
          ⟨[], cancelReports (issueReport "issue not processed") k histories⟩) ∧
    ∀ (lookup : HistoryLookup) (duplicates : DuplicateSet),
      let first := resolveCycles lookup s {} (.ofList (duplicates.toList.take k))
      resolveCycles lookup s { maxUnits := some k } duplicates =
          ⟨first.cycles, first.diagnostics ++ limitReports projectReport k duplicates.toList⟩ ∧
        resolveCycles lookup s { maxUnits := some k, cancelled := true } duplicates =
          ⟨{}, cancelReports projectReport k duplicates.toList⟩ := by
  refine ⟨?_, ?_, ?_⟩
  · intro request rangeStart today grouping issues
    exact ⟨replayBetween_limited s request rangeStart today grouping issues k,
      replayBetween_cancelled s request rangeStart today grouping issues k⟩
  · intro window histories
    exact ⟨detectAll_limited histories s window k, detectAll_cancelled histories s window k⟩
  · intro lookup duplicates
    exact ⟨resolveCycles_limited lookup s duplicates k,
      resolveCycles_cancelled lookup s duplicates k⟩

end IssueFlow.Batch
