import IssueFlow.Proofs.Flow.Parts
import Mathlib.Data.List.Nodup

/-!
# Failures in a batch

An issue fails if the record that would be replayed does not resolve (`FailsWith`). The batch places
the other issues as if the failed ones were not in it, and reports every failure and every project
without a classification once, and nothing else (`replay_failures`).
-/

namespace IssueFlow.Flow

open IssueFlow.Calendar IssueFlow.Tracker IssueFlow.Rules IssueFlow.Batch IssueFlow.Quality
  IssueFlow.Delivery

/-- The issue is in scope, and its first record does not resolve. -/
def FailsWith (scope : Option (List Defect × FilterRules)) (issues : List IssueHistory)
    (issue : IssueRef) (e : ResolveError) : Prop :=
  InScope scope issue ∧
    ∃ raw, issues.find? (fun x => x.issue = issue) = some raw ∧ raw.resolve = .error e

def Fails (scope : Option (List Defect × FilterRules)) (issues : List IssueHistory)
    (issue : IssueRef) : Prop :=
  ∃ e, FailsWith scope issues issue e

/-- The project has an issue in scope, and no classification. -/
def IsUnclassified (s : ClassificationSet) (scope : Option (List Defect × FilterRules))
    (issues : List IssueHistory) (project : String) : Prop :=
  s.get? project = none ∧ ∃ raw ∈ issues, InScope scope raw.issue ∧ raw.issue.project = project

/-! ## Failed issues -/

section

variable {scope : Option (List Defect × FilterRules)} {issues : List IssueHistory}
  {raw : IssueHistory} {issue : IssueRef} {e : ResolveError}

theorem failsWith_iff : FailsWith scope issues issue e ↔
    ∃ raw ∈ admitted scope issues, raw.issue = issue ∧ raw.resolve = .error e := by
  simp only [mem_admitted_iff]
  constructor
  · rintro ⟨hscope, raw, hfirst, he⟩
    obtain rfl : raw.issue = issue := by simpa using List.find?_some hfirst
    exact ⟨raw, ⟨hscope, hfirst⟩, rfl, he⟩
  · rintro ⟨raw, ⟨hscope, hfirst⟩, rfl, he⟩
    exact ⟨hscope, raw, hfirst, he⟩

theorem FailsWith.issue_eq (h : FailsWith scope issues issue e) : e.issue = issue := by
  obtain ⟨raw, -, hraw, he⟩ := failsWith_iff.1 h
  exact (IssueHistory.issue_of_resolve_error he).trans hraw

theorem FailsWith.unique {e' : ResolveError} (h : FailsWith scope issues issue e)
    (h' : FailsWith scope issues issue e') : e = e' := by
  obtain ⟨-, raw, hraw, he⟩ := h
  obtain ⟨-, raw', hraw', he'⟩ := h'
  obtain rfl := Option.some.inj (hraw.symm.trans hraw')
  exact Except.error.inj (he.symm.trans he')

theorem isOk_eq_false_iff : raw.resolve.isOk = false ↔ ∃ e, raw.resolve = .error e := by
  cases raw.resolve <;> simp [Except.isOk, Except.toBool]

theorem fails_iff : Fails scope issues issue ↔
    ∃ raw ∈ admitted scope issues, raw.issue = issue ∧ raw.resolve.isOk = false := by
  simp only [Fails, failsWith_iff, isOk_eq_false_iff]
  constructor
  · rintro ⟨e, raw, hraw, hissue, he⟩
    exact ⟨raw, hraw, hissue, e, he⟩
  · rintro ⟨raw, hraw, hissue, e, he⟩
    exact ⟨e, raw, hraw, hissue, he⟩

instance : Decidable (Fails scope issues issue) := decidable_of_iff _ fails_iff.symm

/-- The records of the issues that do not fail. -/
def unfailed (scope : Option (List Defect × FilterRules)) (issues : List IssueHistory) :
    List IssueHistory :=
  issues.filter fun raw => ¬ Fails scope issues raw.issue

/-- The units of a batch without the failed issues are the units that resolve. -/
theorem admitted_unfailed : admitted scope (unfailed scope issues) =
    (admitted scope issues).filter fun raw => raw.resolve.isOk := by
  have hissue (x y : IssueHistory) (hxy : x.issue = y.issue) :
      decide (¬ Fails scope issues x.issue) = decide (¬ Fails scope issues y.issue) := by
    rw [hxy]
  rw [unfailed, admitted_filter hissue]
  refine List.filter_congr fun raw hraw => ?_
  have hfails : Fails scope issues raw.issue ↔ raw.resolve.isOk = false := by
    rw [fails_iff]
    constructor
    · rintro ⟨raw', hraw', heq, hfail⟩
      have hfirst := (mem_admitted_iff.1 hraw').2
      rw [heq, (mem_admitted_iff.1 hraw).2] at hfirst
      obtain rfl := Option.some.inj hfirst
      exact hfail
    · intro hfail
      exact ⟨raw, hraw, rfl, hfail⟩
  rw [decide_not, Bool.not_eq_eq_eq_not]
  cases hok : raw.resolve.isOk <;> simp [hfails, hok]

theorem isUnclassified_iff {s : ClassificationSet} {project : String} :
    IsUnclassified s scope issues project ↔
      s.get? project = none ∧ ∃ raw ∈ admitted scope issues, raw.issue.project = project := by
  refine and_congr_right fun _ => ⟨?_, ?_⟩
  · rintro ⟨raw, hraw, hscope, rfl⟩
    obtain ⟨first, hfirst⟩ : ∃ first, issues.find? (fun x => x.issue = raw.issue) = some first := by
      rw [← Option.isSome_iff_exists, List.find?_isSome]
      exact ⟨raw, hraw, decide_eq_true rfl⟩
    have hissue : first.issue = raw.issue := by simpa using List.find?_some hfirst
    rw [← hissue] at hscope hfirst
    exact ⟨first, mem_admitted_iff.2 ⟨hscope, hfirst⟩, congrArg _ hissue⟩
  · rintro ⟨raw, hraw, hproject⟩
    obtain ⟨hscope, hfirst⟩ := mem_admitted_iff.1 hraw
    exact ⟨raw, List.mem_of_find?_eq_some hfirst, hscope, hproject⟩

end

/-! ## Reports -/

section

variable {s : ClassificationSet} {request : ReplayRequest} {grouping : Grouping}
  {issues : List IssueHistory} {units : List IssueHistory} {rangeStart today : Date}
  {cycles : Option CompletionCycles} {x y : Diagnostic}

/-- Units that do not resolve add nothing to the index. -/
theorem index_gather_filter {keep : IssueHistory → Bool}
    (hkeep : ∀ raw ∈ units, raw.resolve.isOk = true → keep raw = true) :
    (ReplayOutput.gather ((units.filter keep).map
        (replayIssue s cycles grouping rangeStart today))).index =
      (ReplayOutput.gather (units.map (replayIssue s cycles grouping rangeStart today))).index := by
  have htidy (units : List IssueHistory) :
      ∀ output ∈ units.map (replayIssue s cycles grouping rangeStart today), output.index.Tidy := by
    intro output hmem
    obtain ⟨raw, -, rfl⟩ := List.mem_map.1 hmem
    exact tidy_replayIssue
  refine (tidy_gather (htidy _)).ext (tidy_gather (htidy _)) fun value d key => ?_
  simp only [holds_gather_iff, List.mem_map, List.mem_filter, exists_exists_and_eq_and,
    holds_replayIssue_iff]
  refine exists_congr fun raw => ⟨?_, ?_⟩
  · rintro ⟨⟨hraw, -⟩, hplaced⟩
    exact ⟨hraw, hplaced⟩
  · rintro ⟨hraw, hkey, h, hr, hp⟩
    exact ⟨⟨hraw, hkeep raw hraw (by rw [hr]; rfl)⟩, hkey, h, hr, hp⟩

theorem unitOutputs_eq_map (hstart : request.rangeStart = some rangeStart)
    (htoday : request.today = some today) : unitOutputs s request grouping issues =
      (admitted request.defectScope issues).map
        (replayIssue s request.cycles grouping rangeStart today) := by
  rw [unitOutputs, hstart, htoday]

theorem mem_diagnostics_replay_iff (hstart : request.rangeStart = some rangeStart)
    (htoday : request.today = some today) (ho : request.options = {}) :
    x ∈ (replay s request grouping issues).diagnostics ↔
      (∃ issue e, FailsWith request.defectScope issues issue e ∧ x = .malformed e) ∨
        ∃ project, IsUnclassified s request.defectScope issues project ∧
          x = unclassified project := by
  rw [replay_eq_gather ho, unitOutputs_eq_map hstart htoday]
  simp only [ReplayOutput.gather, Diagnostic.distinct, Order.mem_distinctOn_id, List.mem_flatMap,
    List.mem_map, exists_exists_and_eq_and, mem_diagnostics_replayIssue_iff, and_or_left,
    exists_or, failsWith_iff, isUnclassified_iff]
  refine or_congr ⟨?_, ?_⟩ ⟨?_, ?_⟩
  · rintro ⟨raw, hraw, e, he, rfl⟩
    exact ⟨raw.issue, e, ⟨raw, hraw, rfl, he⟩, rfl⟩
  · rintro ⟨_, e, ⟨raw, hraw, rfl, he⟩, rfl⟩
    exact ⟨raw, hraw, e, he, rfl⟩
  · rintro ⟨raw, hraw, hmissing, rfl⟩
    exact ⟨raw.issue.project, ⟨hmissing, raw, hraw, rfl⟩, rfl⟩
  · rintro ⟨_, ⟨hmissing, raw, hraw, rfl⟩, rfl⟩
    exact ⟨raw, hraw, hmissing, rfl⟩

/-- What is reported on an issue or on a project is one thing. -/
theorem eq_of_scope_eq (hstart : request.rangeStart = some rangeStart)
    (htoday : request.today = some today) (ho : request.options = {})
    (hx : x ∈ (replay s request grouping issues).diagnostics)
    (hy : y ∈ (replay s request grouping issues).diagnostics) (h : x.scope = y.scope) : x = y := by
  rw [mem_diagnostics_replay_iff hstart htoday ho] at hx hy
  rcases hx with ⟨issue, e, he, rfl⟩ | ⟨project, -, rfl⟩
  · rcases hy with ⟨issue', e', he', rfl⟩ | ⟨project', -, rfl⟩
    · have hissue : e.issue = e'.issue := Scope.issue.inj h
      rw [he.issue_eq, he'.issue_eq] at hissue
      subst hissue
      rw [he.unique he']
    · cases h
  · rcases hy with ⟨issue', e', -, rfl⟩ | ⟨project', -, rfl⟩
    · cases h
    · rw [Scope.project.inj h]

theorem nodup_diagnostics (ho : request.options = {}) :
    (replay s request grouping issues).diagnostics.Nodup := by
  rw [replay_eq_gather ho]
  exact Order.nodup_distinctOn_id

end

theorem replay_failures (s : ClassificationSet) {request : ReplayRequest} (grouping : Grouping)
    (issues : List IssueHistory) {rangeStart today : Date}
    (hstart : request.rangeStart = some rangeStart) (htoday : request.today = some today)
    (ho : request.options = {}) :
    (replay s request grouping issues).index =
        (replay s request grouping (unfailed request.defectScope issues)).index ∧
      ((replay s request grouping issues).diagnostics.map Diagnostic.scope).Nodup ∧
      ∀ x, x ∈ (replay s request grouping issues).diagnostics ↔
        (∃ issue e, FailsWith request.defectScope issues issue e ∧
          x = ⟨.issue issue, .malformedTimestamp, e.message⟩) ∨
        ∃ project, IsUnclassified s request.defectScope issues project ∧
          x = ⟨.project project, .missingClassification,
            "no classification; replayed with defaults"⟩ := by
  refine ⟨?_, ?_, fun x => ?_⟩
  · rw [replay_eq_gather ho, replay_eq_gather ho, unitOutputs_eq_map hstart htoday,
      unitOutputs_eq_map hstart htoday, admitted_unfailed, index_gather_filter fun _ _ hok => hok]
  · apply List.Nodup.map_on _ (nodup_diagnostics ho)
    intro x hx y hy h
    exact eq_of_scope_eq hstart htoday ho hx hy h
  · rw [mem_diagnostics_replay_iff hstart htoday ho]
    apply or_congr_left
    refine exists_congr fun issue => exists_congr fun e => and_congr_right fun he => ?_
    rw [Diagnostic.malformed, he.issue_eq]

/-- A later record of the unreadable issue, with a creation that can be read. -/
def unreadableAgain : IssueHistory := { unreadable with created := "2024-01-01" }

/-- Only the first project is classified. -/
def onlyFirst : ClassificationSet := ClassificationSet.insert {} "A" {}

theorem replay_failures_unreadable :
    twoDays.rangeStart = some (january 1) ∧ twoDays.today = some (january 2) ∧
      twoDays.options = {} ∧
      (replay onlyFirst twoDays .byStatus [unreadable, inReview, unreadableAgain]).index =
        (replay onlyFirst twoDays .byStatus [inReview]).index ∧
      (replay onlyFirst twoDays .byStatus [inReview]).index.Holds "Review" (january 2) "A/T-1" ∧
      (replay onlyFirst twoDays .byStatus [unreadable, inReview, unreadableAgain]).diagnostics =
        [unclassified "B", ⟨.issue ⟨"T-1", "B"⟩, .malformedTimestamp,
          "B/T-1: created: unrecognised timestamp 'yesterday'"⟩] := by
  have hunfailed : unfailed twoDays.defectScope [unreadable, inReview, unreadableAgain] =
      [inReview] := by
    decide +kernel
  have hstart : twoDays.rangeStart = some (january 1) := rfl
  have htoday : twoDays.today = some (january 2) := rfl
  have hoptions : twoDays.options = {} := rfl
  obtain ⟨hindex, -, -⟩ := replay_failures onlyFirst .byStatus
    [unreadable, inReview, unreadableAgain] hstart htoday hoptions
  rw [hunfailed] at hindex
  exact ⟨hstart, htoday, hoptions, hindex,
    ⟨.ofList ["A/T-1"], by decide +kernel, by decide +kernel⟩, by decide +kernel⟩

end IssueFlow.Flow
