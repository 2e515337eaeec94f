import IssueFlow.Proofs.Flow.Batch

/-!
# Replay by field

`holds_fieldReplay_iff` says day by day what a replay by field reports, without segments or walks.
Each day is decided by its own value: a day that resolves closed is left out and ends nothing, so
the days after a reopen are filled again. The value that an issue is placed under is its own
attribute (`FieldSelector.GroupsUnder`), the same on every day.
-/

namespace IssueFlow.Flow

open IssueFlow.Calendar IssueFlow.Tracker IssueFlow.Rules IssueFlow.Batch IssueFlow.Quality
  IssueFlow.Delivery

/-! ## Attributes -/

namespace FieldSelector

/-- The issue has the attribute, and it is not blank: its priority is trimmed, and of its root
causes the first one with a canonical form counts. -/
inductive Names : FieldSelector → ResolvedHistory → String → Prop where
  | priority {h : ResolvedHistory} {p : String} : h.priority = some p → Text.trim p ≠ "" →
      Names .priority h (Text.trim p)
  | rootCause {h : ResolvedHistory} {before after : List String} {cause : String} :
      h.rootCauses = before ++ cause :: after → (∀ x ∈ before, canonicalRootCause x = "") →
      canonicalRootCause cause ≠ "" → Names .rootCause h (canonicalRootCause cause)

/-- The value that stands for the issue: its attribute, or `Undefined` if it has none. -/
def GroupsUnder (selector : FieldSelector) (h : ResolvedHistory) (f : String) : Prop :=
  selector.Names h f ∨ (f = "Undefined" ∧ ∀ g, ¬ selector.Names h g)

variable {selector : FieldSelector} {h : ResolvedHistory} {f : String}

theorem attribute?_eq_some_iff : selector.attribute? h = some f ↔ selector.Names h f := by
  cases selector with
  | priority =>
    simp only [attribute?, Option.filter_eq_some_iff, Option.map_eq_some_iff, Bool.not_eq_true',
      String.isEmpty_eq_false_iff]
    constructor
    · rintro ⟨⟨p, hp, rfl⟩, hne⟩
      exact .priority hp hne
    · rintro ⟨hp, hne⟩
      exact ⟨⟨_, hp, rfl⟩, hne⟩
  | rootCause =>
    simp only [attribute?, List.find?_map, Option.map_eq_some_iff,
      List.find?_eq_some_iff_append, Function.comp_apply, Bool.not_not, Bool.not_eq_true',
      String.isEmpty_iff, String.isEmpty_eq_false_iff]
    constructor
    · rintro ⟨cause, ⟨hne, before, after, hcauses, hbefore⟩, rfl⟩
      exact .rootCause hcauses hbefore hne
    · rintro (_ | ⟨hcauses, hbefore, hne⟩)
      exact ⟨_, ⟨hne, _, _, hcauses, hbefore⟩, rfl⟩

theorem valueOf_eq_iff : selector.valueOf h = f ↔ selector.GroupsUnder h f := by
  unfold valueOf GroupsUnder
  simp only [← attribute?_eq_some_iff]
  cases selector.attribute? h with
  | none => simp [undefinedValue, eq_comm]
  | some g => simp

end FieldSelector

/-! ## Placements -/

theorem holds_fieldReplay_iff (s : ClassificationSet) (scope : Option (List Defect × FilterRules))
    (cycles : Option CompletionCycles) (rangeStart today : Date) (selector : FieldSelector)
    (issues : List IssueHistory) (value : String) (d : Date) (key : String) :
    (replay s { rangeStart := some rangeStart, today := some today, defectScope := scope, cycles }
        (.byField selector) issues).index.Holds value d key ↔
      d < Date.last ∧ ∃ issue raw h, InScope scope issue ∧
        issues.find? (fun x => x.issue = issue) = some raw ∧ raw.resolve = .ok h ∧
        issue.display = key ∧ selector.GroupsUnder h value ∧ rangeStart ≤ d ∧ d ≤ today ∧
        ∃ v, dayValue? (classificationOf s issue.project) h d = some v ∧
          (classificationOf s issue.project).isExcluded v = false ∧
          (classificationOf s issue.project).isClosed v = false ∧
          d ∉ completedDays cycles issue := by
  rw [holds_unlimited_iff]
  constructor
  · rintro ⟨issue, raw, h, hscope, hfirst, hr, hkey, hp⟩
    obtain ⟨hs, ht, hl, hf, hday⟩ :=
      (mem_fieldPlacements_iff (IssueHistory.ascending_of_resolve hr)).1 hp
    exact ⟨hl, issue, raw, h, hscope, hfirst, hr, hkey, FieldSelector.valueOf_eq_iff.1 hf, hs, ht,
      hday⟩
  · rintro ⟨hl, issue, raw, h, hscope, hfirst, hr, hkey, hf, hs, ht, hday⟩
    refine ⟨issue, raw, h, hscope, hfirst, hr, hkey, ?_⟩
    exact (mem_fieldPlacements_iff (IssueHistory.ascending_of_resolve hr)).2
      ⟨hs, ht, hl, FieldSelector.valueOf_eq_iff.2 hf, hday⟩

/-- An issue that is done on one day and open again on the next is placed on the next. -/
example : (replay (ClassificationSet.insert {} "A" { closed := .ofList ["Done"] })
    twoDays (.byField .priority)
    [{ issue := ⟨"T-1", "A"⟩, created := "2024-01-01", priority := some " High ",
       log := [⟨"", "Done", "2024-01-01"⟩, ⟨"Done", "Open", "2024-01-02"⟩] }]).index =
      FlowIndex.insert {} "High" (january 2) "A/T-1" := by
  decide +kernel

end IssueFlow.Flow
