import IssueFlow.Proofs.Delivery.Deduplication
import IssueFlow.Proofs.Order.Maps
import IssueFlow.Proofs.Order.Selection

/-!
# What becomes of every duplicate

The unit of a project decides alone what is found for it: the entries and the diagnostics of the
project are those that its `projectOutcome` gives, which reads the duplicates, the histories and the
classification of this project only.

In a batch without limit every duplicate has exactly one of four fates (`Accounts`): an entry with
the cycles of its own history, or one diagnostic that covers it and no entry. Nothing else is
entered or reported (`resolveCycles_accountsFor`).
-/

namespace IssueFlow.Batch

/-- The project of an issue, or the project itself. -/
def Scope.projectKey : Scope → String
  | .issue r => r.project
  | .project key => key

/-- The diagnostic applies to the project or one of its issues. -/
def Diagnostic.isAbout (project : String) (d : Diagnostic) : Bool := d.scope.projectKey = project

/-- The diagnostic names the issue or applies to its project as a whole. -/
def Diagnostic.covers (x : Tracker.IssueRef) (d : Diagnostic) : Bool :=
  d.scope = .issue x ∨ d.scope = .project x.project

theorem Diagnostic.isAbout_of_covers {x : Tracker.IssueRef} {d : Diagnostic}
    (h : d.covers x = true) : d.isAbout x.project = true := by
  rcases of_decide_eq_true h with h | h
  · exact decide_eq_true (by rw [h]; rfl)
  · exact decide_eq_true (by rw [h]; rfl)

end IssueFlow.Batch

namespace IssueFlow.Delivery

open IssueFlow.Calendar IssueFlow.Tracker IssueFlow.Rules IssueFlow.Batch IssueFlow.Order

/-! ## One project -/

/-- The issue is a duplicate of its project. -/
def Listed (duplicates : DuplicateSet) (x : IssueRef) : Prop :=
  x.number ∈ duplicates.getD x.project ∅

/-- What the unit of a project finds, nothing if the project has none. -/
def projectOutcome (lookup : HistoryLookup) (s : ClassificationSet) (duplicates : DuplicateSet)
    (project : String) : ProjectOutcome :=
  match duplicates[project]? with
  | none => {}
  | some numbers => resolveProject lookup s (project, numbers)

/-- The report on a project that has duplicates but no classification. -/
def unclassifiedProject (project : String) : Diagnostic :=
  ⟨.project project, .missingClassification,
    "no completion statuses configured; duplicates not resolved"⟩

/-- Nothing but the issues, the histories and the classification of other projects may differ. -/
structure SameProject (project : String) (lookup lookup' : HistoryLookup)
    (s s' : ClassificationSet) (duplicates duplicates' : DuplicateSet) : Prop where
  issues : duplicates[project]? = duplicates'[project]?
  classification : s.get? project = s'.get? project
  histories : ∀ x, x.project = project → Listed duplicates x → lookup x = lookup' x

section

variable {lookup lookup' : HistoryLookup} {s s' : ClassificationSet} {c : Classification}
  {duplicates duplicates' : DuplicateSet} {project : String} {numbers : TextSet} {x : IssueRef}

theorem listed_iff : Listed duplicates x ↔
    ∃ numbers, duplicates[x.project]? = some numbers ∧ x.number ∈ numbers := by
  unfold Listed
  rw [Std.ExtTreeMap.getD_eq_getD_getElem?]
  cases duplicates[x.project]? <;> simp

theorem projectOutcome_congr (h : SameProject project lookup lookup' s s' duplicates duplicates') :
    projectOutcome lookup s duplicates project = projectOutcome lookup' s' duplicates' project := by
  unfold projectOutcome
  rw [← h.issues]
  cases hnumbers : duplicates[project]? with
  | none => rfl
  | some numbers =>
    show resolveProject lookup s (project, numbers) = resolveProject lookup' s' (project, numbers)
    unfold resolveProject
    rw [h.classification]
    cases s'.get? project with
    | none => rfl
    | some c =>
      refine congrArg ProjectOutcome.gather (List.map_congr_left fun x hx => ?_)
      obtain ⟨number, hnumber, rfl⟩ := List.mem_map.1 hx
      have hlisted : Listed duplicates ⟨number, project⟩ :=
        listed_iff.2 ⟨numbers, hnumbers, Std.ExtTreeSet.mem_toList.1 hnumber⟩
      have hlookup := h.histories ⟨number, project⟩ rfl hlisted
      simp only [resolveDuplicate, hlookup]

theorem resolveProject_of_unclassified (hc : s.get? project = none) :
    resolveProject lookup s (project, numbers) =
      { diagnostics := [unclassifiedProject project] } := by
  rw [resolveProject, hc]
  rfl

theorem scope_of_resolveDuplicate {d : Diagnostic} (h : resolveDuplicate lookup c x = .error d) :
    d.scope = .issue x := by
  unfold resolveDuplicate at h
  split at h
  · cases h
    rfl
  · split at h <;> cases h
    rfl

theorem mem_diagnostics_resolveProject_iff {unit : String × TextSet} {d : Diagnostic} :
    d ∈ (resolveProject lookup s unit).diagnostics ↔
      (s.get? unit.1 = none ∧ d = unclassifiedProject unit.1) ∨
      ∃ c, s.get? unit.1 = some c ∧ ∃ x : IssueRef, x.project = unit.1 ∧ x.number ∈ unit.2 ∧
        resolveDuplicate lookup c x = .error d := by
  unfold resolveProject
  cases s.get? unit.1 with
  | none => simp [unclassifiedProject]
  | some c =>
    simp only [ProjectOutcome.gather, List.filterMap_map, List.mem_filterMap, Function.comp_apply,
      Std.ExtTreeSet.mem_toList, reduceCtorEq, false_and, false_or, Option.some.injEq,
      exists_eq_left']
    constructor
    · rintro ⟨number, hnumber, hd⟩
      refine ⟨⟨number, unit.1⟩, rfl, hnumber, ?_⟩
      split at hd
      · cases hd
      · next d' hd' => rw [hd', Option.some.inj hd]
    · rintro ⟨x, hproject, hnumber, hd⟩
      refine ⟨x.number, hnumber, ?_⟩
      have hx : (⟨x.number, unit.1⟩ : IssueRef) = x := by rw [← hproject]
      rw [hx, hd]

theorem projectKey_of_mem_resolveProject {unit : String × TextSet} {d : Diagnostic}
    (h : d ∈ (resolveProject lookup s unit).diagnostics) : d.scope.projectKey = unit.1 := by
  rcases mem_diagnostics_resolveProject_iff.1 h with ⟨-, rfl⟩ | ⟨c, -, x, hx, -, hd⟩
  · rfl
  · rw [scope_of_resolveDuplicate hd]
    exact hx

/-- What the units give for a project, each giving something for its own project only. -/
theorem filter_flatMap_units {β : Type} (g : ProjectOutcome → List β) {p : β → Bool}
    (hempty : g {} = [])
    (hunit : ∀ unit, ∀ y ∈ g (resolveProject lookup s unit), p y = true ↔ unit.1 = project) :
    (duplicates.toList.flatMap fun unit => g (resolveProject lookup s unit)).filter p =
      g (projectOutcome lookup s duplicates project) := by
  unfold projectOutcome
  cases hnumbers : duplicates[project]? with
  | none =>
    show _ = g {}
    rw [hempty, List.filter_eq_nil_iff]
    intro y hy hp
    obtain ⟨unit, hmem, hy⟩ := List.mem_flatMap.1 hy
    have hentry := Std.ExtTreeMap.mem_toList_iff_getElem?_eq_some.1 hmem
    rw [(hunit unit y hy).1 hp, hnumbers] at hentry
    cases hentry
  | some numbers =>
    have hnodup : duplicates.toList.Nodup := by
      refine Std.ExtTreeMap.distinct_keys_toList.imp fun {a b} hne heq => ?_
      exact hne (heq ▸ Std.ReflCmp.compare_self)
    have hmem := Std.ExtTreeMap.mem_toList_iff_getElem?_eq_some.2 hnumbers
    -- A unit with the key of the project is the one unit of the project.
    rw [filter_flatMap_of_mem hnodup hmem, List.filter_eq_self]
    · intro y hy
      exact (hunit _ y hy).2 rfl
    · intro unit hother hne y hy
      rw [Bool.eq_false_iff]
      intro hp
      have hkey := (hunit unit y hy).1 hp
      have hentry := Std.ExtTreeMap.mem_toList_iff_getElem?_eq_some.1 hother
      rw [hkey, hnumbers] at hentry
      exact hne (Prod.ext hkey (Option.some.inj hentry).symm)

/-- The entries that the units give, in the order of the projects. -/
def entriesOf (lookup : HistoryLookup) (s : ClassificationSet) (duplicates : DuplicateSet) :
    List (IssueRef × List Instant) :=
  duplicates.toList.flatMap fun unit => (resolveProject lookup s unit).resolved

theorem cycles_resolveCycles :
    (resolveCycles lookup s {} duplicates).cycles = .ofList (entriesOf lookup s duplicates) := by
  simp only [resolveCycles, zipWith_fanOut_unlimited, List.flatMap_map, entriesOf, projectUnit]

theorem diagnostics_resolveCycles : (resolveCycles lookup s {} duplicates).diagnostics =
    duplicates.toList.flatMap fun unit => (resolveProject lookup s unit).diagnostics := by
  simp only [resolveCycles, zipWith_fanOut_unlimited, List.flatMap_map, projectUnit]

theorem filter_entriesOf : (entriesOf lookup s duplicates).filter (fun e => e.1.project = project) =
    (projectOutcome lookup s duplicates project).resolved := by
  refine filter_flatMap_units ProjectOutcome.resolved rfl fun unit e he => ?_
  rw [decide_eq_true_eq, (mem_resolved_iff.1 he).1]

theorem filter_isAbout : (resolveCycles lookup s {} duplicates).diagnostics.filter
    (Diagnostic.isAbout project) = (projectOutcome lookup s duplicates project).diagnostics := by
  rw [diagnostics_resolveCycles]
  refine filter_flatMap_units ProjectOutcome.diagnostics rfl fun unit d hd => ?_
  rw [Diagnostic.isAbout, decide_eq_true_eq, projectKey_of_mem_resolveProject hd]

/-! ## One duplicate -/

/-- What is entered for a duplicate of a classified project. -/
theorem filter_resolved_eq (hc : s.get? x.project = some c) (hx : x.number ∈ numbers) :
    (resolveProject lookup s (x.project, numbers)).resolved.filter (fun e => e.1 = x) =
      ((resolveDuplicate lookup c x).toOption.map fun minimums => (x, minimums)).toList := by
  unfold resolveProject
  rw [hc]
  simp only [ProjectOutcome.gather, List.filterMap_map]
  rw [List.filterMap_eq_flatMap_toList,
    filter_flatMap_of_mem (nodup_toList numbers) (Std.ExtTreeSet.mem_toList.2 hx)]
  · show List.filter _ ((resolveDuplicate lookup c x).toOption.map fun ms => (x, ms)).toList = _
    cases (resolveDuplicate lookup c x).toOption <;> simp
  · intro number _ hne e he
    obtain ⟨minimums, -, rfl⟩ := Option.map_eq_some_iff.1 (Option.mem_toList.1 he)
    exact decide_eq_false fun h => hne (congrArg IssueRef.number h)

/-- What is reported for a duplicate of a classified project. -/
theorem filter_covers_eq (hc : s.get? x.project = some c) (hx : x.number ∈ numbers) :
    (resolveProject lookup s (x.project, numbers)).diagnostics.filter (Diagnostic.covers x) =
      match resolveDuplicate lookup c x with
      | .ok _ => []
      | .error d => [d] := by
  unfold resolveProject
  rw [hc]
  simp only [ProjectOutcome.gather, List.filterMap_map]
  rw [List.filterMap_eq_flatMap_toList,
    filter_flatMap_of_mem (nodup_toList numbers) (Std.ExtTreeSet.mem_toList.2 hx)]
  · show List.filter _ (Option.toList (match resolveDuplicate lookup c x with
      | .ok _ => none
      | .error d => some d)) = _
    cases hd : resolveDuplicate lookup c x with
    | ok minimums => rfl
    | error d => simp [Diagnostic.covers, scope_of_resolveDuplicate hd]
  · intro number _ hne d he
    simp only [Function.comp_apply, Option.mem_toList] at he
    split at he
    · cases he
    · next d' hd =>
      obtain rfl := Option.some.inj he
      have hscope := scope_of_resolveDuplicate hd
      rw [Diagnostic.covers, hscope]
      simp only [Scope.issue.injEq, reduceCtorEq, or_false]
      exact decide_eq_false fun h => hne (congrArg IssueRef.number h)

/-- What becomes of an issue, given its entry and the diagnostics that cover it. -/
inductive Accounts (lookup : HistoryLookup) (s : ClassificationSet) (x : IssueRef) :
    Option (List Instant) → List Diagnostic → Prop
  | unclassified : s.get? x.project = none →
      Accounts lookup s x none [unclassifiedProject x.project]
  | missing (c : Classification) : s.get? x.project = some c → lookup x = none →
      Accounts lookup s x none
        [⟨.issue x, .missingHistory, "listed as duplicate but no history was supplied"⟩]
  | malformed (c : Classification) (raw : IssueHistory) (e : ResolveError) :
      s.get? x.project = some c → lookup x = some raw → raw.resolve = .error e →
      Accounts lookup s x none [⟨.issue x, .malformedTimestamp, e.message⟩]
  | resolved (c : Classification) (raw : IssueHistory) (h : ResolvedHistory) :
      s.get? x.project = some c → lookup x = some raw → raw.resolve = .ok h →
      Accounts lookup s x (some (cycleMinimums c h)) []

theorem get?_resolveCycles :
    (resolveCycles lookup s {} duplicates).cycles.get? x.project x.number =
      ((projectOutcome lookup s duplicates x.project).resolved.filter fun e => e.1 = x).getLast?.map
        Prod.snd := by
  rw [cycles_resolveCycles, CompletionCycles.get?_ofList, ← filter_entriesOf, List.filter_filter]
  congr 2
  refine List.filter_congr fun e _ => ?_
  by_cases h : e.1 = x <;> simp [h]

theorem filter_covers_resolveCycles :
    (resolveCycles lookup s {} duplicates).diagnostics.filter (Diagnostic.covers x) =
      (projectOutcome lookup s duplicates x.project).diagnostics.filter (Diagnostic.covers x) := by
  rw [← filter_isAbout, List.filter_filter]
  refine List.filter_congr fun d _ => ?_
  cases h : d.covers x with
  | false => rfl
  | true => rw [Diagnostic.isAbout_of_covers h, Bool.and_self]

theorem accounts_of_listed (hx : Listed duplicates x) : Accounts lookup s x
    ((resolveCycles lookup s {} duplicates).cycles.get? x.project x.number)
    ((resolveCycles lookup s {} duplicates).diagnostics.filter (Diagnostic.covers x)) := by
  obtain ⟨numbers, hnumbers, hx⟩ := listed_iff.1 hx
  rw [get?_resolveCycles, filter_covers_resolveCycles]
  have houtcome : projectOutcome lookup s duplicates x.project =
      resolveProject lookup s (x.project, numbers) := by
    rw [projectOutcome, hnumbers]
  rw [houtcome]
  cases hc : s.get? x.project with
  | none =>
    have hcovers : Diagnostic.covers x (unclassifiedProject x.project) = true :=
      decide_eq_true (.inr rfl)
    have hall : [unclassifiedProject x.project].filter (Diagnostic.covers x) =
        [unclassifiedProject x.project] := List.filter_cons_of_pos hcovers
    rw [resolveProject_of_unclassified hc]
    simp only [List.filter_nil, hall]
    exact .unclassified hc
  | some c =>
    rw [filter_resolved_eq hc hx, filter_covers_eq hc hx]
    unfold resolveDuplicate
    cases hlookup : lookup x with
    | none => exact .missing c hc hlookup
    | some raw =>
      cases hresolve : raw.resolve with
      | error e =>
        simp only [hresolve]
        exact .malformed c raw e hc hlookup hresolve
      | ok h =>
        simp only [hresolve]
        exact .resolved c raw h hc hlookup hresolve

/-! ## The whole batch -/

/-- The output accounts for the duplicates, each one once, and for nothing else. -/
structure AccountsFor (lookup : HistoryLookup) (s : ClassificationSet) (duplicates : DuplicateSet)
    (out : CycleOutput) : Prop where
  listed : ∀ x, Listed duplicates x → Accounts lookup s x (out.cycles.get? x.project x.number)
    (out.diagnostics.filter (Diagnostic.covers x))
  unlisted : ∀ x, ¬ Listed duplicates x → out.cycles.get? x.project x.number = none
  unclassified : ∀ project ∈ duplicates, s.get? project = none →
    out.diagnostics.filter (Diagnostic.isAbout project) = [unclassifiedProject project]
  reported : ∀ d ∈ out.diagnostics,
    (∃ project ∈ duplicates, s.get? project = none ∧ d.scope = .project project) ∨
      ∃ x, Listed duplicates x ∧ s.get? x.project ≠ none ∧ d.scope = .issue x

theorem reported_of_mem {d : Diagnostic}
    (hd : d ∈ (resolveCycles lookup s {} duplicates).diagnostics) :
    (∃ project ∈ duplicates, s.get? project = none ∧ d.scope = .project project) ∨
      ∃ x, Listed duplicates x ∧ s.get? x.project ≠ none ∧ d.scope = .issue x := by
  rw [diagnostics_resolveCycles] at hd
  obtain ⟨unit, hunit, hd⟩ := List.mem_flatMap.1 hd
  have hentry := Std.ExtTreeMap.mem_toList_iff_getElem?_eq_some.1 hunit
  rcases mem_diagnostics_resolveProject_iff.1 hd with ⟨hc, rfl⟩ | ⟨c, hc, x, hproject, hx, hd⟩
  · exact .inl ⟨unit.1, Std.ExtTreeMap.mem_iff_isSome_getElem?.2 (by rw [hentry]; rfl), hc, rfl⟩
  · rw [← hproject] at hentry hc
    refine .inr ⟨x, listed_iff.2 ⟨unit.2, hentry, hx⟩, ?_, scope_of_resolveDuplicate hd⟩
    rw [hc]
    exact Option.some_ne_none c

theorem filter_isAbout_of_unclassified (hp : project ∈ duplicates) (hc : s.get? project = none) :
    (resolveCycles lookup s {} duplicates).diagnostics.filter (Diagnostic.isAbout project) =
      [unclassifiedProject project] := by
  obtain ⟨numbers, hnumbers⟩ := Option.isSome_iff_exists.1
    (Std.ExtTreeMap.mem_iff_isSome_getElem?.1 hp)
  rw [filter_isAbout, projectOutcome, hnumbers]
  show (resolveProject lookup s (project, numbers)).diagnostics = _
  rw [resolveProject_of_unclassified hc]

theorem accountsFor_resolveCycles :
    AccountsFor lookup s duplicates (resolveCycles lookup s {} duplicates) where
  listed _ := accounts_of_listed
  unlisted x hx := by
    rw [Option.eq_none_iff_forall_ne_some]
    intro minimums hentry
    exact hx (exists_of_get?_resolveCycles hentry).1
  unclassified _ := filter_isAbout_of_unclassified
  reported _ := reported_of_mem

/-- The entries of a project come from what is entered for its own issues. -/
theorem getElem?_byProject_ofList (entries : List (IssueRef × List Instant)) (project : String) :
    (CompletionCycles.ofList entries).byProject[project]? =
      (CompletionCycles.ofList (entries.filter fun e => e.1.project = project)).byProject[project]?
    := by
  induction entries using List.reverseRecOn with
  | nil => rfl
  | append_singleton entries e ih =>
    rw [CompletionCycles.ofList_concat, List.filter_append]
    -- An entry of another project goes into another inner map.
    by_cases h : e.1.project = project
    · have hfilter : [e].filter (fun e => e.1.project = project) = [e] := by simp [h]
      rw [hfilter, CompletionCycles.ofList_concat]
      simp only [CompletionCycles.insert, Std.ExtTreeMap.getElem?_alter, h, ih]
    · have hfilter : [e].filter (fun e => e.1.project = project) = [] := by simp [h]
      rw [hfilter, List.append_nil, ← ih]
      simp [CompletionCycles.insert, Std.ExtTreeMap.getElem?_alter, h]

theorem byProject_resolveCycles (project : String) :
    (resolveCycles lookup s {} duplicates).cycles.byProject[project]? =
      (CompletionCycles.ofList
        (projectOutcome lookup s duplicates project).resolved).byProject[project]? := by
  rw [cycles_resolveCycles, getElem?_byProject_ofList, filter_entriesOf]

end

theorem resolveCycles_accountsFor (lookup : HistoryLookup) (s : ClassificationSet)
    (duplicates : DuplicateSet) :
    AccountsFor lookup s duplicates (resolveCycles lookup s {} duplicates) ∧
      ∀ lookup' s' duplicates' project,
        SameProject project lookup lookup' s s' duplicates duplicates' →
        (resolveCycles lookup s {} duplicates).cycles.byProject[project]? =
            (resolveCycles lookup' s' {} duplicates').cycles.byProject[project]? ∧
          (resolveCycles lookup s {} duplicates).diagnostics.filter (Diagnostic.isAbout project) =
            (resolveCycles lookup' s' {} duplicates').diagnostics.filter
              (Diagnostic.isAbout project) := by
  refine ⟨accountsFor_resolveCycles, fun lookup' s' duplicates' project hsame => ⟨?_, ?_⟩⟩
  · rw [byProject_resolveCycles, byProject_resolveCycles, projectOutcome_congr hsame]
  · rw [filter_isAbout, filter_isAbout, projectOutcome_congr hsame]

/-- Two projects have duplicates with one number, and only the first project is classified. -/
def sharedNumbers : DuplicateSet :=
  .ofList [("A", Std.ExtTreeSet.ofList ["S-1", "S-2", "S-3"]), ("B", Std.ExtTreeSet.ofList ["S-1"])]

/-- The first issue is done on the ninth and the third one cannot be read. -/
def someHistories : HistoryLookup :=
  lookupFirst [doneAt "2024-01-09", { issue := ⟨"S-3", "A"⟩, created := "yesterday" }]

/-- The histories of one project only. -/
def HistoryLookup.of (lookup : HistoryLookup) (project : String) : HistoryLookup := fun x =>
  if x.project = project then lookup x else none

theorem resolveCycles_sharedNumbers :
    AccountsFor someHistories completedByDone sharedNumbers
        (resolveCycles someHistories completedByDone {} sharedNumbers) ∧
      Listed sharedNumbers ⟨"S-1", "A"⟩ ∧ Listed sharedNumbers ⟨"S-1", "B"⟩ ∧
      (resolveCycles someHistories completedByDone {} sharedNumbers).cycles.get? "A" "S-1" =
        some [midnight 9] ∧
      (resolveCycles someHistories completedByDone {} sharedNumbers).diagnostics =
        [⟨.issue ⟨"S-2", "A"⟩, .missingHistory, "listed as duplicate but no history was supplied"⟩,
          ⟨.issue ⟨"S-3", "A"⟩, .malformedTimestamp,
            "A/S-3: created: unrecognised timestamp 'yesterday'"⟩,
          unclassifiedProject "B"] ∧
      (resolveCycles (someHistories.of "A") (completedByDone.insert "B" {}) {}
          (sharedNumbers.erase "B")).cycles.byProject["A"]? =
        (resolveCycles someHistories completedByDone {} sharedNumbers).cycles.byProject["A"]? := by
  have hsame : SameProject "A" someHistories (someHistories.of "A") completedByDone
      (completedByDone.insert "B" {}) sharedNumbers (sharedNumbers.erase "B") := by
    refine ⟨by decide +kernel, by decide +kernel, fun x hx _ => ?_⟩
    exact (if_pos hx).symm
  obtain ⟨haccounts, hproject⟩ :=
    resolveCycles_accountsFor someHistories completedByDone sharedNumbers
  have hA : Listed sharedNumbers ⟨"S-1", "A"⟩ := by
    unfold Listed
    decide +kernel
  have hB : Listed sharedNumbers ⟨"S-1", "B"⟩ := by
    unfold Listed
    decide +kernel
  exact ⟨haccounts, hA, hB, by decide +kernel, by decide +kernel, (hproject _ _ _ _ hsame).1.symm⟩

end IssueFlow.Delivery
