import IssueFlow.Proofs.Quality.Isolation

/-!
# Rules that are left out and rules that are empty

The rules of a project stand in four tables. An entry without content says the same as no entry:
nothing is excluded by an empty list of priorities or of resolutions, an empty list of root causes
wants none, and an empty table tolerates nothing. So an exclusion does not tell apart rules that
differ only in which of their empty entries they list (`exclude_congr`). The rules made from
classifications leave the empty entries out, and those that list them all exclude the same defects
(`exclude_ofClassifications`).
-/

namespace IssueFlow.Rules

open IssueFlow.Text

theorem TextSet.holds_empty (value : String) : TextSet.holds ∅ value = false := by
  simp [TextSet.holds, containsValue]

namespace FilterRules

/-- The rules of every classified project, the empty ones too. -/
def ofClassificationsInFull (s : ClassificationSet) : FilterRules where
  priorityExclusions := s.projects.map fun _ c => c.defects.excludedPriorities
  rootCauseInclusions := s.projects.map fun _ c => c.defects.includedRootCauses
  rejectionRules := s.projects.filterMap fun _ c => c.defects.rejection
  priorityTolerance := s.projects.map fun _ c => c.defects.priorityTolerance

/-- The rejection rule of a project, if it names a resolution. -/
def rejection? (r : FilterRules) (project : String) : Option RejectionRule :=
  r.rejectionRules[project]?.filter fun rule => !rule.excludedResolutions.isEmpty

/-- The rules of each project have the same content: they may differ in which of the empty ones
are listed. -/
structure SameContent (r r' : FilterRules) : Prop where
  priorityExclusions (project : String) :
    r.priorityExclusions[project]?.getD ∅ = r'.priorityExclusions[project]?.getD ∅
  rootCauseInclusions (project : String) :
    r.rootCauseInclusions[project]?.getD ∅ = r'.rootCauseInclusions[project]?.getD ∅
  rejectionRules (project : String) : r.rejection? project = r'.rejection? project
  priorityTolerance (project : String) :
    r.priorityTolerance[project]?.getD ∅ = r'.priorityTolerance[project]?.getD ∅

/-- A table that leaves out what is empty gives, where it has no entry, the same as one in full. -/
theorem getD_filterMap {β : Type} [EmptyCollection β] {isEmpty : β → Bool}
    (hempty : ∀ b, isEmpty b = true → b = ∅) (m : Std.ExtTreeMap String Classification)
    (f : Classification → β) (project : String) :
    (m.filterMap fun _ c => if isEmpty (f c) then none else some (f c))[project]?.getD ∅ =
      (m.map fun _ c => f c)[project]?.getD ∅ := by
  rw [Std.ExtTreeMap.getElem?_filterMap', Std.ExtTreeMap.getElem?_map]
  cases m[project]? with
  | none => rfl
  | some c =>
    rw [Option.bind_some, Option.map_some, Option.getD_some]
    split
    · next h => exact (hempty _ h).symm
    · rfl

/-- An empty entry for a key that has none is not seen where no entry stands for an empty one. -/
theorem getD_insert_empty {β : Type} [EmptyCollection β] {m : Std.ExtTreeMap String β}
    {key : String} (h : m[key]? = none) (project : String) :
    (m.insert key ∅)[project]?.getD ∅ = m[project]?.getD ∅ := by
  rw [Std.ExtTreeMap.getElem?_insert]
  split
  · next hkey =>
    obtain rfl := Std.LawfulEqOrd.eq_of_compare hkey
    rw [h, Option.getD_some, Option.getD_none]
  · rfl

theorem sameContent_ofClassifications (s : ClassificationSet) :
    SameContent (.ofClassifications s) (.ofClassificationsInFull s) where
  priorityExclusions := getD_filterMap (fun _ => Std.ExtTreeSet.isEmpty_iff.1) s.projects _
  rootCauseInclusions := getD_filterMap (fun _ => Std.ExtTreeSet.isEmpty_iff.1) s.projects _
  rejectionRules _ := rfl
  priorityTolerance := getD_filterMap (fun _ => Std.ExtTreeMap.isEmpty_iff.1) s.projects _

theorem tolerance?_eq (r : FilterRules) (project priority : String) :
    r.tolerance? project priority =
      ((r.priorityTolerance[project]?.getD ∅).toList.find? fun entry =>
        sameValue entry.1 priority).map fun entry => entry.2.toNat := by
  unfold tolerance?
  cases r.priorityTolerance[project]? <;> simp

end FilterRules

end IssueFlow.Rules

namespace IssueFlow.Quality

open IssueFlow.Text IssueFlow.Tracker IssueFlow.Rules

section

variable {r r' : FilterRules} {d : Defect}

theorem passesRejection_eq (r : FilterRules) (d : Defect) :
    passesRejection r d = (r.rejection? d.issue.project).all fun rule =>
      !(sameValue d.status rule.status && d.resolution.any rule.excludedResolutions.holds) := by
  unfold passesRejection FilterRules.rejection?
  cases r.rejectionRules[d.issue.project]? with
  | none => rfl
  | some rule =>
    by_cases h : rule.excludedResolutions = ∅
    · cases d.resolution <;> simp [h, TextSet.holds_empty]
    · simp [Option.filter, h]

theorem passesPriority_eq (r : FilterRules) (d : Defect) :
    passesPriority r d =
      !d.priority.any (r.priorityExclusions[d.issue.project]?.getD ∅).holds := by
  unfold passesPriority
  cases r.priorityExclusions[d.issue.project]? with
  | none => cases d.priority <;> simp [TextSet.holds_empty]
  | some excluded => rfl

theorem passesRootCause_eq (r : FilterRules) (d : Defect) :
    passesRootCause r d =
      ((r.rootCauseInclusions[d.issue.project]?.getD ∅).isEmpty ||
        d.rootCauses.any fun cause =>
          ((r.rootCauseInclusions[d.issue.project]?.getD ∅).toList.map
            canonicalRootCause).contains (canonicalRootCause cause)) := by
  unfold passesRootCause
  cases r.rootCauseInclusions[d.issue.project]? <;> simp

theorem isCandidate_congr (h : r.SameContent r') (d : Defect) :
    isCandidate r d = isCandidate r' d := by
  simp only [isCandidate, passesPriorityRootCause, passesRejection_eq, passesPriority_eq,
    passesRootCause_eq, h.rejectionRules, h.priorityExclusions, h.rootCauseInclusions]

/-- Whether an empty rule is listed makes no difference to what is excluded. -/
theorem exclude_congr (h : r.SameContent r') (ds : List Defect) :
    exclude r ds = exclude r' ds := by
  have hcandidates : ds.filter (isCandidate r) = ds.filter (isCandidate r') :=
    List.filter_congr fun d _ => isCandidate_congr h d
  unfold exclude
  rw [hcandidates]
  refine List.filter_congr fun d _ => ?_
  rw [isTolerated_congr (fun priority => ?_) fun _ _ => rfl]
  rw [FilterRules.tolerance?_eq, FilterRules.tolerance?_eq, h.priorityTolerance]

end

/-- A project that is not classified has no rule. -/
theorem isCandidate_of_unclassified {s : ClassificationSet} {d : Defect}
    (h : s.get? d.issue.project = none) : isCandidate (.ofClassifications s) d = true := by
  unfold ClassificationSet.get? at h
  simp [isCandidate, passesRejection, passesPriorityRootCause, passesPriority, passesRootCause,
    FilterRules.ofClassifications, h]

theorem isTolerated_of_unclassified {s : ClassificationSet} {d : Defect} (counts : StoryCounts)
    (h : s.get? d.issue.project = none) :
    isTolerated (.ofClassifications s) counts d = false := by
  have htolerance (priority : String) :
      (FilterRules.ofClassifications s).tolerance? d.issue.project priority = none := by
    unfold ClassificationSet.get? at h
    simp [FilterRules.tolerance?, FilterRules.ofClassifications, h]
  unfold isTolerated
  cases d.priority <;> simp [htolerance]

/-- Rules made from classifications exclude the same defects whether or not they list the empty
ones, in full or in part; and every defect of a project that is not classified stays. -/
theorem exclude_ofClassifications (s : ClassificationSet) (ds : List Defect) :
    exclude (.ofClassifications s) ds = exclude (.ofClassificationsInFull s) ds ∧
      ((exclude (.ofClassifications s) ds).filter fun d => (s.get? d.issue.project).isNone) =
        ds.filter (fun d => (s.get? d.issue.project).isNone) ∧
      ∀ r r' : FilterRules, r.SameContent r' → exclude r ds = exclude r' ds := by
  refine ⟨exclude_congr (FilterRules.sameContent_ofClassifications s) ds, ?_,
    fun r r' h => exclude_congr h ds⟩
  unfold exclude
  rw [List.filter_filter, List.filter_filter]
  refine List.filter_congr fun d _ => ?_
  cases hproject : s.get? d.issue.project with
  | none => simp [isCandidate_of_unclassified hproject, isTolerated_of_unclassified _ hproject]
  | some c => rfl

/-- Rules of every kind for project C, all of them empty, beside those of two other projects. -/
def threeProjectRules : FilterRules where
  priorityExclusions := twoProjectRules.priorityExclusions.insert "C" ∅
  rootCauseInclusions := twoProjectRules.rootCauseInclusions.insert "C" ∅
  rejectionRules := twoProjectRules.rejectionRules.insert "C" { status := "Rejected" }
  priorityTolerance := twoProjectRules.priorityTolerance.insert "C" ∅

/-- A defect of project C with a priority, a resolution and no root cause, on a shared story. -/
def rejectedDuplicate : Defect where
  issue := ⟨"D-5", "C"⟩
  priority := some "Minor"
  status := "Rejected"
  resolution := some "Duplicate"
  linkedStories := ["S-1"]

theorem exclude_ofClassifications_threeProjects :
    threeProjectRules ≠ twoProjectRules ∧ threeProjectRules.SameContent twoProjectRules ∧
      exclude threeProjectRules (rejectedDuplicate :: sharedStory) =
        exclude twoProjectRules (rejectedDuplicate :: sharedStory) ∧
      exclude twoProjectRules (rejectedDuplicate :: sharedStory) =
        [rejectedDuplicate, onSharedStory "D-2" "B" "Critical", onSharedStory "D-3" "A" "Minor",
          onSharedStory "D-4" "B" "critical"] := by
  have hcontent : threeProjectRules.SameContent twoProjectRules := by
    refine ⟨fun project => ?_, fun project => ?_, fun project => ?_, fun project => ?_⟩
    · exact FilterRules.getD_insert_empty (by decide +kernel) project
    · exact FilterRules.getD_insert_empty (by decide +kernel) project
    · by_cases hproject : "C" = project
      · subst hproject
        decide +kernel
      · rw [FilterRules.rejection?, threeProjectRules, Std.ExtTreeMap.getElem?_insert,
          if_neg (by simpa using hproject), FilterRules.rejection?]
    · exact FilterRules.getD_insert_empty (by decide +kernel) project
  obtain ⟨-, -, hsame⟩ :=
    exclude_ofClassifications {} (rejectedDuplicate :: sharedStory)
  exact ⟨by decide +kernel, hcontent, hsame _ _ hcontent, by decide +kernel⟩

end IssueFlow.Quality
