import IssueFlow.Proofs.Order.Maps
import IssueFlow.Proofs.Quality.Exclusion

/-!
# Exclusion project by project

One table of counters serves the defects of all projects, and the rules of all projects come in one
value. Still each project is on its own: a defect is looked up in the rules under its project, and a
counter is kept for a project and a story, so a story that two projects link to is counted for each
of them apart. What is left of the defects of a project is what an exclusion leaves of them alone,
with the entries of that project only (`ofProject_exclude`).
-/

namespace IssueFlow.Rules

open IssueFlow.Order

namespace FilterRules

/-- The entries of one project. -/
def only (project : String) (r : FilterRules) : FilterRules where
  priorityExclusions := r.priorityExclusions.filter fun p _ => p = project
  rootCauseInclusions := r.rootCauseInclusions.filter fun p _ => p = project
  rejectionRules := r.rejectionRules.filter fun p _ => p = project
  priorityTolerance := r.priorityTolerance.filter fun p _ => p = project

theorem tolerance?_only {project : String} (r : FilterRules) (priority : String) :
    (r.only project).tolerance? project priority = r.tolerance? project priority := by
  simp only [tolerance?, only, getElem?_filter_key]

end FilterRules

end IssueFlow.Rules

namespace IssueFlow.Quality

open IssueFlow.Tracker IssueFlow.Rules IssueFlow.Order

/-- The defects of one project, in order. -/
def ofProject (project : String) (ds : List Defect) : List Defect :=
  ds.filter fun d => d.issue.project = project

section

variable {r r' : FilterRules} {ds : List Defect} {d : Defect} {project : String}

/-- The rules that look at a defect alone look at the entries of its project. -/
theorem isCandidate_only (h : d.issue.project = project) :
    isCandidate (r.only project) d = isCandidate r d := by
  subst h
  simp only [isCandidate, passesRejection, passesPriorityRootCause, passesPriority,
    passesRootCause, FilterRules.only, getElem?_filter_key]

/-- Whether a defect is tolerated is read off the tolerances and the counters of its project. -/
theorem isTolerated_congr {counts counts' : StoryCounts}
    (htolerance : ∀ priority, r.tolerance? d.issue.project priority =
      r'.tolerance? d.issue.project priority)
    (hcount : ∀ story key, counts.count d.issue.project story key =
      counts'.count d.issue.project story key) :
    isTolerated r counts d = isTolerated r' counts' d := by
  simp only [isTolerated, htolerance, hcount]

/-- The counters of a project hold what they hold where there are no other projects. -/
theorem count_storyCounts_ofProject (ds : List Defect) (project story key : String) :
    (storyCounts (ofProject project ds)).count project story key =
      (storyCounts ds).count project story key := by
  rw [count_storyCounts, count_storyCounts, ofProject, List.countP_filter]
  refine List.countP_congr fun d _ => ?_
  rw [Bool.and_eq_true, decide_eq_true_eq, and_iff_left_iff_imp]
  exact fun hcounted => (isCountedFor_iff.1 hcounted).1

theorem filter_isCandidate_ofProject :
    (ofProject project ds).filter (isCandidate (r.only project)) =
      ofProject project (ds.filter (isCandidate r)) := by
  have hagree : ∀ d ∈ ofProject project ds, isCandidate (r.only project) d = isCandidate r d :=
    fun d hd => isCandidate_only (of_decide_eq_true (List.mem_filter.1 hd).2)
  rw [List.filter_congr hagree, ofProject, ofProject, List.filter_comm]

theorem exclude_only (r : FilterRules) (ds : List Defect) (project : String) :
    exclude (r.only project) (ofProject project ds) = ofProject project (exclude r ds) := by
  unfold exclude
  rw [filter_isCandidate_ofProject]
  generalize ds.filter (isCandidate r) = candidates
  have hagree : ∀ d ∈ ofProject project candidates,
      (!isTolerated (r.only project) (storyCounts (ofProject project candidates)) d) =
        !isTolerated r (storyCounts candidates) d := by
    intro d hd
    obtain rfl : d.issue.project = project := of_decide_eq_true (List.mem_filter.1 hd).2
    rw [isTolerated_congr r.tolerance?_only (count_storyCounts_ofProject candidates _)]
  rw [List.filter_congr hagree, ofProject, ofProject, List.filter_comm]

end

theorem ofProject_exclude (r : FilterRules) (ds : List Defect) (project : String) :
    ofProject project (exclude r ds) = exclude (r.only project) (ofProject project ds) ∧
      ∀ r' ds', r'.only project = r.only project → ofProject project ds' = ofProject project ds →
        ofProject project (exclude r' ds') = ofProject project (exclude r ds) := by
  refine ⟨(exclude_only r ds project).symm, fun r' ds' hr hds => ?_⟩
  rw [← exclude_only, ← exclude_only, hr, hds]

/-- Project A tolerates one critical defect a story; project B tolerates none, and drops minor
ones. -/
def twoProjectRules : FilterRules where
  priorityExclusions := .ofList [("B", Std.ExtTreeSet.ofList ["Minor"])]
  priorityTolerance :=
    .ofList [("A", Std.ExtTreeMap.ofList [("Critical", (1 : UInt32))]),
      ("B", Std.ExtTreeMap.ofList [("Critical", (0 : UInt32))])]

/-- A defect that is linked to the story S-1. -/
def onSharedStory (number project priority : String) : Defect where
  issue := ⟨number, project⟩
  priority := some priority
  linkedStories := ["S-1"]

def sharedStory : List Defect :=
  [onSharedStory "D-1" "A" "Critical", onSharedStory "D-2" "B" "Critical",
    onSharedStory "D-3" "A" "Minor", onSharedStory "D-4" "B" "critical"]

/-- Three critical defects of one story, and only the one of project A goes: neither without the
defects and rules of project B nor with others does it stay. -/
theorem ofProject_exclude_sharedStory :
    (twoProjectRules.only "A").only "A" = twoProjectRules.only "A" ∧
      ofProject "A" (ofProject "A" sharedStory) = ofProject "A" sharedStory ∧
      exclude twoProjectRules sharedStory = [onSharedStory "D-2" "B" "Critical",
        onSharedStory "D-3" "A" "Minor", onSharedStory "D-4" "B" "critical"] ∧
      exclude (twoProjectRules.only "A") (ofProject "A" sharedStory) =
        [onSharedStory "D-3" "A" "Minor"] ∧
      ofProject "A" (exclude (twoProjectRules.only "A") (ofProject "A" sharedStory)) =
        ofProject "A" (exclude twoProjectRules sharedStory) := by
  obtain ⟨hself, hothers⟩ := ofProject_exclude twoProjectRules sharedStory "A"
  have hrules : (twoProjectRules.only "A").only "A" = twoProjectRules.only "A" := by
    decide +kernel
  have hdefects : ofProject "A" (ofProject "A" sharedStory) = ofProject "A" sharedStory := by
    decide +kernel
  have hkept : exclude twoProjectRules sharedStory = [onSharedStory "D-2" "B" "Critical",
      onSharedStory "D-3" "A" "Minor", onSharedStory "D-4" "B" "critical"] := by
    decide +kernel
  refine ⟨hrules, hdefects, hkept, ?_, hothers _ _ hrules hdefects⟩
  rw [← hself, hkept]
  decide +kernel

end IssueFlow.Quality
