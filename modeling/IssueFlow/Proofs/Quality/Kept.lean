import IssueFlow.Proofs.Order.Maps
import IssueFlow.Proofs.Quality.Exclusion

/-!
# Which defects are kept

A defect is left out of the figures for one of four reasons. Three look at the defect and at the
entries of its project (`Barred`): it is rejected, its priority is excluded, or it lacks a root
cause that the project wants. By the fourth (`Tolerated`), each story that it is linked to has no
more defects of its priority than the project tolerates, where only defects that are not barred
count. An exclusion keeps the other defects, in order, each as often as it stands in the list
(`exclude_eq_filter`).
-/

namespace IssueFlow.Rules

open IssueFlow.Text

theorem TextSet.holds_iff {s : TextSet} {value : String} :
    s.holds value = true ↔ ∃ member ∈ s, sameValue member value = true := by
  unfold TextSet.holds containsValue
  rw [List.any_eq_true]
  simp only [Std.ExtTreeSet.mem_toList]

namespace FilterRules

/-- The project tolerates so many defects of the priority: the first of its entries, in the order of
their keys, that is for this priority says so. -/
def Tolerates (r : FilterRules) (project priority : String) (n : Nat) : Prop :=
  ∃ (table : Std.ExtTreeMap String UInt32) (key : String) (t : UInt32),
    r.priorityTolerance[project]? = some table ∧ table[key]? = some t ∧ t.toNat = n ∧
      sameValue key priority = true ∧
      ∀ earlier ∈ table, earlier < key → sameValue earlier priority = false

theorem tolerance?_eq_some_iff {r : FilterRules} {project priority : String} {n : Nat} :
    r.tolerance? project priority = some n ↔ r.Tolerates project priority n := by
  unfold tolerance? Tolerates
  rw [Option.bind_eq_some_iff]
  refine exists_congr fun table => ?_
  rw [Option.map_eq_some_iff]
  constructor
  · rintro ⟨htable, ⟨key, t⟩, hfind, rfl⟩
    obtain ⟨ht, hsame, hfirst⟩ := (Order.find?_toList_eq_some_iff
      (p := fun key => sameValue key priority)).1 hfind
    exact ⟨key, t, htable, ht, rfl, hsame, fun earlier he hlt =>
      hfirst earlier he (compareOfLessAndEq_eq_lt.2 hlt)⟩
  · rintro ⟨key, t, htable, ht, rfl, hsame, hfirst⟩
    refine ⟨htable, (key, t), ?_, rfl⟩
    apply (Order.find?_toList_eq_some_iff (p := fun key => sameValue key priority)).2
    exact ⟨ht, hsame, fun earlier he hlt => hfirst earlier he (compareOfLessAndEq_eq_lt.1 hlt)⟩

end FilterRules

end IssueFlow.Rules

namespace IssueFlow.Quality

open IssueFlow.Text IssueFlow.Tracker IssueFlow.Rules

/-! ## Reasons to leave a defect out -/

/-- A rule of its project that looks at a defect alone leaves it out. -/
inductive Barred (r : FilterRules) (d : Defect) : Prop where
  /-- The status is the one that rejects, and the resolution is one that does not count. -/
  | rejected {rule : RejectionRule} {resolution member : String}
      (hrule : r.rejectionRules[d.issue.project]? = some rule)
      (hstatus : sameValue d.status rule.status = true)
      (hresolution : d.resolution = some resolution)
      (hmember : member ∈ rule.excludedResolutions)
      (hsame : sameValue member resolution = true)
  /-- The priority is excluded. -/
  | priority {excluded : TextSet} {priority member : String}
      (hexcluded : r.priorityExclusions[d.issue.project]? = some excluded)
      (hpriority : d.priority = some priority)
      (hmember : member ∈ excluded)
      (hsame : sameValue member priority = true)
  /-- The project wants some root causes, and the defect has none of them. -/
  | rootCause {included : TextSet}
      (hincluded : r.rootCauseInclusions[d.issue.project]? = some included)
      (hne : included ≠ ∅)
      (hnone : ∀ wanted ∈ included, ∀ cause ∈ d.rootCauses,
        canonicalRootCause cause ≠ canonicalRootCause wanted)

section

variable {r : FilterRules} {ds : List Defect} {d : Defect}

theorem passesRejection_eq_false_iff : passesRejection r d = false ↔
    ∃ rule, r.rejectionRules[d.issue.project]? = some rule ∧
      sameValue d.status rule.status = true ∧ ∃ resolution, d.resolution = some resolution ∧
        ∃ member ∈ rule.excludedResolutions, sameValue member resolution = true := by
  unfold passesRejection
  cases r.rejectionRules[d.issue.project]? with
  | none => simp
  | some rule => simp [Option.any_eq_true, TextSet.holds_iff]

theorem passesPriority_eq_false_iff : passesPriority r d = false ↔
    ∃ excluded, r.priorityExclusions[d.issue.project]? = some excluded ∧
      ∃ priority, d.priority = some priority ∧
        ∃ member ∈ excluded, sameValue member priority = true := by
  unfold passesPriority
  cases r.priorityExclusions[d.issue.project]? with
  | none => simp
  | some excluded => simp [Option.any_eq_true, TextSet.holds_iff]

theorem passesRootCause_eq_false_iff : passesRootCause r d = false ↔
    ∃ included, r.rootCauseInclusions[d.issue.project]? = some included ∧ included ≠ ∅ ∧
      ∀ wanted ∈ included, ∀ cause ∈ d.rootCauses,
        canonicalRootCause cause ≠ canonicalRootCause wanted := by
  unfold passesRootCause
  cases r.rootCauseInclusions[d.issue.project]? with
  | none => simp
  | some included =>
    simp only [List.contains_eq_mem, List.mem_map, Std.ExtTreeSet.mem_toList,
      Bool.or_eq_false_iff, Std.ExtTreeSet.isEmpty_eq_false_iff, List.any_eq_false,
      decide_eq_true_eq, not_exists, not_and, Option.some.injEq, ne_eq, exists_eq_left',
      and_congr_right_iff]
    intro _
    constructor
    · intro h wanted hwanted cause hcause heq
      exact h cause hcause wanted hwanted heq.symm
    · intro h cause hcause wanted hwanted heq
      exact h wanted hwanted cause hcause heq.symm

theorem isCandidate_eq_false_iff : isCandidate r d = false ↔ Barred r d := by
  unfold isCandidate passesPriorityRootCause
  rw [Bool.and_eq_false_iff, Bool.and_eq_false_iff, passesRejection_eq_false_iff,
    passesPriority_eq_false_iff, passesRootCause_eq_false_iff]
  constructor
  · rintro (⟨rule, hrule, hstatus, resolution, hresolution, member, hmember, hsame⟩ |
      ⟨excluded, hexcluded, priority, hpriority, member, hmember, hsame⟩ |
      ⟨included, hincluded, hne, hnone⟩)
    · exact .rejected hrule hstatus hresolution hmember hsame
    · exact .priority hexcluded hpriority hmember hsame
    · exact .rootCause hincluded hne hnone
  · rintro (⟨hrule, hstatus, hresolution, hmember, hsame⟩ |
      ⟨hexcluded, hpriority, hmember, hsame⟩ | ⟨hincluded, hne, hnone⟩)
    · exact .inl ⟨_, hrule, hstatus, _, hresolution, _, hmember, hsame⟩
    · exact .inr (.inl ⟨_, hexcluded, _, hpriority, _, hmember, hsame⟩)
    · exact .inr (.inr ⟨_, hincluded, hne, hnone⟩)

end

instance (r : FilterRules) (d : Defect) : Decidable (Barred r d) :=
  decidable_of_iff (isCandidate r d = false) isCandidate_eq_false_iff

/-- The number of defects of a project that are not barred, are linked to the story and have the
priority, compared without surrounding blanks and in lower case. -/
def candidatesOn (r : FilterRules) (ds : List Defect) (project story priority : String) : Nat :=
  ds.countP fun e => ¬ Barred r e ∧ e.issue.project = project ∧ story ∈ e.linkedStories ∧
    e.priority.map lowerKey = some (lowerKey priority)

/-- The defect has a priority of which its project tolerates some number, it is linked to a story,
and no story that it is linked to has more candidates of this priority. -/
def Tolerated (r : FilterRules) (ds : List Defect) (d : Defect) : Prop :=
  ∃ priority n, d.priority = some priority ∧ r.Tolerates d.issue.project priority n ∧
    d.linkedStories ≠ [] ∧
    ∀ story ∈ d.linkedStories, candidatesOn r ds d.issue.project story priority ≤ n

section

variable {r : FilterRules} {ds : List Defect} {d : Defect}

theorem countP_candidates (r : FilterRules) (ds : List Defect) (project story priority : String) :
    (ds.filter (isCandidate r)).countP (isCountedFor project story (priorityKey priority)) =
      candidatesOn r ds project story priority := by
  unfold candidatesOn
  rw [List.countP_filter]
  refine List.countP_congr fun e _ => ?_
  have hcandidate : isCandidate r e = true ↔ ¬ Barred r e := by
    rw [← isCandidate_eq_false_iff, Bool.not_eq_false]
  rw [Bool.and_eq_true, isCountedFor_iff, hcandidate, decide_eq_true_iff, Option.map_eq_some_iff]
  constructor
  · rintro ⟨⟨hproject, hkey, hstory⟩, hbarred⟩
    exact ⟨hbarred, hproject, hstory, hkey⟩
  · rintro ⟨hbarred, hproject, hstory, hkey⟩
    exact ⟨⟨hproject, hkey, hstory⟩, hbarred⟩

theorem isTolerated_eq_true_iff :
    isTolerated r (storyCounts (ds.filter (isCandidate r))) d = true ↔ Tolerated r ds d := by
  rw [isTolerated_iff]
  simp only [Tolerated, countP_candidates, FilterRules.tolerance?_eq_some_iff]

end

instance (r : FilterRules) (ds : List Defect) (d : Defect) : Decidable (Tolerated r ds d) :=
  decidable_of_iff (isTolerated r (storyCounts (ds.filter (isCandidate r))) d = true)
    isTolerated_eq_true_iff

/-- No counter exceeds the number of defects, so one of 32 bits holds it for fewer than `2 ^ 32`. -/
theorem exclude_eq_filter (r : FilterRules) (ds : List Defect) :
    exclude r ds = (ds.filter fun d => ¬ Barred r d ∧ ¬ Tolerated r ds d) ∧
      ∀ project story key,
        (storyCounts (ds.filter (isCandidate r))).count project story key ≤ ds.length := by
  refine ⟨?_, fun project story key => ?_⟩
  · unfold exclude
    rw [List.filter_filter]
    refine List.filter_congr fun d _ => ?_
    rw [Bool.eq_iff_iff, Bool.and_eq_true, Bool.not_eq_true', decide_eq_true_iff,
      ← isCandidate_eq_false_iff, Bool.not_eq_false, ← isTolerated_eq_true_iff, Bool.not_eq_true,
      and_comm]
  · exact Nat.le_trans (count_storyCounts_le _ project story key) (List.length_filter_le _ _)

end IssueFlow.Quality
