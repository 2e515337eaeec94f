import IssueFlow.Proofs.Order.Selection
import IssueFlow.Proofs.Text.Ascii
import IssueFlow.Quality.Exclusion
import Mathlib.Data.List.Count

/-!
# Counts and tolerance

The counters of an exclusion hold numbers of candidates (`count_storyCounts`), so whether a defect
is tolerated can be read off the list of candidates (`isTolerated_iff`), and 32 bits are enough for
a counter while there are fewer than `2 ^ 32` defects (`count_storyCounts_lt_size`).

To leave out a defect lowers the counters of those that are left, and a second exclusion may then
leave out more. It does so only where one defect `Undercuts` another: the two share a counter, but
the project tolerates less of the first one's priority. Counters go by the lower-case text of a
priority and tolerances by tracker equality, which ignores the case of ASCII letters only, so one
counter may have two tolerances. Exclusion is idempotent exactly under rules where no defect
undercuts another (`exclude_idempotent_iff`), and always on ASCII priorities
(`exclude_exclude_of_isAscii`).
-/

namespace IssueFlow.Quality

open IssueFlow.Text IssueFlow.Tracker IssueFlow.Rules IssueFlow.Order

/-! ## Counters -/

/-- Whether the defect is counted for a story of a project, under the key of its priority. -/
def isCountedFor (project story key : String) (d : Defect) : Bool :=
  d.issue.project == project && d.priority.any (fun priority => priorityKey priority == key) &&
    d.linkedStories.contains story

theorem isCountedFor_iff {project story key : String} {d : Defect} :
    isCountedFor project story key d = true ↔ d.issue.project = project ∧
      (∃ priority, d.priority = some priority ∧ priorityKey priority = key) ∧
        story ∈ d.linkedStories := by
  simp [isCountedFor, Option.any_eq_true, and_assoc]

namespace StoryCounts

variable (counts : StoryCounts) (project story key project' story' key' : String)

theorem count_empty : (∅ : StoryCounts).count project story key = 0 := by
  simp [count]

theorem count_add : (counts.add project story key).count project' story' key' =
    counts.count project' story' key' +
      if project = project' ∧ story = story' ∧ key = key' then 1 else 0 := by
  unfold count add
  rw [Std.ExtTreeMap.getElem?_alter]
  by_cases hp : project = project'
  · subst hp
    rw [if_pos Std.ReflCmp.compare_self]
    simp only [Std.ExtTreeMap.getElem?_alter]
    by_cases hs : story = story'
    · subst hs
      rw [if_pos Std.ReflCmp.compare_self]
      by_cases hk : key = key'
      · subst hk
        cases counts[project]? with
        | none => simp
        | some stories =>
          cases h : stories[story]? <;> simp [h, Std.ExtTreeMap.getD_eq_getD_getElem?]
      · cases counts[project]? with
        | none => simp [Std.ExtTreeMap.getD_alter, hk]
        | some stories => cases h : stories[story]? <;> simp [Std.ExtTreeMap.getD_alter, h, hk]
    · cases counts[project]? <;> simp [hs]
  · simp [hp]

theorem count_foldl_add {stories : List String} (h : stories.Nodup) :
    (stories.foldl (fun counts story => counts.add project story key) counts).count project' story'
        key' =
      counts.count project' story' key' +
        if project = project' ∧ story' ∈ stories ∧ key = key' then 1 else 0 := by
  induction stories generalizing counts with
  | nil => simp
  | cons story stories ih =>
    obtain ⟨hnot, h⟩ := List.nodup_cons.1 h
    rw [List.foldl_cons, ih _ h, count_add, Nat.add_assoc]
    by_cases hs : story = story'
    · subst hs
      simp [hnot]
    · simp [hs, Ne.symm hs]

theorem count_addDefect (d : Defect) : (counts.addDefect d).count project story key =
    counts.count project story key + if isCountedFor project story key d then 1 else 0 := by
  unfold addDefect
  cases hpriority : d.priority with
  | none => simp [isCountedFor, hpriority]
  | some priority =>
    have hnodup : (distinctOn id d.linkedStories).Nodup := pairwise_distinctOn id d.linkedStories
    rw [count_foldl_add _ _ _ _ _ _ hnodup]
    simp only [isCountedFor_iff, hpriority, mem_distinctOn_id, Option.some.injEq, exists_eq_left',
      and_comm (a := story ∈ d.linkedStories)]

end StoryCounts

/-- A counter holds the number of defects that are counted for its story. -/
theorem count_storyCounts (ds : List Defect) (project story key : String) :
    (storyCounts ds).count project story key = ds.countP (isCountedFor project story key) := by
  have hfold (counts : StoryCounts) :
      (ds.foldl StoryCounts.addDefect counts).count project story key =
        counts.count project story key + ds.countP (isCountedFor project story key) := by
    induction ds generalizing counts with
    | nil => rfl
    | cons d ds ih =>
      rw [List.foldl_cons, ih, StoryCounts.count_addDefect, List.countP_cons, Nat.add_assoc,
        Nat.add_comm (List.countP _ _)]
  rw [storyCounts, hfold, StoryCounts.count_empty, Nat.zero_add]

theorem count_storyCounts_le (ds : List Defect) (project story key : String) :
    (storyCounts ds).count project story key ≤ ds.length := by
  rw [count_storyCounts]
  exact List.countP_le_length

/-- While fewer than `2 ^ 32` defects are counted, no counter of 32 bits overflows on the way. -/
theorem count_storyCounts_lt_size {ds counted : List Defect} (h : ds.length < UInt32.size)
    (hcounted : counted <+: ds) (project story key : String) :
    (storyCounts counted).count project story key < UInt32.size :=
  calc (storyCounts counted).count project story key
      ≤ counted.length := count_storyCounts_le counted project story key
    _ ≤ ds.length := hcounted.length_le
    _ < UInt32.size := h

/-! ## Tolerance -/

section

variable {r : FilterRules} {ds cs : List Defect} {d e : Defect}

theorem isTolerated_iff : isTolerated r (storyCounts cs) d = true ↔
    ∃ priority tolerance, d.priority = some priority ∧
      r.tolerance? d.issue.project priority = some tolerance ∧ d.linkedStories ≠ [] ∧
      ∀ story ∈ d.linkedStories,
        cs.countP (isCountedFor d.issue.project story (priorityKey priority)) ≤ tolerance := by
  unfold isTolerated
  cases hp : d.priority with
  | none => simp
  | some priority =>
    cases ht : r.tolerance? d.issue.project priority with
    | none => simp [ht]
    | some tolerance => simp [ht, count_storyCounts]

theorem mem_exclude_iff : d ∈ exclude r ds ↔ (d ∈ ds ∧ isCandidate r d = true) ∧
    isTolerated r (storyCounts (ds.filter (isCandidate r))) d = false := by
  rw [exclude, List.mem_filter, List.mem_filter, Bool.not_eq_true']

/-- The two defects are counted together for a story, but their project tolerates less of the first
one's priority, though not nothing. -/
def Undercuts (r : FilterRules) (d e : Defect) : Prop :=
  ∃ story ∈ d.linkedStories, ∃ a b t u, d.priority = some a ∧
    isCountedFor d.issue.project story (priorityKey a) e = true ∧ e.priority = some b ∧
    r.tolerance? d.issue.project a = some t ∧ r.tolerance? e.issue.project b = some u ∧
    0 < t ∧ t < u

/-- No candidate undercuts another one. -/
def TolerancesAgree (r : FilterRules) (ds : List Defect) : Prop :=
  ∀ d ∈ ds.filter (isCandidate r), ∀ e ∈ ds.filter (isCandidate r), ¬ Undercuts r d e

/-- A counter over the tolerance of a defect that counts loses nothing by an exclusion. -/
theorem countP_exclude (hagree : TolerancesAgree r ds) (hd : d ∈ exclude r ds)
    {priority story : String} {tolerance : Nat} (hp : d.priority = some priority)
    (hs : story ∈ d.linkedStories)
    (ht : r.tolerance? d.issue.project priority = some tolerance) (hpos : 0 < tolerance)
    (hlt : tolerance < (ds.filter (isCandidate r)).countP
      (isCountedFor d.issue.project story (priorityKey priority))) :
    (exclude r ds).countP (isCountedFor d.issue.project story (priorityKey priority)) =
      (ds.filter (isCandidate r)).countP
        (isCountedFor d.issue.project story (priorityKey priority)) := by
  rw [exclude, List.countP_filter]
  refine List.countP_congr fun e he => ?_
  rw [Bool.and_eq_true, and_iff_left_iff_imp]
  intro hcounted
  rw [Bool.not_eq_true', Bool.eq_false_iff]
  intro htolerated
  obtain ⟨b, u, hb, hu, -, hle⟩ := isTolerated_iff.1 htolerated
  obtain ⟨hproject, ⟨b', hb', hkey⟩, hstory⟩ := isCountedFor_iff.1 hcounted
  obtain rfl := Option.some.inj (hb.symm.trans hb')
  have hle := hle story hstory
  rw [hproject, hkey] at hle
  have hd : d ∈ ds.filter (isCandidate r) := List.mem_filter.2 (mem_exclude_iff.1 hd).1
  exact hagree d hd e he
    ⟨story, hs, priority, b, tolerance, u, hp, hcounted, hb, ht, hu, hpos, by omega⟩

theorem exclude_of_candidates (h : ∀ d ∈ ds, isCandidate r d = true) :
    exclude r ds = ds.filter fun d => !isTolerated r (storyCounts ds) d := by
  rw [exclude, List.filter_eq_self.2 h]

/-- Where no candidate undercuts another one, a second exclusion leaves nothing out. -/
theorem exclude_exclude (h : TolerancesAgree r ds) : exclude r (exclude r ds) = exclude r ds := by
  rw [exclude_of_candidates fun d hd => (mem_exclude_iff.1 hd).1.2, List.filter_eq_self]
  intro d hd
  rw [Bool.not_eq_true', Bool.eq_false_iff]
  intro htolerated
  obtain ⟨priority, tolerance, hp, ht, hne, hle⟩ := isTolerated_iff.1 htolerated
  -- The first exclusion kept the defect, so one of its counters was over the tolerance then.
  obtain ⟨story, hs, hlt⟩ : ∃ story ∈ d.linkedStories,
      tolerance < (ds.filter (isCandidate r)).countP
        (isCountedFor d.issue.project story (priorityKey priority)) := by
    by_contra hnone
    have hall := fun story hs => Nat.le_of_not_lt fun hlt => hnone ⟨story, hs, hlt⟩
    have hkept := (mem_exclude_iff.1 hd).2
    rw [isTolerated_iff.2 ⟨priority, tolerance, hp, ht, hne, hall⟩] at hkept
    cases hkept
  have hle := hle story hs
  have hself : 0 < (exclude r ds).countP
      (isCountedFor d.issue.project story (priorityKey priority)) :=
    List.countP_pos_iff.2 ⟨d, hd, isCountedFor_iff.2 ⟨rfl, ⟨priority, hp, rfl⟩, hs⟩⟩
  rw [countP_exclude h hd hp hs ht (by omega) hlt] at hle
  omega

/-! ## ASCII priorities -/

theorem tolerance?_congr {project a b : String} (h : sameValue a b = true) :
    r.tolerance? project a = r.tolerance? project b := by
  have hentries : (fun entry : String × UInt32 => sameValue entry.1 a) =
      fun entry => sameValue entry.1 b := by
    funext entry
    rw [Bool.eq_iff_iff, sameValue_iff, sameValue_iff, sameValue_iff.1 h]
  rw [FilterRules.tolerance?, hentries]
  rfl

/-- Priorities in ASCII that share a counter share a tolerance. -/
theorem tolerancesAgree_of_isAscii
    (h : ∀ d ∈ ds, ∀ priority, d.priority = some priority → IsAscii priority.toList) :
    TolerancesAgree r ds := by
  rintro d hd e he ⟨story, -, a, b, t, u, ha, hcounted, hb, ht, hu, -, htu⟩
  obtain ⟨hproject, ⟨b', hb', hkey⟩, -⟩ := isCountedFor_iff.1 hcounted
  obtain rfl := Option.some.inj (hb.symm.trans hb')
  have hsame : sameValue b a = true :=
    (sameValue_iff_lowerKey_eq (h e (List.mem_filter.1 he).1 b hb)
      (h d (List.mem_filter.1 hd).1 a ha)).2 hkey
  rw [hproject, tolerance?_congr hsame, ht] at hu
  exact Nat.ne_of_lt htu (Option.some.inj hu)

theorem exclude_exclude_of_isAscii
    (h : ∀ d ∈ ds, ∀ priority, d.priority = some priority → IsAscii priority.toList) :
    exclude r (exclude r ds) = exclude r ds :=
  exclude_exclude (tolerancesAgree_of_isAscii h)

/-! ## Undercut defects -/

/-- The defect as if it were linked to one story only. -/
def linkedTo (story : String) (d : Defect) : Defect := { d with linkedStories := [story] }

variable {story a b : String} {t u : Nat}

theorem isTolerated_linkedTo_iff (hp : d.priority = some a)
    (ht : r.tolerance? d.issue.project a = some t) :
    isTolerated r (storyCounts cs) (linkedTo story d) = true ↔
      cs.countP (isCountedFor d.issue.project story (priorityKey a)) ≤ t := by
  simp [isTolerated_iff, linkedTo, hp, ht]

/-- A defect stays beside as many copies of one that it undercuts as its project tolerates, and the
copies go. -/
theorem exclude_linkedTo_replicate (hd : isCandidate r d = true) (he : isCandidate r e = true)
    (hcounted : isCountedFor d.issue.project story (priorityKey a) e = true)
    (ha : d.priority = some a) (ht : r.tolerance? d.issue.project a = some t)
    (hb : e.priority = some b) (hu : r.tolerance? e.issue.project b = some u) (htu : t < u) :
    exclude r (linkedTo story d :: List.replicate t (linkedTo story e)) = [linkedTo story d] := by
  obtain ⟨hproject, ⟨b', hb', hkey⟩, -⟩ := isCountedFor_iff.1 hcounted
  obtain rfl := Option.some.inj (hb.symm.trans hb')
  have hcandidates : ∀ x ∈ linkedTo story d :: List.replicate t (linkedTo story e),
      isCandidate r x = true := by
    intro x hx
    rcases List.mem_cons.1 hx with rfl | hx
    · exact hd
    · rw [List.eq_of_mem_replicate hx]
      exact he
  have hcount : (linkedTo story d :: List.replicate t (linkedTo story e)).countP
      (isCountedFor d.issue.project story (priorityKey a)) = t + 1 := by
    rw [List.countP_cons_of_pos, List.countP_replicate, if_pos]
    · exact isCountedFor_iff.2 ⟨hproject, ⟨b, hb, hkey⟩, List.mem_singleton_self story⟩
    · exact isCountedFor_iff.2 ⟨rfl, ⟨a, ha, rfl⟩, List.mem_singleton_self story⟩
  rw [exclude_of_candidates hcandidates, List.filter_cons_of_pos, List.filter_eq_nil_iff.2]
  · intro x hx
    rw [List.eq_of_mem_replicate hx, Bool.not_eq_true', Bool.not_eq_false,
      isTolerated_linkedTo_iff hb hu, hproject, hkey, hcount]
    exact htu
  · rw [Bool.not_eq_true', Bool.eq_false_iff, Ne, isTolerated_linkedTo_iff ha ht, hcount]
    omega

/-- A defect that is counted alone goes if its priority is tolerated at all. -/
theorem exclude_linkedTo_singleton (hd : isCandidate r d = true) (ha : d.priority = some a)
    (ht : r.tolerance? d.issue.project a = some t) (hpos : 0 < t) :
    exclude r [linkedTo story d] = [] := by
  rw [exclude_of_candidates fun x hx => List.mem_singleton.1 hx ▸ hd, List.filter_eq_nil_iff]
  intro x hx
  rw [List.mem_singleton.1 hx, Bool.not_eq_true', Bool.not_eq_false, isTolerated_linkedTo_iff ha ht]
  exact Nat.le_trans List.countP_le_length hpos

end

theorem exclude_idempotent_iff (r : FilterRules) :
    (∀ ds, exclude r (exclude r ds) = exclude r ds) ↔ ∀ ds, TolerancesAgree r ds := by
  refine ⟨fun h ds d hd e he hundercuts => ?_, fun h ds => exclude_exclude (h ds)⟩
  obtain ⟨story, -, a, b, t, u, ha, hcounted, hb, ht, hu, hpos, htu⟩ := hundercuts
  have hd := (List.mem_filter.1 hd).2
  have hfirst :=
    exclude_linkedTo_replicate hd (List.mem_filter.1 he).2 hcounted ha ht hb hu htu
  have hidem := h (linkedTo story d :: List.replicate t (linkedTo story e))
  rw [hfirst, exclude_linkedTo_singleton hd ha ht hpos] at hidem
  cases hidem

/-- Twice the same priority, but for the case of a letter that is not ASCII. -/
def accentedRules : FilterRules where
  priorityTolerance :=
    .ofList [("A", Std.ExtTreeMap.ofList [("Élevée", (2 : UInt32)), ("élevée", 1)])]

def accented (number priority : String) : Defect where
  issue := ⟨number, "A"⟩
  priority := some priority
  linkedStories := ["S-1"]

theorem exclude_accented :
    exclude accentedRules [accented "D-1" "élevée", accented "D-2" "Élevée"] =
        [accented "D-1" "élevée"] ∧
      exclude accentedRules (exclude accentedRules
        [accented "D-1" "élevée", accented "D-2" "Élevée"]) = [] := by
  decide +kernel

end IssueFlow.Quality
