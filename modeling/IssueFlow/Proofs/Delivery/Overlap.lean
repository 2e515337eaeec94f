import IssueFlow.Proofs.Delivery.Velocity
import IssueFlow.Proofs.Order.Selection

/-!
# Issues that two sprints list

Selections are gathered by project and issue: an issue is filed with the windows of the selections
that list it, in their order (`windowsOf_listings`). It is a duplicate just if two selections at
different places of the list file overlapping windows (`isDuplicate_iff`), and no project is entered
without duplicates. So the duplicates hang on which selections there are and on what they list, and
not on any order (`findDuplicates_rearranged`).
-/

namespace IssueFlow.Delivery

open IssueFlow.Calendar IssueFlow.Tracker IssueFlow.Rules IssueFlow.Order

instance (s : SprintSelection) (x : IssueRef) : Decidable (Lists s x) :=
  inferInstanceAs (Decidable (s.project = x.project ∧ x.number ∈ s.issues))

/-- Two selections at different places list the issue, and their windows overlap. -/
def ListedTwice (selections : List SprintSelection) (x : IssueRef) : Prop :=
  ∃ (i j : Nat) (s s' : SprintSelection), i ≠ j ∧ selections[i]? = some s ∧
    selections[j]? = some s' ∧ Lists s x ∧ Lists s' x ∧ s.window.overlaps s'.window = true

/-- The same sprint with its issues in another order. -/
structure SameListing (s s' : SprintSelection) : Prop where
  project : s.project = s'.project
  sprint : s.sprint = s'.sprint
  window : s.window = s'.window
  issues : s.issues.Perm s'.issues

/-- The same selections in another order, each with its issues in another order. -/
def Rearranged (selections selections' : List SprintSelection) : Prop :=
  ∃ between, selections.Perm between ∧ List.Forall₂ SameListing between selections'

/-! ## Filed windows -/

/-- The windows that are filed for an issue. -/
def Listings.windowsOf (ls : Listings) (x : IssueRef) : List Window :=
  (ls[x.project]?.bind fun issues => issues[x.number]?).getD []

section

variable {selections selections' : List SprintSelection} {x : IssueRef}

theorem windowsOf_add (ls : Listings) (project number : String) (w : Window) (x : IssueRef) :
    (ls.add project number w).windowsOf x =
      ls.windowsOf x ++ if project = x.project ∧ number = x.number then [w] else [] := by
  unfold Listings.windowsOf Listings.add
  rw [Std.ExtTreeMap.getElem?_alter]
  by_cases hproject : project = x.project
  · subst hproject
    rw [if_pos Std.ReflCmp.compare_self, Option.bind_some, Std.ExtTreeMap.getElem?_alter]
    by_cases hnumber : number = x.number
    · subst hnumber
      cases ls[x.project]? <;> simp
    · cases ls[x.project]? <;> simp [hnumber]
  · simp [hproject]

theorem windowsOf_foldl_add (ls : Listings) (project : String) (w : Window) {numbers : List String}
    (h : numbers.Nodup) :
    (numbers.foldl (fun ls number => ls.add project number w) ls).windowsOf x =
      ls.windowsOf x ++ if project = x.project ∧ x.number ∈ numbers then [w] else [] := by
  induction numbers generalizing ls with
  | nil => simp
  | cons number numbers ih =>
    obtain ⟨hnot, h⟩ := List.nodup_cons.1 h
    rw [List.foldl_cons, ih _ h, windowsOf_add, List.append_assoc]
    by_cases hnumber : number = x.number
    · subst hnumber
      simp [hnot]
    · simp [hnumber, Ne.symm hnumber]

/-- A selection files its window once for each issue that it lists. -/
theorem windowsOf_addSelection (ls : Listings) (s : SprintSelection) :
    (ls.addSelection s).windowsOf x = ls.windowsOf x ++ if Lists s x then [s.window] else [] := by
  have hnodup : (distinctOn id s.issues).Nodup := nodup_distinctOn_id
  unfold Listings.addSelection
  rw [windowsOf_foldl_add ls s.project s.window hnodup]
  simp only [mem_distinctOn_id]
  rfl

theorem windowsOf_listings (selections : List SprintSelection) (x : IssueRef) :
    (listings selections).windowsOf x =
      (selections.filter fun s => Lists s x).map SprintSelection.window := by
  have hfold (ls : Listings) : (selections.foldl Listings.addSelection ls).windowsOf x =
      ls.windowsOf x ++ (selections.filter fun s => Lists s x).map SprintSelection.window := by
    induction selections generalizing ls with
    | nil => simp
    | cons s selections ih =>
      rw [List.foldl_cons, ih, windowsOf_addSelection, List.filter_cons, List.append_assoc]
      by_cases hlists : Lists s x <;> simp [hlists]
  have hempty : (∅ : Listings).windowsOf x = [] := by
    simp [Listings.windowsOf]
  unfold listings
  rw [hfold, hempty, List.nil_append]

/-! ## Duplicates -/

theorem anyOverlap_eq_false_iff {ws : List Window} :
    anyOverlap ws = false ↔ ws.Pairwise fun v w => v.overlaps w = false := by
  induction ws with
  | nil => simp [anyOverlap]
  | cons w ws ih => simp [anyOverlap, ih]

theorem getElem?_findDuplicates (selections : List SprintSelection) (project : String) :
    (findDuplicates selections)[project]? = (listings selections)[project]?.bind fun issues =>
      if (issues.filter fun _ windows => anyOverlap windows).isEmpty then none
      else some (Std.ExtTreeSet.ofList (issues.filter fun _ windows => anyOverlap windows).keys) := by
  unfold findDuplicates
  rw [Std.ExtTreeMap.getElem?_filterMap']

theorem isDuplicate_iff_anyOverlap :
    IsDuplicate selections x ↔ anyOverlap ((listings selections).windowsOf x) = true := by
  unfold IsDuplicate Listings.windowsOf
  rw [Std.ExtTreeMap.getD_eq_getD_getElem?, getElem?_findDuplicates]
  cases (listings selections)[x.project]? with
  | none => simp [anyOverlap]
  | some issues =>
    rw [Option.bind_some, Option.bind_some]
    have hmem : (x.number ∈ issues.filter fun _ windows => anyOverlap windows) ↔
        anyOverlap (issues[x.number]?.getD []) = true := by
      rw [Std.ExtTreeMap.mem_iff_isSome_getElem?, Std.ExtTreeMap.getElem?_filter']
      cases issues[x.number]? with
      | none => simp [anyOverlap]
      | some windows => cases h : anyOverlap windows <;> simp [Option.filter, h]
    rw [← hmem]
    split
    · next hempty =>
      rw [Std.ExtTreeMap.isEmpty_iff.1 hempty]
      simp
    · rw [Option.getD_some, Std.ExtTreeSet.mem_ofList, List.contains_iff_mem,
        Std.ExtTreeMap.mem_keys]

theorem isDuplicate_iff_pairwise : IsDuplicate selections x ↔
    ¬ selections.Pairwise fun s s' =>
      Lists s x → Lists s' x → s.window.overlaps s'.window = false := by
  rw [isDuplicate_iff_anyOverlap, windowsOf_listings, ← Bool.not_eq_false,
    anyOverlap_eq_false_iff, List.pairwise_map, List.pairwise_filter]
  simp only [decide_eq_true_eq]

theorem isDuplicate_iff : IsDuplicate selections x ↔ ListedTwice selections x := by
  rw [isDuplicate_iff_pairwise, List.pairwise_iff_getElem]
  constructor
  · intro h
    simp only [not_forall, Bool.not_eq_false] at h
    obtain ⟨i, j, hi, hj, hij, hlists, hlists', hoverlap⟩ := h
    exact ⟨i, j, selections[i], selections[j], Nat.ne_of_lt hij, List.getElem?_eq_getElem hi,
      List.getElem?_eq_getElem hj, hlists, hlists', hoverlap⟩
  · rintro ⟨i, j, s, s', hij, hs, hs', hlists, hlists', hoverlap⟩ hnone
    obtain ⟨hi, rfl⟩ := List.getElem?_eq_some_iff.1 hs
    obtain ⟨hj, rfl⟩ := List.getElem?_eq_some_iff.1 hs'
    rcases Nat.lt_or_gt_of_ne hij with hlt | hlt
    · rw [hnone i j hi hj hlt hlists hlists'] at hoverlap
      cases hoverlap
    · rw [Window.overlaps_comm, hnone j i hj hi hlt hlists' hlists] at hoverlap
      cases hoverlap

theorem ne_empty_of_findDuplicates {project : String} {numbers : TextSet}
    (h : (findDuplicates selections)[project]? = some numbers) : numbers ≠ ∅ := by
  rw [getElem?_findDuplicates] at h
  obtain ⟨issues, -, hnumbers⟩ := Option.bind_eq_some_iff.1 h
  split at hnumbers
  · cases hnumbers
  · next hne =>
    cases hnumbers
    rw [Ne, Std.ExtTreeSet.ofList_eq_empty_iff, Std.ExtTreeMap.keys_eq_nil_iff,
      ← Std.ExtTreeMap.isEmpty_iff]
    exact hne

/-- As no project is entered without duplicates, the duplicates say which projects are. -/
theorem findDuplicates_congr (h : ∀ x, IsDuplicate selections x ↔ IsDuplicate selections' x) :
    findDuplicates selections = findDuplicates selections' := by
  refine Std.ExtTreeMap.ext_getElem? fun {project} => ?_
  have hnumbers (number : String) : number ∈ (findDuplicates selections).getD project ∅ ↔
      number ∈ (findDuplicates selections').getD project ∅ := h ⟨number, project⟩
  simp only [Std.ExtTreeMap.getD_eq_getD_getElem?] at hnumbers
  cases hleft : (findDuplicates selections)[project]? with
  | none =>
    cases hright : (findDuplicates selections')[project]? with
    | none => rfl
    | some numbers' =>
      refine absurd ?_ (ne_empty_of_findDuplicates hright)
      refine Std.ExtTreeSet.ext_mem fun number => ?_
      simpa [hleft, hright] using (hnumbers number).symm
  | some numbers =>
    cases hright : (findDuplicates selections')[project]? with
    | none =>
      refine absurd ?_ (ne_empty_of_findDuplicates hleft)
      refine Std.ExtTreeSet.ext_mem fun number => ?_
      simpa [hleft, hright] using hnumbers number
    | some numbers' =>
      refine congrArg some (Std.ExtTreeSet.ext_mem fun number => ?_)
      simpa [hleft, hright] using hnumbers number

/-! ## Order of the selections -/

/-- What a selection says of duplicates, whatever the order of its issues. -/
def listing (s : SprintSelection) : String × Window × TextSet :=
  (s.project, s.window, Std.ExtTreeSet.ofList s.issues)

theorem isDuplicate_iff_pairwise_listing : IsDuplicate selections x ↔
    ¬ (selections.map listing).Pairwise fun l l' =>
      l.1 = x.project ∧ x.number ∈ l.2.2 → l'.1 = x.project ∧ x.number ∈ l'.2.2 →
        l.2.1.overlaps l'.2.1 = false := by
  rw [isDuplicate_iff_pairwise, List.pairwise_map]
  simp only [listing, Std.ExtTreeSet.mem_ofList, List.contains_iff_mem]
  rfl

theorem perm_map_listing (h : Rearranged selections selections') :
    (selections.map listing).Perm (selections'.map listing) := by
  obtain ⟨between, hperm, hlisting⟩ := h
  have hsame : List.Forall₂ (fun s s' => listing s = listing s') between selections' := by
    refine hlisting.imp fun s s' hs => ?_
    have hissues :
        Std.ExtTreeSet.ofList s.issues = (Std.ExtTreeSet.ofList s'.issues : TextSet) := by
      refine Std.ExtTreeSet.ext_mem fun number => ?_
      simp only [Std.ExtTreeSet.mem_ofList, List.contains_iff_mem, hs.issues.mem_iff]
    unfold listing
    rw [hs.project, hs.window, hissues]
  have hmap : between.map listing = selections'.map listing := by
    rw [← List.forall₂_eq_eq_eq, List.forall₂_map_left_iff, List.forall₂_map_right_iff]
    exact hsame
  exact hmap ▸ hperm.map listing

theorem findDuplicates_rearranged (h : Rearranged selections selections') :
    findDuplicates selections' = findDuplicates selections := by
  refine findDuplicates_congr fun x => ?_
  rw [isDuplicate_iff_pairwise_listing, isDuplicate_iff_pairwise_listing, not_iff_not]
  refine (perm_map_listing h).symm.pairwise_iff fun {l l'} hll' hl' hl => ?_
  rw [Window.overlaps_comm]
  exact hll' hl hl'

end

theorem findDuplicates_listedTwice (selections : List SprintSelection) :
    (∀ x : IssueRef, x.number ∈ (findDuplicates selections).getD x.project ∅ ↔
        ListedTwice selections x) ∧
      (∀ (project : String) (numbers : TextSet),
        (findDuplicates selections)[project]? = some numbers → numbers ≠ ∅) ∧
      (∀ selections', Rearranged selections selections' →
        findDuplicates selections' = findDuplicates selections) ∧
      (∀ v w : Window, v.start ≤ v.stop → w.start ≤ w.stop →
        (v.overlaps w = true ↔ ∃ t, v.contains t = true ∧ w.contains t = true)) ∧
      ∀ x t i j s s', i ≠ j → Claims selections x t i s → Claims selections x t j s' →
        x.number ∈ (findDuplicates selections).getD x.project ∅ := by
  refine ⟨fun x => isDuplicate_iff, fun project numbers => ne_empty_of_findDuplicates,
    fun selections' => findDuplicates_rearranged,
    fun v w => Window.overlaps_iff_exists_contains, ?_⟩
  rintro x t i j s s' hij ⟨hs, hlists, ht⟩ ⟨hs', hlists', ht'⟩
  exact isDuplicate_iff.2
    ⟨i, j, s, s', hij, hs, hs', hlists, hlists', Window.overlaps_of_contains ht ht'⟩

/-- Three sprints of which only the outer two overlap, in one instant. -/
def touching : List SprintSelection :=
  [⟨"A", "first", ⟨midnight 1, midnight 10⟩, ["S-1", "S-2"]⟩,
    ⟨"A", "second", ⟨midnight 12, midnight 14⟩, ["S-1", "S-1", "S-3"]⟩,
    ⟨"A", "third", ⟨midnight 10, midnight 11⟩, ["S-3", "S-1"]⟩]

/-- The same sprints backwards, each with its issues backwards. -/
def touchingBackwards : List SprintSelection :=
  touching.reverse.map fun s => { s with issues := s.issues.reverse }

theorem findDuplicates_touching :
    Rearranged touching touchingBackwards ∧
      findDuplicates touchingBackwards = findDuplicates touching ∧
      (findDuplicates touching)["A"]? = some (.ofList ["S-1"]) ∧
      (Std.ExtTreeSet.ofList ["S-1"] : TextSet) ≠ ∅ ∧
      (∃ t, Window.contains ⟨midnight 1, midnight 10⟩ t = true ∧
        Window.contains ⟨midnight 10, midnight 11⟩ t = true) ∧
      ListedTwice touching ⟨"S-1", "A"⟩ := by
  obtain ⟨hduplicate, hne, hrearranged, hwindows, hclaims⟩ := findDuplicates_listedTwice touching
  have hbackwards : Rearranged touching touchingBackwards := by
    refine ⟨touching.reverse, (List.reverse_perm touching).symm, ?_⟩
    unfold touchingBackwards
    rw [List.forall₂_map_right_iff, List.forall₂_same]
    exact fun s _ => ⟨rfl, rfl, rfl, (List.reverse_perm s.issues).symm⟩
  have hentry : (findDuplicates touching)["A"]? = some (.ofList ["S-1"]) := by decide +kernel
  have hfirst : Claims touching ⟨"S-1", "A"⟩ (midnight 10) 0
      ⟨"A", "first", ⟨midnight 1, midnight 10⟩, ["S-1", "S-2"]⟩ :=
    ⟨rfl, by decide +kernel, by decide +kernel⟩
  have hthird : Claims touching ⟨"S-1", "A"⟩ (midnight 10) 2
      ⟨"A", "third", ⟨midnight 10, midnight 11⟩, ["S-3", "S-1"]⟩ :=
    ⟨rfl, by decide +kernel, by decide +kernel⟩
  refine ⟨hbackwards, hrearranged _ hbackwards, hentry, hne _ _ hentry, ?_, ?_⟩
  · exact (hwindows _ _ (by decide +kernel) (by decide +kernel)).1 (by decide +kernel)
  · exact (hduplicate _).1 (hclaims _ _ 0 2 _ _ (by decide) hfirst hthird)

end IssueFlow.Delivery
