import IssueFlow.Proofs.Order.Maps
import IssueFlow.Quality.Ratio
import Mathlib.Data.Finset.Card

/-!
# Stories that pass the first time

The ratio counts every completed story once and takes away the ones that some defect is linked to
(`size_faultySet`). Links to other stories do not come in, so no more is taken away than there is,
and the ratio hangs only on which stories there are and which of them have a defect
(`firstTimePassRate_congr`): not on the order of stories, defects and links, nor on repetitions.

Main statement: `firstTimePassRate_counts`.
-/

namespace IssueFlow.Quality

open IssueFlow.Tracker IssueFlow.Order

/-- Some defect is linked to the story. -/
def Faulty (ds : List Defect) (story : String) : Prop :=
  ∃ d ∈ ds, story ∈ d.linkedStories

instance (ds : List Defect) : DecidablePred (Faulty ds) := fun _ =>
  inferInstanceAs (Decidable (∃ d ∈ ds, _))

/-- The completed stories that no defect is linked to. -/
def passed (stories : List String) (ds : List Defect) : Finset String :=
  stories.toFinset.filter fun story => ¬ Faulty ds story

/-- The completed stories as a sorted set. -/
def completedSet (stories : List String) : Std.ExtTreeSet String :=
  .ofList stories

/-- The stories that defects are linked to, of those completed, as a sorted set. -/
def faultySet (stories : List String) (ds : List Defect) : Std.ExtTreeSet String :=
  .ofList ((ds.flatMap Defect.linkedStories).filter fun story =>
    (completedSet stories).contains story)

section

variable {stories stories' : List String} {ds ds' : List Defect}

theorem firstTimePassRate_eq (stories : List String) (ds : List Defect) :
    firstTimePassRate stories ds =
      percentage ((completedSet stories).size - (faultySet stories ds).size)
        (completedSet stories).size := rfl

theorem mem_completedSet {story : String} : story ∈ completedSet stories ↔ story ∈ stories := by
  rw [completedSet, Std.ExtTreeSet.mem_ofList, List.contains_iff_mem]

theorem size_completedSet (stories : List String) :
    (completedSet stories).size = stories.toFinset.card :=
  size_eq_card fun _ => mem_completedSet.trans List.mem_toFinset.symm

theorem size_faultySet (stories : List String) (ds : List Defect) :
    (faultySet stories ds).size = (stories.toFinset.filter (Faulty ds)).card := by
  refine size_eq_card fun story => ?_
  rw [faultySet, Std.ExtTreeSet.mem_ofList, List.contains_iff_mem, List.mem_filter,
    List.mem_flatMap, Std.ExtTreeSet.contains_iff_mem, mem_completedSet, Finset.mem_filter,
    List.mem_toFinset, and_comm]
  rfl

/-- What is taken away and what is left make up the completed stories. -/
theorem size_faultySet_add_card_passed (stories : List String) (ds : List Defect) :
    (faultySet stories ds).size + (passed stories ds).card = (completedSet stories).size := by
  rw [size_faultySet, size_completedSet, passed, Finset.card_filter_add_card_filter_not]

theorem firstTimePassRate_eq_percentage (stories : List String) (ds : List Defect) :
    firstTimePassRate stories ds =
      percentage (passed stories ds).card stories.toFinset.card := by
  have hsum := size_faultySet_add_card_passed stories ds
  rw [firstTimePassRate_eq, ← size_completedSet, ← hsum, Nat.add_sub_cancel_left]

/-- The ratio hangs only on which stories there are and which of them have a defect. -/
theorem firstTimePassRate_congr (hstories : ∀ story, story ∈ stories' ↔ story ∈ stories)
    (hfaulty : ∀ story ∈ stories, Faulty ds' story ↔ Faulty ds story) :
    firstTimePassRate stories' ds' = firstTimePassRate stories ds := by
  have hset : stories'.toFinset = stories.toFinset := by
    ext story
    rw [List.mem_toFinset, List.mem_toFinset, hstories]
  have hpassed : passed stories' ds' = passed stories ds := by
    rw [passed, passed, hset]
    refine Finset.filter_congr fun story hstory => ?_
    rw [hfaulty story (List.mem_toFinset.1 hstory)]
  rw [firstTimePassRate_eq_percentage, firstTimePassRate_eq_percentage, hpassed, hset]

theorem passed_subset (h : ds ⊆ ds') : passed stories ds' ⊆ passed stories ds := by
  refine Finset.monotone_filter_right _ fun story _ hpassed hfaulty => hpassed ?_
  obtain ⟨d, hd, hlinked⟩ := hfaulty
  exact ⟨d, h hd, hlinked⟩

/-- Every defect of one list has one in the other that is linked to the same stories. -/
def SameLinks (ds ds' : List Defect) : Prop :=
  (∀ d ∈ ds, ∃ d' ∈ ds', ∀ story, story ∈ d'.linkedStories ↔ story ∈ d.linkedStories) ∧
    ∀ d' ∈ ds', ∃ d ∈ ds, ∀ story, story ∈ d'.linkedStories ↔ story ∈ d.linkedStories

theorem SameLinks.faulty_iff (h : SameLinks ds ds') (story : String) :
    Faulty ds' story ↔ Faulty ds story := by
  constructor
  · rintro ⟨d', hd', hlinked⟩
    obtain ⟨d, hd, hsame⟩ := h.2 d' hd'
    exact ⟨d, hd, (hsame story).1 hlinked⟩
  · rintro ⟨d, hd, hlinked⟩
    obtain ⟨d', hd', hsame⟩ := h.1 d hd
    exact ⟨d', hd', (hsame story).2 hlinked⟩

/-- Defects that are linked to no completed story change nothing for those that are. -/
theorem faulty_iff_of_foreign (hsub : ds ⊆ ds')
    (hforeign : ∀ d ∈ ds', d ∉ ds → ∀ story ∈ d.linkedStories, story ∉ stories) {story : String}
    (hstory : story ∈ stories) : Faulty ds' story ↔ Faulty ds story := by
  constructor
  · rintro ⟨d, hd, hlinked⟩
    by_cases hmem : d ∈ ds
    · exact ⟨d, hmem, hlinked⟩
    · exact absurd hstory (hforeign d hd hmem story hlinked)
  · rintro ⟨d, hd, hlinked⟩
    exact ⟨d, hsub hd, hlinked⟩

end

theorem percentage_eq_none_iff {part whole : Nat} : percentage part whole = none ↔ whole = 0 := by
  unfold percentage
  split <;> simp [*]

/-- The ratio is absent without stories, and else the share of the stories that no defect is linked
to, each counted once. Its subtraction does not stop at zero. Order and repetitions do not matter,
nor do defects that are linked to other stories only, and more defects leave no more stories. -/
theorem firstTimePassRate_counts (stories : List String) (ds : List Defect) :
    (firstTimePassRate stories ds = none ↔ stories = []) ∧
      (stories ≠ [] → firstTimePassRate stories ds =
        some (Float.ofNat (passed stories ds).card / Float.ofNat stories.toFinset.card * 100)) ∧
      firstTimePassRate stories ds =
        percentage ((completedSet stories).size - (faultySet stories ds).size)
          (completedSet stories).size ∧
      (faultySet stories ds).size ≤ (completedSet stories).size ∧
      (completedSet stories).size - (faultySet stories ds).size = (passed stories ds).card ∧
      (∀ stories' ds', (∀ story, story ∈ stories' ↔ story ∈ stories) → SameLinks ds ds' →
        firstTimePassRate stories' ds' = firstTimePassRate stories ds) ∧
      (∀ ds', ds ⊆ ds' →
        (∀ d ∈ ds', d ∉ ds → ∀ story ∈ d.linkedStories, story ∉ stories) →
        firstTimePassRate stories ds' = firstTimePassRate stories ds) ∧
      ∀ ds', ds ⊆ ds' → (passed stories ds').card ≤ (passed stories ds).card := by
  have hsum := size_faultySet_add_card_passed stories ds
  have hnone : stories.toFinset.card = 0 ↔ stories = [] := by
    rw [Finset.card_eq_zero, List.toFinset_eq_empty_iff]
  refine ⟨?_, fun hne => ?_, firstTimePassRate_eq stories ds, by omega, by omega, ?_, ?_, ?_⟩
  · rw [firstTimePassRate_eq_percentage, percentage_eq_none_iff, hnone]
  · rw [firstTimePassRate_eq_percentage, percentage, if_neg (mt hnone.1 hne)]
  · intro stories' ds' hstories hlinks
    exact firstTimePassRate_congr hstories fun story _ => hlinks.faulty_iff story
  · intro ds' hsub hforeign
    exact firstTimePassRate_congr (fun _ => Iff.rfl) fun story hstory =>
      faulty_iff_of_foreign hsub hforeign hstory
  · intro ds' hsub
    exact Finset.card_le_card (passed_subset hsub)

/-- Four stories, one of them listed twice. -/
def fourStories : List String := ["S-1", "S-2", "S-2", "S-3", "S-4"]

def linkedDefect (number : String) (stories : List String) : Defect where
  issue := ⟨number, "A"⟩
  linkedStories := stories

/-- Two defects of one story; the second one is also linked to a story that is not completed. -/
def twoOfOneStory : List Defect :=
  [linkedDefect "D-1" ["S-1"], linkedDefect "D-2" ["S-1", "S-9"]]

theorem firstTimePassRate_counts_twoOfOneStory :
    fourStories ≠ [] ∧ firstTimePassRate fourStories twoOfOneStory = some 75 ∧
      (∀ story, story ∈ fourStories.reverse ↔ story ∈ fourStories) ∧
      SameLinks twoOfOneStory
        [linkedDefect "D-2" ["S-9", "S-1", "S-9"], linkedDefect "D-1" ["S-1"],
          linkedDefect "D-1" ["S-1"]] ∧
      firstTimePassRate fourStories.reverse
        [linkedDefect "D-2" ["S-9", "S-1", "S-9"], linkedDefect "D-1" ["S-1"],
          linkedDefect "D-1" ["S-1"]] = some 75 ∧
      firstTimePassRate fourStories (linkedDefect "D-3" ["S-9", "S-8"] :: twoOfOneStory) =
        some 75 ∧
      (passed fourStories twoOfOneStory).card = 3 ∧
      (passed fourStories (linkedDefect "D-4" ["S-2"] :: twoOfOneStory)).card ≤ 3 := by
  obtain ⟨-, hvalue, -, -, -, hrearranged, hforeign, hfewer⟩ :=
    firstTimePassRate_counts fourStories twoOfOneStory
  have hne : fourStories ≠ [] := by decide
  have hrate : firstTimePassRate fourStories twoOfOneStory = some 75 := by
    rw [hvalue hne]
    decide +kernel
  have hstories (story : String) : story ∈ fourStories.reverse ↔ story ∈ fourStories :=
    List.mem_reverse
  have hlinks : SameLinks twoOfOneStory
      [linkedDefect "D-2" ["S-9", "S-1", "S-9"], linkedDefect "D-1" ["S-1"],
        linkedDefect "D-1" ["S-1"]] := by
    simp [SameLinks, twoOfOneStory, linkedDefect]
  have hcard : (passed fourStories twoOfOneStory).card = 3 := by decide
  refine ⟨hne, hrate, hstories, hlinks, (hrearranged _ _ hstories hlinks).trans hrate, ?_, hcard,
    hcard ▸ hfewer _ (List.subset_cons_self _ _)⟩
  refine (hforeign _ (List.subset_cons_self _ _) ?_).trans hrate
  decide

end IssueFlow.Quality
