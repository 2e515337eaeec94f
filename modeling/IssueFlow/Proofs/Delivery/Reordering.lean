import IssueFlow.Proofs.Delivery.Overlap

/-!
# Velocity and the order of the selections

Places matter to velocity only where two selections of a project start at the same time: the one
that stands first then owns what both may claim. If the selections of each project start at
different times, the owner of a completion is the one with a claim that starts first, wherever it
stands (`owns_iff_first`). So a selection has the same velocity in every order of the list
(`velocity_reordered`).
-/

namespace IssueFlow.Delivery

open IssueFlow.Calendar IssueFlow.Tracker

/-- The selections of one project start at different times. -/
def StartsDiffer (selections : List SprintSelection) : Prop :=
  selections.Pairwise fun s s' => s.project = s'.project → s.window.start ≠ s'.window.start

instance (selections : List SprintSelection) : Decidable (StartsDiffer selections) :=
  inferInstanceAs (Decidable (List.Pairwise _ _))

section

variable {selections selections' : List SprintSelection} {cycles : CompletionCycles} {x : IssueRef}
  {t : Instant} {i j : Nat} {s s' : SprintSelection}

theorem StartsDiffer.perm (h : StartsDiffer selections) (hperm : selections.Perm selections') :
    StartsDiffer selections' := by
  refine (hperm.pairwise_iff fun {s s'} hne hproject hstart => ?_).1 h
  exact hne hproject.symm hstart.symm

theorem StartsDiffer.nodup (h : StartsDiffer selections) : selections.Nodup := by
  refine List.Pairwise.imp (fun {s s'} hne heq => ?_) h
  exact hne (heq ▸ rfl) (heq ▸ rfl)

/-- Selections of a project that start at the same time stand at the same place. -/
theorem StartsDiffer.place_eq (h : StartsDiffer selections) (hs : selections[i]? = some s)
    (hs' : selections[j]? = some s') (hproject : s.project = s'.project)
    (hstart : s.window.start = s'.window.start) : i = j := by
  obtain ⟨hi, rfl⟩ := List.getElem?_eq_some_iff.1 hs
  obtain ⟨hj, rfl⟩ := List.getElem?_eq_some_iff.1 hs'
  have hpairs := List.pairwise_iff_getElem.1 h
  rcases Nat.lt_trichotomy i j with hlt | heq | hlt
  · exact absurd hstart (hpairs i j hi hj hlt hproject)
  · exact heq
  · exact absurd hstart.symm (hpairs j i hj hi hlt hproject.symm)

/-! ## Owners -/

/-- Without a tie, the owner is the selection with a claim that starts no later than any other. -/
theorem owns_iff_first (h : StartsDiffer selections) (hs : selections[i]? = some s) :
    Owns selections x t i ↔ (Lists s x ∧ s.window.contains t = true) ∧
      ∀ s' ∈ selections, Lists s' x → s'.window.contains t = true →
        s.window.start ≤ s'.window.start := by
  constructor
  · rintro ⟨s₀, ⟨hs₀, hlists, ht⟩, hfirst⟩
    obtain rfl := Option.some.inj (hs₀.symm.trans hs)
    refine ⟨⟨hlists, ht⟩, fun s' hs' hlists' ht' => ?_⟩
    obtain ⟨j, hj⟩ := List.mem_iff_getElem?.1 hs'
    rcases hfirst j s' ⟨hj, hlists', ht'⟩ with hlt | ⟨heq, -⟩
    · exact Instant.le_of_lt hlt
    · exact heq ▸ Instant.le_refl _
  · rintro ⟨⟨hlists, ht⟩, hfirst⟩
    refine ⟨s, ⟨hs, hlists, ht⟩, ?_⟩
    rintro j s' ⟨hs', hlists', ht'⟩
    have hle := hfirst s' (List.mem_of_getElem? hs') hlists' ht'
    by_cases heq : s.window.start = s'.window.start
    · have hproject : s.project = s'.project := hlists.1.trans hlists'.1.symm
      exact .inr ⟨heq, Nat.le_of_eq (h.place_eq hs hs' hproject heq)⟩
    · have hne : s.window.start.rank ≠ s'.window.start.rank := fun hrank =>
        heq (Instant.rank_inj hrank)
      rw [Instant.le_def] at hle
      refine .inl ?_
      rw [Instant.lt_def]
      omega

theorem owns_congr (h : StartsDiffer selections) (hperm : selections.Perm selections')
    (hs : selections[i]? = some s) (hs' : selections'[j]? = some s) :
    Owns selections x t i ↔ Owns selections' x t j := by
  rw [owns_iff_first h hs, owns_iff_first (h.perm hperm) hs']
  simp only [hperm.mem_iff]

/-! ## Velocity -/

theorem rearranged_of_perm (hperm : selections.Perm selections') :
    Rearranged selections selections' := by
  refine ⟨selections', hperm, List.forall₂_same.2 fun s _ => ?_⟩
  exact ⟨rfl, rfl, rfl, .refl _⟩

theorem countedIssues_reordered (h : StartsDiffer selections)
    (hperm : selections.Perm selections') (hs : selections[i]? = some s)
    (hs' : selections'[j]? = some s) :
    (countedIssues selections cycles).getD i [] = (countedIssues selections' cycles).getD j [] := by
  rw [List.getD_eq_getElem?_getD, List.getD_eq_getElem?_getD, getElem?_countedIssues,
    getElem?_countedIssues, hs, hs', findDuplicates_rearranged (rearranged_of_perm hperm)]
  refine List.filter_congr fun x _ => ?_
  rw [Bool.eq_iff_iff, isCredited_iff, isCredited_iff, mem_owners_iff, mem_owners_iff]
  simp only [owns_congr h hperm hs hs']

theorem getElem?_velocity_reordered (points : Estimates) (h : StartsDiffer selections)
    (hperm : selections.Perm selections') (hplace : selections[i]? = selections'[j]?) :
    (velocity selections points cycles)[i]? = (velocity selections' points cycles)[j]? := by
  rw [getElem?_velocity, getElem?_velocity, ← hplace]
  cases hs : selections[i]? with
  | none => rw [Option.map_none, Option.map_none]
  | some s =>
    rw [hs] at hplace
    rw [Option.map_some, Option.map_some, countedIssues_reordered h hperm hs hplace.symm]

theorem length_velocity (selections : List SprintSelection) (points : Estimates)
    (cycles : CompletionCycles) :
    (velocity selections points cycles).length = selections.length := by
  simp [velocity, countedIssues]

theorem mem_zip_velocity_reordered {p : SprintSelection × SprintVelocity} (points : Estimates)
    (h : StartsDiffer selections) (hperm : selections.Perm selections')
    (hp : p ∈ selections.zip (velocity selections points cycles)) :
    p ∈ selections'.zip (velocity selections' points cycles) := by
  obtain ⟨i, hi⟩ := List.mem_iff_getElem?.1 hp
  obtain ⟨hs, hv⟩ := List.getElem?_zip_eq_some.1 hi
  obtain ⟨j, hj⟩ := List.mem_iff_getElem?.1 (hperm.mem_iff.1 (List.mem_of_getElem? hs))
  have hplace :
      (velocity selections points cycles)[i]? = (velocity selections' points cycles)[j]? :=
    getElem?_velocity_reordered points h hperm (hs.trans hj.symm)
  exact List.mem_of_getElem? (List.getElem?_zip_eq_some.2 ⟨hj, hplace ▸ hv⟩)

theorem StartsDiffer.nodup_zip (h : StartsDiffer selections) (points : Estimates)
    (cycles : CompletionCycles) :
    (selections.zip (velocity selections points cycles)).Nodup := by
  refine List.Nodup.of_map Prod.fst ?_
  rw [List.map_fst_zip (Nat.le_of_eq (length_velocity selections points cycles).symm)]
  exact h.nodup

end

theorem velocity_reordered {selections selections' : List SprintSelection} (points : Estimates)
    (cycles : CompletionCycles) (h : StartsDiffer selections)
    (hperm : selections.Perm selections') :
    (∀ i j : Nat, selections[i]? = selections'[j]? →
        (velocity selections points cycles)[i]? = (velocity selections' points cycles)[j]?) ∧
      (selections.zip (velocity selections points cycles)).Perm
        (selections'.zip (velocity selections' points cycles)) := by
  refine ⟨fun i j => getElem?_velocity_reordered points h hperm, ?_⟩
  rw [List.perm_ext_iff_of_nodup (h.nodup_zip points cycles)
    ((h.perm hperm).nodup_zip points cycles)]
  intro p
  constructor
  · exact mem_zip_velocity_reordered points h hperm
  · exact mem_zip_velocity_reordered points (h.perm hperm) hperm.symm

/-- The sprint that starts later loses the issue that both list, also where it stands first. -/
theorem velocity_reordered_overlapping :
    StartsDiffer overlapping ∧ overlapping.Perm overlapping.reverse ∧
      (velocity overlapping.reverse ∅ (completedOn 9)).map SprintVelocity.countedIssues = [0, 2] ∧
      (velocity overlapping ∅ (completedOn 9))[1]? =
        (velocity overlapping.reverse ∅ (completedOn 9))[0]? ∧
      (overlapping.zip (velocity overlapping ∅ (completedOn 9))).Perm
        (overlapping.reverse.zip (velocity overlapping.reverse ∅ (completedOn 9))) := by
  have hdiffer : StartsDiffer overlapping := by decide +kernel
  have hperm : overlapping.Perm overlapping.reverse := (List.reverse_perm overlapping).symm
  obtain ⟨hplaces, hpairs⟩ := velocity_reordered ∅ (completedOn 9) hdiffer hperm
  exact ⟨hdiffer, hperm, by decide +kernel, hplaces 1 0 rfl, hpairs⟩

end IssueFlow.Delivery
