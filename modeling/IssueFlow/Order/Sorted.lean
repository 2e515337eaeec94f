/-!
# Stable sorting

Insertion sort by a Boolean order. It is stable: elements that the order cannot tell apart keep
their places relative to each other. `sortBy_perm` and `pairwise_sortBy` say that the result is an
ordered rearrangement of the list.
-/

namespace IssueFlow.Order

variable {α : Type}

/-- Puts an element in front of the first one that it may precede. -/
def insertBy (le : α → α → Bool) (a : α) : List α → List α
  | [] => [a]
  | b :: bs => if le a b then a :: b :: bs else b :: insertBy le a bs

/-- The list in ascending order. -/
def sortBy (le : α → α → Bool) (xs : List α) : List α :=
  xs.foldr (insertBy le) []

theorem insertBy_perm (le : α → α → Bool) (a : α) (xs : List α) :
    (insertBy le a xs).Perm (a :: xs) := by
  induction xs with
  | nil => exact .refl _
  | cons b bs ih =>
    simp only [insertBy]
    split
    · exact .refl _
    · exact (ih.cons b).trans (.swap a b bs)

theorem sortBy_perm (le : α → α → Bool) (xs : List α) : (sortBy le xs).Perm xs := by
  induction xs with
  | nil => exact .refl _
  | cons a xs ih => exact (insertBy_perm le a _).trans (ih.cons a)

theorem pairwise_insertBy {le : α → α → Bool}
    (trans : ∀ a b c, le a b = true → le b c = true → le a c = true)
    (total : ∀ a b, le a b = false → le b a = true) (a : α) {xs : List α}
    (h : xs.Pairwise fun x y => le x y = true) :
    (insertBy le a xs).Pairwise fun x y => le x y = true := by
  induction xs with
  | nil => simp [insertBy]
  | cons b bs ih =>
    obtain ⟨hb, hbs⟩ := List.pairwise_cons.1 h
    simp only [insertBy]
    split
    · next hab =>
      refine List.pairwise_cons.2 ⟨fun x hx => ?_, h⟩
      rcases List.mem_cons.1 hx with rfl | hx
      · exact hab
      · exact trans _ _ _ hab (hb x hx)
    · next hab =>
      refine List.pairwise_cons.2 ⟨fun x hx => ?_, ih hbs⟩
      rcases List.mem_cons.1 ((insertBy_perm le a bs).mem_iff.1 hx) with rfl | hx
      · exact total _ _ (by simpa using hab)
      · exact hb x hx

theorem pairwise_sortBy {le : α → α → Bool}
    (trans : ∀ a b c, le a b = true → le b c = true → le a c = true)
    (total : ∀ a b, le a b = false → le b a = true) (xs : List α) :
    (sortBy le xs).Pairwise fun x y => le x y = true := by
  induction xs with
  | nil => exact .nil
  | cons a xs ih => exact pairwise_insertBy trans total a ih

end IssueFlow.Order
