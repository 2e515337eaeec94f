/-!
# First occurrences

`distinctOn key` keeps, of the elements with one key, the first.
-/

namespace IssueFlow.Order

variable {α κ : Type} [DecidableEq κ]

/-- The elements whose key no earlier element has, in order. -/
def distinctOn (key : α → κ) : List α → List α
  | [] => []
  | x :: xs => x :: (distinctOn key xs).filter fun y => key y ≠ key x

theorem mem_of_mem_distinctOn {key : α → κ} {xs : List α} {x : α}
    (h : x ∈ distinctOn key xs) : x ∈ xs := by
  induction xs with
  | nil => exact h
  | cons y ys ih =>
    rcases List.mem_cons.1 h with rfl | h
    · exact List.mem_cons_self
    · exact List.mem_cons_of_mem _ (ih (List.mem_filter.1 h).1)

theorem pairwise_distinctOn (key : α → κ) (xs : List α) :
    (distinctOn key xs).Pairwise fun x y => key x ≠ key y := by
  induction xs with
  | nil => exact .nil
  | cons x xs ih =>
    refine List.pairwise_cons.2 ⟨fun y hy => ?_, ih.filter _⟩
    exact Ne.symm (of_decide_eq_true (List.mem_filter.1 hy).2)

end IssueFlow.Order
