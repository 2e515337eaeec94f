import IssueFlow.Order.Distinct
import IssueFlow.Order.Sorted
import Mathlib.Data.List.Forall2

/-!
# Selections from ordered lists

What is left of an ordered list: a prefix cut by a test (`mem_takeWhile_iff`), the elements up to a
bound (`takeWhile_eq_filter`), the part that one element gives (`filter_flatMap_of_mem`), the parts
between consecutive bounds (`flatMap_filter_eq_self`), the elements that pass a test before or after
sorting (`filter_sortBy`), and the first element with each key (`mem_distinctOn_iff`), also of a
list in two parts (`distinctOn_append`).
-/

namespace IssueFlow.Order

variable {α κ : Type}

/-- In a strictly ascending list, the prefix cut by a test holds the elements up to which all
elements pass. -/
theorem mem_takeWhile_iff {rank : α → Int} {p : α → Bool} {xs : List α} {x : α}
    (h : xs.Pairwise fun y z => rank y < rank z) :
    x ∈ xs.takeWhile p ↔ x ∈ xs ∧ ∀ y ∈ xs, rank y ≤ rank x → p y = true := by
  induction xs with
  | nil => simp
  | cons z zs ih =>
    obtain ⟨hz, hzs⟩ := List.pairwise_cons.1 h
    cases hp : p z with
    | false =>
      rw [List.takeWhile_cons_of_neg (by simp [hp])]
      refine ⟨fun hx => absurd hx List.not_mem_nil, fun ⟨hx, hall⟩ => ?_⟩
      have hle : rank z ≤ rank x := by
        rcases List.mem_cons.1 hx with rfl | hx
        · exact Int.le_refl _
        · exact Int.le_of_lt (hz x hx)
      rw [hall z List.mem_cons_self hle] at hp
      cases hp
    | true =>
      rw [List.takeWhile_cons_of_pos hp, List.mem_cons, ih hzs, List.mem_cons]
      constructor
      · rintro (rfl | ⟨hx, hall⟩)
        · refine ⟨.inl rfl, fun y hy hle => ?_⟩
          rcases List.mem_cons.1 hy with rfl | hy
          · exact hp
          · have := hz y hy
            omega
        · refine ⟨.inr hx, fun y hy hle => ?_⟩
          rcases List.mem_cons.1 hy with rfl | hy
          · exact hp
          · exact hall y hy hle
      · rintro ⟨rfl | hx, hall⟩
        · exact .inl rfl
        · exact .inr ⟨hx, fun y hy => hall y (List.mem_cons_of_mem _ hy)⟩

/-- In an ascending list, the elements up to a bound are a prefix. -/
theorem takeWhile_eq_filter {rank : α → Int} {xs : List α} (bound : Int)
    (h : xs.Pairwise fun y z => rank y ≤ rank z) :
    (xs.takeWhile fun x => rank x ≤ bound) = xs.filter fun x => rank x ≤ bound := by
  induction xs with
  | nil => rfl
  | cons z zs ih =>
    obtain ⟨hz, hzs⟩ := List.pairwise_cons.1 h
    by_cases hle : rank z ≤ bound
    · rw [List.takeWhile_cons_of_pos (by simpa using hle),
        List.filter_cons_of_pos (by simpa using hle), ih hzs]
    · rw [List.takeWhile_cons_of_neg (by simpa using hle),
        List.filter_cons_of_neg (by simpa using hle), eq_comm, List.filter_eq_nil_iff]
      intro x hx
      have := hz x hx
      simp only [decide_eq_true_eq]
      omega

/-- What passes of a gathering comes from one element if nothing else gives what passes. -/
theorem filter_flatMap_of_mem {β : Type} {xs : List α} {f : α → List β} {p : β → Bool} {a : α}
    (hnodup : xs.Nodup) (ha : a ∈ xs) (hother : ∀ b ∈ xs, b ≠ a → ∀ y ∈ f b, p y = false) :
    (xs.flatMap f).filter p = (f a).filter p := by
  obtain ⟨before, after, rfl⟩ := List.append_of_mem ha
  have hnone : ∀ bs : List α, (∀ b ∈ bs, b ∈ before ++ a :: after ∧ b ≠ a) →
      (bs.flatMap f).filter p = [] := by
    intro bs hbs
    rw [List.filter_eq_nil_iff]
    intro y hy
    obtain ⟨b, hb, hyb⟩ := List.mem_flatMap.1 hy
    rw [hother b (hbs b hb).1 (hbs b hb).2 y hyb]
    exact Bool.false_ne_true
  obtain ⟨-, hafter, hbefore⟩ := List.nodup_append.1 hnodup
  rw [List.flatMap_append, List.flatMap_cons, List.filter_append, List.filter_append,
    hnone before fun b hb => ⟨List.mem_append_left _ hb, hbefore b hb a List.mem_cons_self⟩,
    hnone after fun b hb => ⟨List.mem_append_right _ (List.mem_cons_of_mem a hb), ?_⟩,
    List.nil_append, List.append_nil]
  rintro rfl
  exact (List.nodup_cons.1 hafter).1 hb

/-- The last element that passes a test: no later one does. -/
theorem getLast?_filter_eq_some_iff {p : α → Bool} {xs : List α} {x : α} :
    (xs.filter p).getLast? = some x ↔
      ∃ before after, xs = before ++ x :: after ∧ p x = true ∧ ∀ y ∈ after, p y = false := by
  constructor
  · intro h
    obtain ⟨_, hlast⟩ := List.getLast?_eq_some_iff.1 h
    obtain ⟨front, back, rfl, -, hback⟩ := List.filter_eq_append_iff.1 hlast
    obtain ⟨middle, after, rfl, -, hx, hafter⟩ := List.filter_eq_cons_iff.1 hback
    refine ⟨front ++ middle, after, (List.append_assoc ..).symm, hx, fun y hy => ?_⟩
    exact Bool.eq_false_iff.2 (List.filter_eq_nil_iff.1 hafter y hy)
  · rintro ⟨before, after, rfl, hx, hafter⟩
    have hnone : after.filter p = [] :=
      List.filter_eq_nil_iff.2 fun y hy => Bool.eq_false_iff.1 (hafter y hy)
    rw [List.filter_append, List.filter_cons_of_pos hx, hnone, List.getLast?_concat]

/-- What a partial function gives, beside the elements for which it gives something. -/
theorem forall₂_filterMap {β : Type} (f : α → Option β) (xs : List α) :
    List.Forall₂ (fun x y => f x = some y) (xs.filter fun x => (f x).isSome)
      (xs.filterMap f) := by
  induction xs with
  | nil => exact .nil
  | cons x xs ih =>
    cases hx : f x with
    | none =>
      rw [List.filterMap_cons_none hx, List.filter_cons_of_neg (by simp [hx])]
      exact ih
    | some y =>
      rw [List.filterMap_cons_some hx, List.filter_cons_of_pos (by simp [hx])]
      exact .cons hx ih

/-- If nothing passes a test behind something that does not, what passes comes first. -/
theorem filter_append_filter_not {p : α → Bool} {xs : List α}
    (h : xs.Pairwise fun x y => p y = true → p x = true) :
    xs.filter p ++ xs.filter (fun x => !p x) = xs := by
  induction xs with
  | nil => rfl
  | cons x xs ih =>
    obtain ⟨hx, hxs⟩ := List.pairwise_cons.1 h
    cases hp : p x with
    | true =>
      rw [List.filter_cons_of_pos hp, List.filter_cons_of_neg (by simp [hp]), List.cons_append,
        ih hxs]
    | false =>
      have hnone : ∀ y ∈ xs, p y = false := by
        intro y hy
        cases hpy : p y with
        | true => rw [hx y hy hpy] at hp; cases hp
        | false => rfl
      rw [List.filter_cons_of_neg (by simp [hp]), List.filter_cons_of_pos (by simp [hp]),
        List.filter_eq_nil_iff.2 fun y hy => by simp [hnone y hy],
        List.filter_eq_self.2 fun y hy => by simp [hnone y hy], List.nil_append]

/-- Tests that split a line into consecutive stretches cut an ascending list into parts. -/
theorem flatMap_filter_eq_self {β : Type} {rank : α → Int} {p : β → α → Bool} {ws : List β}
    {xs : List α}
    (hws : ws.Pairwise fun v w => ∀ x y, p v x = true → p w y = true → rank x < rank y)
    (hxs : xs.Pairwise fun x y => rank x ≤ rank y) (hcover : ∀ x ∈ xs, ∃ w ∈ ws, p w x = true) :
    (ws.flatMap fun w => xs.filter (p w)) = xs := by
  induction ws generalizing xs with
  | nil =>
    refine (List.eq_nil_iff_forall_not_mem.2 fun x hx => ?_).symm
    obtain ⟨w, hw, -⟩ := hcover x hx
    cases hw
  | cons w ws ih =>
    obtain ⟨hw, hws⟩ := List.pairwise_cons.1 hws
    -- What lies in a later stretch is ranked above the first one, so it is in the rest.
    have hlater : ∀ v ∈ ws, ∀ x, p v x = true → p w x = false := by
      intro v hv x hx
      by_contra hwx
      have hlt := hw v hv x x (by simpa using hwx) hx
      omega
    have hparts : (ws.flatMap fun v => xs.filter (p v)) =
        ws.flatMap fun v => (xs.filter fun x => !p w x).filter (p v) := by
      refine List.flatMap_congr fun v hv => ?_
      rw [List.filter_filter]
      refine List.filter_congr fun x _ => ?_
      cases hx : p v x with
      | true => simp [hlater v hv x hx]
      | false => rfl
    have hrest : ∀ x ∈ xs.filter fun x => !p w x, ∃ v ∈ ws, p v x = true := by
      intro x hx
      obtain ⟨hmem, hnot⟩ := List.mem_filter.1 hx
      obtain ⟨v, hv, hvx⟩ := hcover x hmem
      rcases List.mem_cons.1 hv with rfl | hv
      · rw [hvx] at hnot
        cases hnot
      · exact ⟨v, hv, hvx⟩
    rw [List.flatMap_cons, hparts, ih hws (hxs.filter _) hrest]
    apply filter_append_filter_not
    refine hxs.imp_of_mem fun {x y} hx _ hxy hy => ?_
    obtain ⟨v, hv, hvx⟩ := hcover x hx
    rcases List.mem_cons.1 hv with rfl | hv
    · exact hvx
    · have hlt := hw v hv y x hy hvx
      omega

/-! ## Sorting -/

theorem insertBy_eq_cons {le : α → α → Bool} {a : α} {xs : List α}
    (h : ∀ x ∈ xs, le a x = true) : insertBy le a xs = a :: xs := by
  cases xs with
  | nil => rfl
  | cons b bs => rw [insertBy, if_pos (h b List.mem_cons_self)]

theorem insertBy_append {le : α → α → Bool} {a : α} {xs ys : List α}
    (h : ∀ y ∈ ys, le a y = true) : insertBy le a (xs ++ ys) = insertBy le a xs ++ ys := by
  induction xs with
  | nil => exact insertBy_eq_cons h
  | cons b bs ih =>
    rw [List.cons_append, insertBy, insertBy, ih]
    split <;> rfl

/-- What comes no earlier than the rest is sorted by itself. -/
theorem sortBy_append {le : α → α → Bool} {xs ys : List α}
    (h : ∀ x ∈ xs, ∀ y ∈ ys, le x y = true) :
    sortBy le (xs ++ ys) = sortBy le xs ++ sortBy le ys := by
  induction xs with
  | nil => rfl
  | cons x xs ih =>
    obtain ⟨hx, hxs⟩ := List.forall_mem_cons.1 h
    show insertBy le x (sortBy le (xs ++ ys)) = insertBy le x (sortBy le xs) ++ sortBy le ys
    rw [ih hxs, insertBy_append fun y hy => hx y ((sortBy_perm le ys).mem_iff.1 hy)]

theorem map_insertBy {β : Type} {le : α → α → Bool} {le' : β → β → Bool} {f : α → β}
    (h : ∀ a b, le' (f a) (f b) = le a b) (a : α) (xs : List α) :
    (insertBy le a xs).map f = insertBy le' (f a) (xs.map f) := by
  induction xs with
  | nil => rfl
  | cons b bs ih =>
    rw [List.map_cons, insertBy, insertBy, h]
    split
    · rfl
    · rw [List.map_cons, ih]

/-- What the order does not look at may be left out before or after sorting. -/
theorem map_sortBy {β : Type} {le : α → α → Bool} (le' : β → β → Bool) {f : α → β}
    (h : ∀ a b, le' (f a) (f b) = le a b) (xs : List α) :
    (sortBy le xs).map f = sortBy le' (xs.map f) := by
  induction xs with
  | nil => rfl
  | cons a xs ih =>
    show (insertBy le a (sortBy le xs)).map f = insertBy le' (f a) (sortBy le' (xs.map f))
    rw [map_insertBy h, ih]

theorem pairwise_insertBy_stable {le : α → α → Bool} {r : α → α → Prop}
    (trans : ∀ a b c, le a b = true → le b c = true → le a c = true)
    (total : ∀ a b, le a b = false → le b a = true) {a : α} {xs : List α}
    (ha : ∀ x ∈ xs, r a x)
    (h : xs.Pairwise fun x y => le x y = true ∧ (le y x = true → r x y)) :
    (insertBy le a xs).Pairwise fun x y => le x y = true ∧ (le y x = true → r x y) := by
  induction xs with
  | nil => exact List.pairwise_singleton _ a
  | cons b bs ih =>
    obtain ⟨hb, hbs⟩ := List.pairwise_cons.1 h
    obtain ⟨hab, hrest⟩ := List.forall_mem_cons.1 ha
    cases hle : le a b with
    | true =>
      rw [insertBy, if_pos hle]
      refine List.pairwise_cons.2 ⟨fun x hx => ⟨?_, fun _ => ha x hx⟩, h⟩
      rcases List.mem_cons.1 hx with rfl | hx
      · exact hle
      · exact trans _ _ _ hle (hb x hx).1
    | false =>
      rw [insertBy, if_neg (by simp [hle])]
      refine List.pairwise_cons.2 ⟨fun x hx => ?_, ih hrest hbs⟩
      rcases List.mem_cons.1 ((insertBy_perm le a bs).mem_iff.1 hx) with rfl | hx
      · exact ⟨total _ _ hle, fun hback => absurd hback (by simp [hle])⟩
      · exact hb x hx

/-- Sorting is stable: what the order cannot tell apart stays related as it was. -/
theorem pairwise_sortBy_stable (le : α → α → Bool) {r : α → α → Prop}
    (trans : ∀ a b c, le a b = true → le b c = true → le a c = true)
    (total : ∀ a b, le a b = false → le b a = true) {xs : List α} (h : xs.Pairwise r) :
    (sortBy le xs).Pairwise fun x y => le x y = true ∧ (le y x = true → r x y) := by
  induction xs with
  | nil => exact .nil
  | cons a xs ih =>
    obtain ⟨ha, hxs⟩ := List.pairwise_cons.1 h
    exact pairwise_insertBy_stable trans total
      (fun x hx => ha x ((sortBy_perm le xs).mem_iff.1 hx)) (ih hxs)

theorem pairwise_zipIdx (xs : List α) : xs.zipIdx.Pairwise fun x y => x.2 < y.2 := by
  rw [← List.pairwise_map (f := Prod.snd), List.zipIdx_map_snd]
  exact List.pairwise_lt_range'

theorem filter_insertBy {le : α → α → Bool}
    (trans : ∀ a b c, le a b = true → le b c = true → le a c = true) (p : α → Bool) (a : α)
    {xs : List α} (h : xs.Pairwise fun x y => le x y = true) :
    (insertBy le a xs).filter p =
      if p a then insertBy le a (xs.filter p) else xs.filter p := by
  induction xs with
  | nil => cases hp : p a <;> simp [insertBy, hp]
  | cons b bs ih =>
    obtain ⟨hb, hbs⟩ := List.pairwise_cons.1 h
    cases hab : le a b with
    | true =>
      have hle : ∀ x ∈ (b :: bs).filter p, le a x = true := fun x hx => by
        rcases List.mem_cons.1 (List.mem_filter.1 hx).1 with rfl | hx
        · exact hab
        · exact trans _ _ _ hab (hb x hx)
      rw [insertBy_eq_cons hle, insertBy, if_pos hab, List.filter_cons]
    | false =>
      have step (ys : List α) : insertBy le a (b :: ys) = b :: insertBy le a ys := by
        rw [insertBy, if_neg (by simp [hab])]
      rw [step]
      cases hp : p b with
      | true =>
        rw [List.filter_cons_of_pos hp, List.filter_cons_of_pos hp, ih hbs, step]
        split <;> rfl
      | false =>
        rw [List.filter_cons_of_neg (by simp [hp]), List.filter_cons_of_neg (by simp [hp]), ih hbs]

/-- Sorting is stable: what passes a test comes out in the order in which it would alone. -/
theorem filter_sortBy {le : α → α → Bool}
    (trans : ∀ a b c, le a b = true → le b c = true → le a c = true)
    (total : ∀ a b, le a b = false → le b a = true) (p : α → Bool) (xs : List α) :
    (sortBy le xs).filter p = sortBy le (xs.filter p) := by
  induction xs with
  | nil => rfl
  | cons a xs ih =>
    have hs : sortBy le (a :: xs) = insertBy le a (sortBy le xs) := rfl
    rw [hs, filter_insertBy trans p a (pairwise_sortBy trans total xs), ih, List.filter_cons]
    split <;> rfl

/-! ## First occurrences -/

/-- Elements with different keys, filtered for one key, come out in no other order. -/
theorem filter_eq_of_perm {key : α → κ} {xs ys : List α} (h : xs.Perm ys)
    (hxs : xs.Pairwise fun x y => key x ≠ key y) {p : α → Bool}
    (hp : ∀ x y, p x = true → p y = true → key x = key y) : xs.filter p = ys.filter p := by
  have hperm := h.filter p
  have hdistinct := hxs.filter p
  have hpass : ∀ x ∈ xs.filter p, p x = true := fun x hx => (List.mem_filter.1 hx).2
  revert hperm hdistinct hpass
  cases xs.filter p with
  | nil => exact fun hperm _ _ => (List.nil_perm.1 hperm).symm
  | cons x rest =>
    cases rest with
    | nil => exact fun hperm _ _ => List.singleton_perm.1 hperm
    | cons y rest =>
      intro _ hdistinct hpass
      have hy : y ∈ y :: rest := List.mem_cons_self
      exact absurd (hp x y (hpass x List.mem_cons_self) (hpass y (List.mem_cons_of_mem x hy)))
        ((List.pairwise_cons.1 hdistinct).1 y hy)

variable [DecidableEq κ]

/-- The elements that are kept are the first ones with their keys. -/
theorem mem_distinctOn_iff {key : α → κ} {xs : List α} {x : α} :
    x ∈ distinctOn key xs ↔ xs.find? (fun y => key y = key x) = some x := by
  induction xs with
  | nil => simp [distinctOn]
  | cons y ys ih =>
    rw [distinctOn, List.mem_cons, List.mem_filter, ih]
    by_cases hk : key y = key x
    · rw [List.find?_cons_of_pos (by simpa using hk), Option.some.injEq]
      refine ⟨fun h => ?_, fun h => .inl h.symm⟩
      rcases h with rfl | ⟨-, h⟩
      · rfl
      · exact absurd hk.symm (of_decide_eq_true h)
    · rw [List.find?_cons_of_neg (by simpa using hk)]
      refine ⟨fun h => ?_, fun h => .inr ⟨h, decide_eq_true (Ne.symm hk)⟩⟩
      rcases h with rfl | ⟨h, -⟩
      · exact absurd rfl hk
      · exact h

/-- A list keeps its elements when its repeats are left out. -/
theorem mem_distinctOn_id [DecidableEq α] {xs : List α} {x : α} :
    x ∈ distinctOn id xs ↔ x ∈ xs := by
  refine ⟨mem_of_mem_distinctOn, fun h => ?_⟩
  induction xs with
  | nil => exact h
  | cons y ys ih =>
    rw [distinctOn, List.mem_cons, List.mem_filter]
    by_cases hxy : x = y
    · exact .inl hxy
    · exact .inr ⟨ih (List.mem_of_ne_of_mem hxy h), decide_eq_true hxy⟩

/-- Lists that agree in keys, element by element, are thinned out at the same places. -/
theorem forall₂_distinctOn {r : α → α → Prop} {key : α → κ} (hkey : ∀ x y, r x y → key x = key y)
    {xs ys : List α} (h : List.Forall₂ r xs ys) :
    List.Forall₂ r (distinctOn key xs) (distinctOn key ys) := by
  induction h with
  | nil => exact .nil
  | @cons x y xs ys hxy h ih =>
    refine .cons hxy (List.rel_filter (fun z w hzw => ?_) ih)
    simp only [decide_eq_true_eq, hkey x y hxy, hkey z w hzw]

theorem distinctOn_eq_self {key : α → κ} {xs : List α}
    (h : xs.Pairwise fun x y => key x ≠ key y) : distinctOn key xs = xs := by
  induction xs with
  | nil => rfl
  | cons x xs ih =>
    obtain ⟨hx, hxs⟩ := List.pairwise_cons.1 h
    rw [distinctOn, ih hxs, List.filter_eq_self.2 fun y hy => decide_eq_true (hx y hy).symm]

/-- What a second list adds to a first one: its own first elements, less the keys of the first. -/
theorem distinctOn_append (key : α → κ) (xs ys : List α) :
    distinctOn key (xs ++ ys) =
      distinctOn key xs ++ (distinctOn key ys).filter fun y => key y ∉ xs.map key := by
  induction xs with
  | nil => simp [distinctOn]
  | cons x xs ih =>
    rw [List.cons_append, distinctOn, ih, List.filter_append, List.filter_filter, distinctOn,
      List.cons_append]
    simp only [List.map_cons, List.mem_cons, not_or, Bool.decide_and]

theorem distinctOn_append_of_forall_ne {key : α → κ} {xs ys : List α}
    (h : ∀ x ∈ xs, ∀ y ∈ ys, key x ≠ key y) :
    distinctOn key (xs ++ ys) = distinctOn key xs ++ distinctOn key ys := by
  rw [distinctOn_append, List.filter_eq_self.2]
  intro y hy
  refine decide_eq_true fun hmem => ?_
  obtain ⟨x, hx, hxy⟩ := List.mem_map.1 hmem
  exact h x hx y (mem_of_mem_distinctOn hy) hxy

/-- Whether elements are left out by key before or after the selection is the same. -/
theorem distinctOn_filter {key : α → κ} {p : α → Bool} (hp : ∀ x y, key x = key y → p x = p y)
    (xs : List α) : distinctOn key (xs.filter p) = (distinctOn key xs).filter p := by
  induction xs with
  | nil => rfl
  | cons x xs ih =>
    rw [distinctOn]
    cases hx : p x with
    | true =>
      rw [List.filter_cons_of_pos hx, List.filter_cons_of_pos hx, distinctOn, ih, List.filter_comm]
    | false =>
      rw [List.filter_cons_of_neg (by simp [hx]), List.filter_cons_of_neg (by simp [hx]), ih,
        List.filter_filter]
      refine List.filter_congr fun y _ => ?_
      by_cases hy : key y = key x
      · simp [hp y x hy, hx]
      · simp [hy]

variable [DecidableEq α] {xs ys : List α}

theorem nodup_distinctOn_id : (distinctOn id xs).Nodup :=
  pairwise_distinctOn id xs

/-- Elements that are new and no repeats stay as they are behind a list without its repeats. -/
theorem distinctOn_id_append_of_notMem (hys : ys.Nodup) (h : ∀ y ∈ ys, y ∉ xs) :
    distinctOn id (xs ++ ys) = distinctOn id xs ++ ys := by
  have hne : ∀ x ∈ xs, ∀ y ∈ ys, id x ≠ id y := by
    rintro x hx y hy rfl
    exact h x hy hx
  have hself : distinctOn id ys = ys := distinctOn_eq_self hys
  rw [distinctOn_append_of_forall_ne hne, hself]

/-- Leaving the repeats out of two lists beforehand makes no difference for both together. -/
theorem distinctOn_id_append_distinctOn :
    distinctOn id (distinctOn id xs ++ distinctOn id ys) = distinctOn id (xs ++ ys) := by
  rw [distinctOn_append, distinctOn_append, distinctOn_eq_self (pairwise_distinctOn id xs),
    distinctOn_eq_self (pairwise_distinctOn id ys)]
  simp only [List.map_id, id_eq, mem_distinctOn_id]

theorem perm_distinctOn_id (h : xs.Perm ys) : (distinctOn id xs).Perm (distinctOn id ys) := by
  rw [List.perm_ext_iff_of_nodup nodup_distinctOn_id nodup_distinctOn_id]
  intro x
  rw [mem_distinctOn_id, mem_distinctOn_id, h.mem_iff]

end IssueFlow.Order
