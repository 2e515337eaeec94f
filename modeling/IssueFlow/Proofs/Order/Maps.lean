import Mathlib.Data.Finset.Card
import Mathlib.Data.List.Perm.Basic
import Std.Data.ExtTreeMap
import Std.Data.ExtTreeSet

/-!
# Ordered maps and sets as lists

A map or set in the order of its keys against the list of its entries: the list has no repeats
(`nodup_toList`, so `size_eq_card`), a list in order is the list of the map made of it
(`toList_ofList_of_pairwise`), a map or set is made again of its list (`ofList_toList`,
`setOfList_toList`), and a map that goes through its list with other values is read entry by entry
(`getElem?_ofList_filterMap`).
-/

namespace IssueFlow.Order

variable {κ β γ : Type} [Ord κ] [Std.TransOrd κ] [Std.LawfulEqOrd κ]

theorem nodup_toList (s : Std.ExtTreeSet κ) : s.toList.Nodup := by
  refine Std.ExtTreeSet.distinct_toList.imp fun {a b} hne heq => ?_
  exact hne (heq ▸ Std.ReflCmp.compare_self)

/-- The size of a set is the number of its members. -/
theorem size_eq_card {s : Std.ExtTreeSet κ} {t : Finset κ} (h : ∀ k, k ∈ s ↔ k ∈ t) :
    s.size = t.card := by
  have ht : t = ⟨s.toList, Multiset.coe_nodup.2 (nodup_toList s)⟩ := by
    ext k
    rw [← h, Finset.mem_mk, Multiset.mem_coe, Std.ExtTreeSet.mem_toList]
  rw [ht, Finset.card_mk, Multiset.coe_card, Std.ExtTreeSet.length_toList]

/-- A map made of entries in the order of their keys lists them as they are. -/
theorem toList_ofList_of_pairwise [BEq κ] [Std.LawfulBEqOrd κ] {l : List (κ × β)}
    (h : l.Pairwise fun p q => compare p.1 q.1 = .lt) : (Std.ExtTreeMap.ofList l).toList = l := by
  have hdistinct : l.Pairwise fun p q => ¬ compare p.1 q.1 = .eq :=
    h.imp fun {p q} hlt heq => by rw [hlt] at heq; cases heq
  have hentry {p : κ × β} (hp : p ∈ l) : (Std.ExtTreeMap.ofList l)[p.1]? = some p.2 :=
    Std.ExtTreeMap.getElem?_ofList_of_mem Std.ReflCmp.compare_self hdistinct hp
  have hmem (p : κ × β) : p ∈ (Std.ExtTreeMap.ofList l).toList ↔ p ∈ l := by
    rw [Std.ExtTreeMap.mem_toList_iff_getElem?_eq_some]
    refine ⟨fun hp => ?_, hentry⟩
    have hkey : p.1 ∈ Std.ExtTreeMap.ofList l :=
      Std.ExtTreeMap.mem_iff_isSome_getElem?.2 (by rw [hp]; rfl)
    rw [Std.ExtTreeMap.mem_ofList, List.contains_iff_mem] at hkey
    obtain ⟨q, hq, hqp⟩ := List.mem_map.1 hkey
    have hvalue : p.2 = q.2 := Option.some.inj (hp.symm.trans (hqp ▸ hentry hq))
    exact Prod.ext hqp.symm hvalue ▸ hq
  have hnodup {m : List (κ × β)} (hm : m.Pairwise fun p q => compare p.1 q.1 = .lt) : m.Nodup := by
    refine hm.imp fun {p q} hlt heq => ?_
    have hself : compare p.1 p.1 = .eq := Std.ReflCmp.compare_self
    rw [← heq, hself] at hlt
    cases hlt
  refine List.Perm.eq_of_pairwise (fun p q _ _ hpq hqp => ?_)
    Std.ExtTreeMap.ordered_keys_toList h ?_
  · exact absurd hqp (Std.OrientedCmp.not_lt_of_lt hpq)
  · exact (List.perm_ext_iff_of_nodup (hnodup Std.ExtTreeMap.ordered_keys_toList) (hnodup h)).2 hmem

theorem ofList_toList [BEq κ] [Std.LawfulBEqOrd κ] (m : Std.ExtTreeMap κ β) :
    Std.ExtTreeMap.ofList m.toList = m :=
  Std.ExtTreeMap.toList_inj.1 (toList_ofList_of_pairwise Std.ExtTreeMap.ordered_keys_toList)

theorem setOfList_toList [BEq κ] [Std.LawfulBEqOrd κ] [LawfulBEq κ] (s : Std.ExtTreeSet κ) :
    Std.ExtTreeSet.ofList s.toList = s := by
  refine Std.ExtTreeSet.ext_mem fun k => ?_
  rw [Std.ExtTreeSet.mem_ofList, List.contains_iff_mem, Std.ExtTreeSet.mem_toList]

/-- A map written as a list and read back after a change of its values. -/
theorem getElem?_ofList_filterMap [BEq κ] [Std.LawfulBEqOrd κ] (m : Std.ExtTreeMap κ β)
    (f : β → Option γ) (k : κ) :
    (Std.ExtTreeMap.ofList (m.toList.filterMap fun p => (f p.2).map fun v => (p.1, v)))[k]? =
      m[k]?.bind f := by
  have hdistinct : (m.toList.filterMap fun p => (f p.2).map fun v => (p.1, v)).Pairwise
      fun p q => ¬ compare p.1 q.1 = .eq := by
    rw [List.pairwise_filterMap]
    refine Std.ExtTreeMap.distinct_keys_toList.imp fun {p q} hpq v hv w hw => ?_
    obtain ⟨_, -, rfl⟩ := Option.map_eq_some_iff.1 hv
    obtain ⟨_, -, rfl⟩ := Option.map_eq_some_iff.1 hw
    exact hpq
  cases hk : m[k]?.bind f with
  | some v =>
    obtain ⟨u, hu, hv⟩ := Option.bind_eq_some_iff.1 hk
    refine Std.ExtTreeMap.getElem?_ofList_of_mem Std.ReflCmp.compare_self hdistinct ?_
    exact List.mem_filterMap.2 ⟨(k, u), Std.ExtTreeMap.mem_toList_iff_getElem?_eq_some.2 hu,
      Option.map_eq_some_iff.2 ⟨v, hv, rfl⟩⟩
  | none =>
    refine Std.ExtTreeMap.getElem?_ofList_of_contains_eq_false (Bool.eq_false_iff.2 fun hmem => ?_)
    obtain ⟨⟨k', w⟩, hw, rfl⟩ := List.mem_map.1 (List.contains_iff_mem.1 hmem)
    obtain ⟨⟨k'', u⟩, hu, hv⟩ := List.mem_filterMap.1 hw
    obtain ⟨v, hv, heq⟩ := Option.map_eq_some_iff.1 hv
    cases heq
    rw [Std.ExtTreeMap.mem_toList_iff_getElem?_eq_some.1 hu, Option.bind_some, hv] at hk
    cases hk

/-- Searching the list of a map for a key finds the first one, in order, that passes the test. -/
theorem find?_toList_eq_some_iff {m : Std.ExtTreeMap κ β} {p : κ → Bool} {k : κ} {v : β} :
    m.toList.find? (fun entry => p entry.1) = some (k, v) ↔
      m[k]? = some v ∧ p k = true ∧ ∀ k' ∈ m, compare k' k = .lt → p k' = false := by
  have hordered := Std.ExtTreeMap.ordered_keys_toList (t := m)
  rw [← Std.ExtTreeMap.mem_toList_iff_getElem?_eq_some, List.find?_eq_some_iff_append]
  refine ⟨?_, fun ⟨hmem, hp, hfirst⟩ => ?_⟩
  · rintro ⟨hp, before, after, hlist, hbefore⟩
    rw [hlist]
    refine ⟨by simp, hp, fun k' hk' hlt => ?_⟩
    obtain ⟨v', hv'⟩ := Option.isSome_iff_exists.1 (Std.ExtTreeMap.mem_iff_isSome_getElem?.1 hk')
    rw [← Std.ExtTreeMap.mem_toList_iff_getElem?_eq_some, hlist, List.mem_append,
      List.mem_cons] at hv'
    rw [hlist] at hordered
    rcases hv' with hv' | hv' | hv'
    · simpa using hbefore _ hv'
    · cases hv'
      have hself : compare k k = .eq := Std.ReflCmp.compare_self
      rw [hself] at hlt
      cases hlt
    · have hafter := (List.pairwise_cons.1 (List.pairwise_append.1 hordered).2.1).1 _ hv'
      exact absurd hlt (Std.OrientedCmp.not_lt_of_lt hafter)
  · obtain ⟨before, after, hlist⟩ := List.append_of_mem hmem
    refine ⟨hp, before, after, hlist, fun entry hentry => ?_⟩
    rw [hlist] at hordered
    have hlt := (List.pairwise_append.1 hordered).2.2 entry hentry (k, v) List.mem_cons_self
    have hkey : entry.1 ∈ m := by
      rw [← Std.ExtTreeMap.mem_keys, ← Std.ExtTreeMap.map_fst_toList_eq_keys, hlist]
      exact List.mem_map_of_mem (List.mem_append_left _ hentry)
    simp [hfirst entry.1 hkey hlt]

/-- What is stored for a key stays if the other keys are left out. -/
theorem getElem?_filter_key [DecidableEq κ] {m : Std.ExtTreeMap κ β} {k : κ} :
    (m.filter fun k' _ => k' = k)[k]? = m[k]? := by
  rw [Std.ExtTreeMap.getElem?_filter']
  cases m[k]? <;> simp

end IssueFlow.Order
