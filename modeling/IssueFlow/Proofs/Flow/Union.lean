import IssueFlow.Proofs.Flow.Index
import IssueFlow.Proofs.Order.Maps
import Mathlib.Data.Finset.Prod

/-!
# Indices as sets of placements

A tidy index stands for a finite set of placements (`FlowIndex.Represents`): to insert is to add
one, to merge and to unite is to take the union. So whatever is done to any number of indices that
start empty, each holds the union of what was inserted (`represents_build`), and what it tells of a
value on a date can be read off that set (`Represents.countSeries_eq`).

Maps are joined key by key, so a join is as commutative, associative and idempotent as the function
that joins two values. Unions of indices join sets within columns within values. They obey the laws
of a union whether or not the indices are tidy, which is why it does not show which of two indices
is merged into which.

Main statement: `build_placements`.
-/

namespace IssueFlow.Flow

open IssueFlow.Calendar IssueFlow.Rules

/-! ## Laws of joined maps -/

section Join

variable {κ β : Type} [Ord κ] [Std.TransOrd κ] [Std.LawfulEqOrd κ] (f : β → β → β)

instance [Std.Commutative f] : Std.Commutative (joinWith (κ := κ) f) where
  comm a b := by
    refine Std.ExtTreeMap.ext_getElem? fun {k} => ?_
    rw [getElem?_joinWith, getElem?_joinWith]
    exact (Option.commutative_merge f).comm _ _

instance [Std.Associative f] : Std.Associative (joinWith (κ := κ) f) where
  assoc a b c := by
    refine Std.ExtTreeMap.ext_getElem? fun {k} => ?_
    simp only [getElem?_joinWith]
    exact (Option.associative_merge f).assoc _ _ _

instance [Std.IdempotentOp f] : Std.IdempotentOp (joinWith (κ := κ) f) where
  idempotent a := by
    refine Std.ExtTreeMap.ext_getElem? fun {k} => ?_
    rw [getElem?_joinWith]
    exact (Option.idempotentOp_merge f).idempotent _

end Join

instance : Std.Commutative fun s t : TextSet => s ∪ t where
  comm s t := Std.ExtTreeSet.ext_mem fun {key} => by
    simp only [Std.ExtTreeSet.mem_union_iff, or_comm]

instance : Std.Associative fun s t : TextSet => s ∪ t where
  assoc s t u := Std.ExtTreeSet.ext_mem fun {key} => by
    simp only [Std.ExtTreeSet.mem_union_iff, or_assoc]

instance : Std.IdempotentOp fun s t : TextSet => s ∪ t where
  idempotent s := Std.ExtTreeSet.ext_mem fun {key} => by
    simp only [Std.ExtTreeSet.mem_union_iff, or_self]

namespace FlowIndex

/-! ## Laws of the union -/

theorem merge_comm (x y : FlowIndex) : x.merge y = y.merge x :=
  congrArg FlowIndex.mk (Std.Commutative.comm x.entries y.entries)

theorem merge_assoc (x y z : FlowIndex) : (x.merge y).merge z = x.merge (y.merge z) := by
  have hjoin : Std.Associative
      (joinWith (κ := String) (joinWith (κ := Date) fun s t : TextSet => s ∪ t)) := inferInstance
  exact congrArg FlowIndex.mk (hjoin.assoc x.entries y.entries z.entries)

theorem merge_self (x : FlowIndex) : x.merge x = x :=
  congrArg FlowIndex.mk (Std.IdempotentOp.idempotent x.entries)

theorem union_eq_merge (x y : FlowIndex) : x.union y = x.merge y := by
  unfold union
  split
  · exact merge_comm y x
  · rfl

theorem union_comm (x y : FlowIndex) : x.union y = y.union x := by
  rw [union_eq_merge, union_eq_merge, merge_comm]

theorem union_assoc (x y z : FlowIndex) : (x.union y).union z = x.union (y.union z) := by
  simp only [union_eq_merge, merge_assoc]

theorem union_self (x : FlowIndex) : x.union x = x := by
  rw [union_eq_merge, merge_self]

/-! ## Sets of placements -/

/-- A value, a date and the key of an issue. -/
abbrev Placement := String × Date × String

/-- The issues that a set of placements has under a value on a date. -/
def keysAt (s : Finset Placement) (value : String) (date : Date) : Finset String :=
  (s.filter fun p => p.1 = value ∧ p.2.1 = date).image fun p => p.2.2

theorem mem_keysAt_iff {s : Finset Placement} {value : String} {date : Date} {key : String} :
    key ∈ keysAt s value date ↔ (value, date, key) ∈ s := by
  simp [keysAt]

/-- The index is tidy and holds these placements. -/
structure Represents (x : FlowIndex) (s : Finset Placement) : Prop where
  tidy : x.Tidy
  holds_iff (value : String) (date : Date) (key : String) :
    x.Holds value date key ↔ (value, date, key) ∈ s

variable {x y : FlowIndex} {s t : Finset Placement}

theorem represents_empty : Represents {} ∅ where
  tidy := tidy_empty
  holds_iff _ _ _ := iff_of_false not_holds_empty (Finset.notMem_empty _)

theorem Represents.insert (h : x.Represents s) (value : String) (date : Date) (key : String) :
    (x.insert value date key).Represents (Insert.insert (value, date, key) s) where
  tidy := h.tidy.insert value date key
  holds_iff value' date' key' := by
    rw [holds_insert, h.holds_iff, Finset.mem_insert, Prod.mk.injEq, Prod.mk.injEq]

theorem Represents.merge (hx : x.Represents s) (hy : y.Represents t) :
    (x.merge y).Represents (s ∪ t) where
  tidy := hx.tidy.merge hy.tidy
  holds_iff value date key := by rw [holds_merge, hx.holds_iff, hy.holds_iff, Finset.mem_union]

theorem Represents.union (hx : x.Represents s) (hy : y.Represents t) :
    (x.union y).Represents (s ∪ t) := by
  rw [union_eq_merge]
  exact hx.merge hy

theorem Represents.isEmpty_iff (h : x.Represents s) : x.isEmpty = true ↔ s = ∅ := by
  rw [isEmpty, Std.ExtTreeMap.isEmpty_iff, Finset.eq_empty_iff_forall_notMem]
  constructor
  · rintro hempty ⟨value, date, key⟩ hmem
    obtain ⟨keys, hkeys, -⟩ := (h.holds_iff value date key).2 hmem
    simp [issuesOn?, hempty] at hkeys
  · intro hnone
    have hx := h.tidy.eq_empty fun value date key => mt (h.holds_iff value date key).1 (hnone _)
    rw [hx]

/-- A series has the dates on which the value has an issue, each with the number of them. -/
theorem Represents.countSeries_eq (h : x.Represents s) (value : String) (date : Date) :
    (x.countSeries value)[date]? =
      if keysAt s value date = ∅ then none else some (keysAt s value date).card := by
  rw [getElem?_countSeries]
  cases hcell : x.issuesOn? value date with
  | none =>
    rw [Option.map_none, if_pos]
    refine Finset.eq_empty_of_forall_notMem fun key hkey => ?_
    obtain ⟨keys, hkeys, -⟩ := (h.holds_iff value date key).2 (mem_keysAt_iff.1 hkey)
    rw [hcell] at hkeys
    cases hkeys
  | some keys =>
    have hmem (key : String) : key ∈ keys ↔ key ∈ keysAt s value date := by
      rw [mem_keysAt_iff, ← h.holds_iff, Holds, hcell]
      simp
    have hne : keysAt s value date ≠ ∅ := by
      intro hnone
      refine h.tidy.keys_ne hcell (Std.ExtTreeSet.ext_mem fun {key} => ?_)
      simp [hmem, hnone]
    rw [Option.map_some, if_neg hne, Order.size_eq_card hmem]

end FlowIndex

/-! ## Any number of indices -/

section Edits

variable {σ : Type} [DecidableEq σ]

/-- A change of one of several indices. What is merged into it or united with it is a copy. -/
inductive Edit (σ : Type) where
  | insert (slot : σ) (value : String) (date : Date) (key : String)
  | merge (slot other : σ)
  | union (slot other : σ)

/-- The indices after a change. -/
def Edit.apply (xs : σ → FlowIndex) : Edit σ → σ → FlowIndex
  | .insert slot value date key => Function.update xs slot ((xs slot).insert value date key)
  | .merge slot other => Function.update xs slot ((xs slot).merge (xs other))
  | .union slot other => Function.update xs slot ((xs slot).union (xs other))

/-- The placements that have come into each index after a change. -/
def Edit.gather (ss : σ → Finset FlowIndex.Placement) : Edit σ → σ → Finset FlowIndex.Placement
  | .insert slot value date key =>
    Function.update ss slot (Insert.insert (value, date, key) (ss slot))
  | .merge slot other => Function.update ss slot (ss slot ∪ ss other)
  | .union slot other => Function.update ss slot (ss slot ∪ ss other)

/-- The indices that edits make of empty ones. -/
def build (edits : List (Edit σ)) : σ → FlowIndex := edits.foldl Edit.apply fun _ => {}

/-- The placements inserted into each index, or into one that was put into it afterwards. -/
def inserted (edits : List (Edit σ)) : σ → Finset FlowIndex.Placement :=
  edits.foldl Edit.gather fun _ => ∅

variable {xs : σ → FlowIndex} {ss : σ → Finset FlowIndex.Placement}

theorem represents_update (h : ∀ slot, (xs slot).Represents (ss slot)) {x : FlowIndex}
    {s : Finset FlowIndex.Placement} (hx : x.Represents s) (target slot : σ) :
    (Function.update xs target x slot).Represents (Function.update ss target s slot) := by
  rw [Function.update_apply, Function.update_apply]
  split
  · exact hx
  · exact h slot

theorem Edit.represents (h : ∀ slot, (xs slot).Represents (ss slot)) (e : Edit σ) (slot : σ) :
    (e.apply xs slot).Represents (e.gather ss slot) := by
  cases e with
  | insert target value date key =>
    exact represents_update h ((h target).insert value date key) target slot
  | merge target other => exact represents_update h ((h target).merge (h other)) target slot
  | union target other => exact represents_update h ((h target).union (h other)) target slot

theorem represents_foldl (h : ∀ slot, (xs slot).Represents (ss slot)) (edits : List (Edit σ))
    (slot : σ) : (edits.foldl Edit.apply xs slot).Represents (edits.foldl Edit.gather ss slot) := by
  induction edits generalizing xs ss with
  | nil => exact h slot
  | cons e edits ih => exact ih (e.represents h)

theorem represents_build (edits : List (Edit σ)) (slot : σ) :
    (build edits slot).Represents (inserted edits slot) :=
  represents_foldl (fun _ => FlowIndex.represents_empty) edits slot

/-- Whatever is inserted into empty indices, merged and united, each index holds the union of what
was inserted, without an empty column or cell, and its emptiness and its series are read off that
set. Union obeys its laws for all indices, tidy or not, so it is the same merge either way round. -/
theorem build_placements :
    (∀ (edits : List (Edit σ)) (slot : σ),
      (build edits slot).Tidy ∧
        (∀ value date key, (build edits slot).Holds value date key ↔
          (value, date, key) ∈ inserted edits slot) ∧
        ((build edits slot).isEmpty = true ↔ inserted edits slot = ∅) ∧
        ∀ value date, ((build edits slot).countSeries value)[date]? =
          if FlowIndex.keysAt (inserted edits slot) value date = ∅ then none
          else some (FlowIndex.keysAt (inserted edits slot) value date).card) ∧
      (∀ x y z : FlowIndex, (x.union y).union z = x.union (y.union z)) ∧
      (∀ x y : FlowIndex, x.union y = y.union x) ∧ (∀ x : FlowIndex, x.union x = x) ∧
      ∀ x y : FlowIndex, x.union y = x.merge y ∧ x.union y = y.merge x := by
  refine ⟨fun edits slot => ?_, FlowIndex.union_assoc, FlowIndex.union_comm,
    FlowIndex.union_self, fun x y => ⟨FlowIndex.union_eq_merge x y, ?_⟩⟩
  · have h := represents_build edits slot
    exact ⟨h.tidy, h.holds_iff, h.isEmpty_iff, h.countSeries_eq⟩
  · rw [FlowIndex.union_comm, FlowIndex.union_eq_merge]

end Edits

end IssueFlow.Flow
