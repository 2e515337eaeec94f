import IssueFlow.Flow.Index

/-!
# Placements of an index

A flow index stands for the set of its placements: a value, a date and the key of an issue
(`FlowIndex.Holds`). `holds_insert` and `holds_union` say what the operations do to that set. A tidy
index has no value without dates and no date without issues; every index built from the empty one is
tidy, and tidy indices with the same placements in a cell agree on the cell. So a tidy index is
settled by its placements (`Tidy.ext`).
-/

namespace IssueFlow.Flow

open IssueFlow.Calendar IssueFlow.Rules

/-! ## Joining maps -/

section Join

variable {κ β : Type} [Ord κ] [Std.TransOrd κ]

/-- One step of a join: the value of a key is put together with the one that is there. -/
def joinStep (f : β → β → β) (m : Std.ExtTreeMap κ β) (p : κ × β) : Std.ExtTreeMap κ β :=
  m.alter p.1 fun
    | none => some p.2
    | some u => some (f u p.2)

theorem getElem?_joinStep_self (f : β → β → β) (m : Std.ExtTreeMap κ β) (k : κ) (v : β) :
    (joinStep f m (k, v))[k]? = m[k]?.merge f (some v) := by
  rw [joinStep, Std.ExtTreeMap.getElem?_alter_self]
  cases m[k]? <;> rfl

variable [Std.LawfulEqOrd κ]

theorem getElem?_joinStep_of_ne (f : β → β → β) (m : Std.ExtTreeMap κ β) {k k' : κ} (v : β)
    (h : k ≠ k') : (joinStep f m (k, v))[k']? = m[k']? := by
  rw [joinStep, Std.ExtTreeMap.getElem?_alter,
    if_neg fun hc => h (Std.LawfulEqOrd.eq_of_compare hc)]

theorem getElem?_foldl_joinStep_of_notMem (f : β → β → β) (m : Std.ExtTreeMap κ β)
    {l : List (κ × β)} {k : κ} (h : ∀ v, (k, v) ∉ l) : (l.foldl (joinStep f) m)[k]? = m[k]? := by
  induction l generalizing m with
  | nil => rfl
  | cons p l ih =>
    obtain ⟨k', v⟩ := p
    have hne : k' ≠ k := fun hk => h v (hk ▸ List.mem_cons_self)
    rw [List.foldl_cons, ih _ fun w hw => h w (List.mem_cons_of_mem _ hw),
      getElem?_joinStep_of_ne f m v hne]

theorem getElem?_foldl_joinStep_of_mem (f : β → β → β) (m : Std.ExtTreeMap κ β)
    {l : List (κ × β)} {k : κ} {v : β} (hl : l.Pairwise fun p q => ¬ compare p.1 q.1 = .eq)
    (h : (k, v) ∈ l) : (l.foldl (joinStep f) m)[k]? = m[k]?.merge f (some v) := by
  induction l generalizing m with
  | nil => cases h
  | cons p l ih =>
    obtain ⟨hp, hl⟩ := List.pairwise_cons.1 hl
    rw [List.foldl_cons]
    rcases List.mem_cons.1 h with rfl | h
    · have hnot : ∀ w, (k, w) ∉ l := fun w hw => hp _ hw Std.ReflCmp.compare_self
      rw [getElem?_foldl_joinStep_of_notMem f _ hnot, getElem?_joinStep_self]
    · have hne : p.1 ≠ k := fun hk => hp _ h (by rw [hk]; exact Std.ReflCmp.compare_self)
      rw [ih _ hl h, getElem?_joinStep_of_ne f m p.2 hne]

theorem getElem?_joinWith (f : β → β → β) (a b : Std.ExtTreeMap κ β) (k : κ) :
    (joinWith f a b)[k]? = a[k]?.merge f b[k]? := by
  have hfold : joinWith f a b = b.toList.foldl (joinStep f) a :=
    Std.ExtTreeMap.foldl_eq_foldl_toList
  rw [hfold]
  cases hk : b[k]? with
  | none =>
    rw [Option.merge_none_right]
    refine getElem?_foldl_joinStep_of_notMem f a fun v hv => ?_
    rw [Std.ExtTreeMap.mem_toList_iff_getElem?_eq_some, hk] at hv
    cases hv
  | some v =>
    exact getElem?_foldl_joinStep_of_mem f a Std.ExtTreeMap.distinct_keys_toList
      (Std.ExtTreeMap.mem_toList_iff_getElem?_eq_some.2 hk)

end Join

namespace FlowIndex

variable {x y : FlowIndex} {value value' : String} {date date' : Date} {key key' : String}

/-! ## Cells -/

theorem issuesOn?_empty (value : String) (date : Date) :
    ({} : FlowIndex).issuesOn? value date = none := by
  simp [issuesOn?]

theorem issuesOn?_insert_self (x : FlowIndex) (value : String) (date : Date) (key : String) :
    (x.insert value date key).issuesOn? value date =
      some (((x.issuesOn? value date).getD ∅).insert key) := by
  simp only [issuesOn?, insert, Std.ExtTreeMap.getElem?_alter_self, Option.bind_some]
  cases x.entries[value]? <;> simp

theorem issuesOn?_insert_of_ne (h : ¬ (value' = value ∧ date' = date)) :
    (x.insert value date key).issuesOn? value' date' = x.issuesOn? value' date' := by
  simp only [issuesOn?, insert]
  by_cases hv : value = value'
  · subst hv
    have hd : ¬ compare date date' = .eq := fun hc =>
      h ⟨rfl, (Std.LawfulEqOrd.eq_of_compare hc).symm⟩
    rw [Std.ExtTreeMap.getElem?_alter_self, Option.bind_some, Std.ExtTreeMap.getElem?_alter,
      if_neg hd]
    cases x.entries[value]? <;> simp
  · rw [Std.ExtTreeMap.getElem?_alter, if_neg fun hc => hv (Std.LawfulEqOrd.eq_of_compare hc)]

theorem issuesOn?_merge (x y : FlowIndex) (value : String) (date : Date) :
    (x.merge y).issuesOn? value date =
      (x.issuesOn? value date).merge (· ∪ ·) (y.issuesOn? value date) := by
  simp only [issuesOn?, merge, getElem?_joinWith]
  cases x.entries[value]? <;> cases y.entries[value]? <;> simp [getElem?_joinWith]

/-- A series counts the issues of every cell of its value. -/
theorem getElem?_countSeries (x : FlowIndex) (value : String) (date : Date) :
    (x.countSeries value)[date]? = (x.issuesOn? value date).map Std.ExtTreeSet.size := by
  rw [countSeries, Std.ExtTreeMap.getElem?_map, issuesOn?, Std.ExtTreeMap.getD_eq_getD_getElem?]
  cases x.entries[value]? <;> simp

/-! ## Placements -/

theorem not_holds_empty : ¬ ({} : FlowIndex).Holds value date key := by
  rintro ⟨keys, h, -⟩
  rw [issuesOn?_empty] at h
  cases h

theorem holds_insert : (x.insert value date key).Holds value' date' key' ↔
    (value' = value ∧ date' = date ∧ key' = key) ∨ x.Holds value' date' key' := by
  unfold Holds
  by_cases h : value' = value ∧ date' = date
  · obtain ⟨rfl, rfl⟩ := h
    rw [issuesOn?_insert_self]
    cases x.issuesOn? value' date' <;> simp [@eq_comm _ key']
  · rw [issuesOn?_insert_of_ne h]
    refine ⟨.inr, ?_⟩
    rintro (⟨hv, hd, -⟩ | hx)
    · exact absurd ⟨hv, hd⟩ h
    · exact hx

theorem holds_merge : (x.merge y).Holds value date key ↔
    x.Holds value date key ∨ y.Holds value date key := by
  unfold Holds
  rw [issuesOn?_merge]
  cases x.issuesOn? value date <;> cases y.issuesOn? value date <;> simp

/-- Which index is merged into which does not show in the placements. -/
theorem holds_union : (x.union y).Holds value date key ↔
    x.Holds value date key ∨ y.Holds value date key := by
  unfold union
  split
  · rw [holds_merge, or_comm]
  · exact holds_merge

theorem holds_foldl_insert {days : List (Date × String)} :
    (days.foldl (fun x day => x.insert day.2 day.1 key) x).Holds value date key' ↔
      (key' = key ∧ (date, value) ∈ days) ∨ x.Holds value date key' := by
  induction days generalizing x with
  | nil => simp
  | cons day days ih =>
    rw [List.foldl_cons, ih, holds_insert, List.mem_cons]
    constructor
    · rintro (⟨hk, hd⟩ | ⟨rfl, rfl, hk⟩ | hx)
      · exact .inl ⟨hk, .inr hd⟩
      · exact .inl ⟨hk, .inl rfl⟩
      · exact .inr hx
    · rintro (⟨hk, rfl | hd⟩ | hx)
      · exact .inr (.inl ⟨rfl, rfl, hk⟩)
      · exact .inl ⟨hk, hd⟩
      · exact .inr (.inr hx)

theorem holds_foldl_union {α : Type} {index : α → FlowIndex} {parts : List α} :
    (parts.foldl (fun x part => x.union (index part)) x).Holds value date key ↔
      x.Holds value date key ∨ ∃ part ∈ parts, (index part).Holds value date key := by
  induction parts generalizing x with
  | nil => simp
  | cons part parts ih =>
    rw [List.foldl_cons, ih, holds_union, or_assoc]
    simp only [List.mem_cons, exists_eq_or_imp]

/-! ## Tidy indices -/

/-- No value stands without a date, and no date without an issue. -/
structure Tidy (x : FlowIndex) : Prop where
  column_ne : ∀ {value : String} {column : DateColumn}, x.entries[value]? = some column →
    column ≠ ∅
  keys_ne : ∀ {value : String} {date : Date} {keys : TextSet},
    x.issuesOn? value date = some keys → keys ≠ ∅

theorem tidy_empty : ({} : FlowIndex).Tidy where
  column_ne h := by simp at h
  keys_ne h := by
    rw [issuesOn?_empty] at h
    cases h

theorem Tidy.insert (hx : x.Tidy) (value : String) (date : Date) (key : String) :
    (x.insert value date key).Tidy where
  column_ne {value' column} h := by
    rw [FlowIndex.insert, Std.ExtTreeMap.getElem?_alter] at h
    split at h
    · cases h
      intro hc
      have hd := congrArg (fun column : DateColumn => column[date]?) hc
      simp at hd
    · exact hx.column_ne h
  keys_ne {value' date' keys} h := by
    by_cases hc : value' = value ∧ date' = date
    · obtain ⟨rfl, rfl⟩ := hc
      rw [issuesOn?_insert_self] at h
      cases h
      exact fun hk => by simpa using congrArg (fun keys : TextSet => key ∈ keys) hk
    · rw [issuesOn?_insert_of_ne hc] at h
      exact hx.keys_ne h

theorem Tidy.merge (hx : x.Tidy) (hy : y.Tidy) : (x.merge y).Tidy where
  column_ne {value column} h := by
    simp only [FlowIndex.merge, getElem?_joinWith] at h
    rcases Option.merge_eq_some_iff.1 h with ⟨h, -⟩ | ⟨-, h⟩ | ⟨a, b, ha, hb, rfl⟩
    · exact hx.column_ne h
    · exact hy.column_ne h
    · intro hc
      refine hx.column_ne ha (Std.ExtTreeMap.ext_getElem? fun {date} => ?_)
      have hd := congrArg (fun column : DateColumn => column[date]?) hc
      simp only [getElem?_joinWith] at hd
      cases hdate : a[date]? with
      | none => simp
      | some keys => cases hb' : b[date]? <;> simp [hdate, hb'] at hd
  keys_ne {value date keys} h := by
    rw [issuesOn?_merge] at h
    rcases Option.merge_eq_some_iff.1 h with ⟨h, -⟩ | ⟨-, h⟩ | ⟨a, b, ha, -, rfl⟩
    · exact hx.keys_ne h
    · exact hy.keys_ne h
    · intro hk
      refine hx.keys_ne ha (Std.ExtTreeSet.ext_mem fun {key} => ?_)
      have hkey := congrArg (fun keys : TextSet => key ∈ keys) hk
      simp only [Std.ExtTreeSet.mem_union_iff, Std.ExtTreeSet.not_mem_empty, eq_iff_iff,
        iff_false, not_or] at hkey
      simp [hkey.1]

theorem Tidy.union (hx : x.Tidy) (hy : y.Tidy) : (x.union y).Tidy := by
  unfold FlowIndex.union
  split
  · exact hy.merge hx
  · exact hx.merge hy

theorem Tidy.foldl_insert (hx : x.Tidy) (days : List (Date × String)) (key : String) :
    (days.foldl (fun x day => x.insert day.2 day.1 key) x).Tidy := by
  induction days generalizing x with
  | nil => exact hx
  | cons day days ih => exact ih (hx.insert day.2 day.1 key)

theorem Tidy.foldl_union {α : Type} {index : α → FlowIndex} (hx : x.Tidy) {parts : List α}
    (h : ∀ part ∈ parts, (index part).Tidy) :
    (parts.foldl (fun x part => x.union (index part)) x).Tidy := by
  induction parts generalizing x with
  | nil => exact hx
  | cons part parts ih =>
    exact ih (hx.union (h part List.mem_cons_self)) fun q hq => h q (List.mem_cons_of_mem _ hq)

/-- Tidy indices that place the same issues in a cell agree on it. -/
theorem Tidy.issuesOn?_congr (hx : x.Tidy) (hy : y.Tidy)
    (h : ∀ key, x.Holds value date key ↔ y.Holds value date key) :
    x.issuesOn? value date = y.issuesOn? value date := by
  unfold Holds at h
  cases hxc : x.issuesOn? value date with
  | none =>
    cases hyc : y.issuesOn? value date with
    | none => rfl
    | some t =>
      refine absurd (Std.ExtTreeSet.ext_mem fun {key} => ?_) (hy.keys_ne hyc)
      have := h key
      simpa [hxc, hyc] using this
  | some s =>
    cases hyc : y.issuesOn? value date with
    | none =>
      refine absurd (Std.ExtTreeSet.ext_mem fun {key} => ?_) (hx.keys_ne hxc)
      have := h key
      simpa [hxc, hyc] using this
    | some t =>
      refine congrArg some (Std.ExtTreeSet.ext_mem fun {key} => ?_)
      have := h key
      simpa [hxc, hyc] using this

theorem Tidy.getElem?_eq_none (hx : x.Tidy) (h : ∀ date, x.issuesOn? value date = none) :
    x.entries[value]? = none := by
  cases hcolumn : x.entries[value]? with
  | none => rfl
  | some column =>
    refine absurd (Std.ExtTreeMap.ext_getElem? fun {date} => ?_) (hx.column_ne hcolumn)
    simpa [issuesOn?, hcolumn] using h date

/-- Tidy indices with the same placements are equal. -/
theorem Tidy.ext (hx : x.Tidy) (hy : y.Tidy)
    (h : ∀ value date key, x.Holds value date key ↔ y.Holds value date key) : x = y := by
  have hcell (value : String) (date : Date) : x.issuesOn? value date = y.issuesOn? value date :=
    hx.issuesOn?_congr hy (h value date)
  have hentries : x.entries = y.entries := by
    refine Std.ExtTreeMap.ext_getElem? fun {value} => ?_
    cases hxc : x.entries[value]? with
    | none =>
      refine (hy.getElem?_eq_none fun date => ?_).symm
      rw [← hcell, issuesOn?, hxc, Option.bind_none]
    | some column =>
      cases hyc : y.entries[value]? with
      | none =>
        rw [← hxc]
        refine hx.getElem?_eq_none fun date => ?_
        rw [hcell, issuesOn?, hyc, Option.bind_none]
      | some column' =>
        refine congrArg some (Std.ExtTreeMap.ext_getElem? fun {date} => ?_)
        simpa [issuesOn?, hxc, hyc] using hcell value date
  cases x
  cases y
  exact congrArg FlowIndex.mk hentries

theorem Tidy.eq_empty (hx : x.Tidy) (h : ∀ value date key, ¬ x.Holds value date key) : x = {} :=
  hx.ext tidy_empty fun value date key => iff_of_false (h value date key) not_holds_empty

end FlowIndex

end IssueFlow.Flow
