import IssueFlow.Batch.FanOut

/-!
# Processed units

A batch computes the units within its limit, unless it was cancelled (`Options.processed`). Whatever
is made of the results, `zipWith_fanOut` takes apart what comes from computed and from skipped
units.
-/

namespace IssueFlow.Batch

variable {α β γ : Type}

/-- The units that are computed, in order. -/
def Options.processed (o : Options) (units : List α) : List α :=
  if o.cancelled then [] else units.take (o.admitted units.length)

theorem processed_default (units : List α) : ({} : Options).processed units = units := by
  simp [Options.processed, Options.admitted]

theorem processed_sublist (o : Options) (units : List α) : (o.processed units).Sublist units := by
  unfold Options.processed
  split
  · exact List.nil_sublist _
  · exact List.take_sublist _ _

/-- A batch that computes a unit computes any unit that is its only one. -/
theorem processed_singleton {o : Options} {units : List α} {u : α} (h : u ∈ o.processed units)
    (v : α) : o.processed [v] = [v] := by
  unfold Options.processed at h ⊢
  split at h
  · cases h
  · next hc =>
    have hpos : 0 < o.admitted units.length := by
      rcases Nat.eq_zero_or_pos (o.admitted units.length) with hz | hpos
      · rw [hz, List.take_zero] at h
        cases h
      · exact hpos
    have hone : 1 ≤ o.admitted 1 := by
      unfold Options.admitted at hpos ⊢
      cases hmax : o.maxUnits with
      | none => exact Nat.le_refl 1
      | some n =>
        rw [hmax] at hpos
        show 1 ≤ min n 1
        replace hpos : 0 < min n units.length := hpos
        omega
    rw [if_neg hc]
    exact List.take_of_length_le hone

theorem zipWith_fanOut (o : Options) (f : α → β) (g : α → Except ErrorCode β → γ)
    (units : List α) :
    List.zipWith g units (fanOut o f units) =
      ((units.take (o.admitted units.length)).map fun u =>
        g u (if o.cancelled then .error .cancelled else .ok (f u))) ++
      (units.drop (o.admitted units.length)).map fun u => g u (.error .batchLimitReached) := by
  have hsplit := List.take_append_drop (o.admitted units.length) units
  conv =>
    lhs
    arg 2
    rw [← hsplit]
  rw [fanOut, List.zipWith_append (by rw [List.length_map]), List.zipWith_map_right,
    List.zipWith_map_right, List.zipWith_self, List.zipWith_self]

theorem zipWith_fanOut_unlimited (f : α → β) (g : α → Except ErrorCode β → γ) (units : List α) :
    List.zipWith g units (fanOut {} f units) = units.map fun u => g u (.ok (f u)) := by
  rw [fanOut_unlimited, List.zipWith_map_right, List.zipWith_self]

/-- A limited batch is the batch over its first units, and the others are skipped. -/
theorem zipWith_fanOut_limited (k : Nat) (f : α → β) (g : α → Except ErrorCode β → γ)
    (units : List α) :
    List.zipWith g units (fanOut { maxUnits := some k } f units) =
      List.zipWith g (units.take k) (fanOut {} f (units.take k)) ++
        (units.drop k).map fun u => g u (.error .batchLimitReached) := by
  rw [zipWith_fanOut, zipWith_fanOut_unlimited, List.take_eq_take_min (i := k),
    List.drop_eq_drop_min (i := k)]
  rfl

theorem zipWith_fanOut_cancelled (k : Nat) (f : α → β) (g : α → Except ErrorCode β → γ)
    (units : List α) :
    List.zipWith g units (fanOut { maxUnits := some k, cancelled := true } f units) =
      ((units.take k).map fun u => g u (.error .cancelled)) ++
        (units.drop k).map fun u => g u (.error .batchLimitReached) := by
  rw [zipWith_fanOut, List.take_eq_take_min (i := k), List.drop_eq_drop_min (i := k)]
  rfl

/-- Only the results of processed units count where a skipped unit leaves nothing. -/
theorem exists_mem_zipWith_fanOut_iff {o : Options} {f : α → β} {g : α → Except ErrorCode β → γ}
    {units : List α} {p : γ → Prop} (hskip : ∀ u code, ¬ p (g u (.error code))) :
    (∃ r ∈ List.zipWith g units (fanOut o f units), p r) ↔
      ∃ u ∈ o.processed units, p (g u (.ok (f u))) := by
  rw [zipWith_fanOut, Options.processed]
  cases hc : o.cancelled with
  | true =>
    refine ⟨fun ⟨r, hr, hp⟩ => ?_, fun ⟨u, hu, _⟩ => absurd hu List.not_mem_nil⟩
    rcases List.mem_append.1 hr with hr | hr
    · obtain ⟨u, -, rfl⟩ := List.mem_map.1 hr
      exact absurd hp (hskip u _)
    · obtain ⟨u, -, rfl⟩ := List.mem_map.1 hr
      exact absurd hp (hskip u _)
  | false =>
    constructor
    · rintro ⟨r, hr, hp⟩
      rcases List.mem_append.1 hr with hr | hr
      · obtain ⟨u, hu, rfl⟩ := List.mem_map.1 hr
        exact ⟨u, hu, hp⟩
      · obtain ⟨u, -, rfl⟩ := List.mem_map.1 hr
        exact absurd hp (hskip u _)
    · rintro ⟨u, hu, hp⟩
      exact ⟨_, List.mem_append_left _ (List.mem_map.2 ⟨u, hu, rfl⟩), hp⟩

end IssueFlow.Batch
