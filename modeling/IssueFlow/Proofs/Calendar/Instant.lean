import IssueFlow.Calendar.Instant
import Std.Data.DTreeMap.Internal.WF.Lemmas
import Std.Data.ExtTreeMap

/-!
# The line of instants

Instants are linearly ordered by rank, so the earliest of those that a map holds is what its name
says (`min?_values_eq_some_iff`), and two windows that are not empty overlap just if they have an
instant in common (`Window.overlaps_iff_exists_contains`).
-/

namespace IssueFlow.Calendar

namespace Instant

variable {a b c : Instant}

protected theorem le_refl (a : Instant) : a ≤ a := Int.le_refl a.rank

protected theorem le_trans (hab : a ≤ b) (hbc : b ≤ c) : a ≤ c := Int.le_trans hab hbc

protected theorem le_of_lt (h : a < b) : a ≤ b := Int.le_of_lt h

protected theorem lt_of_lt_of_le (hab : a < b) (hbc : b ≤ c) : a < c := Int.lt_of_lt_of_le hab hbc

protected theorem not_lt : ¬ a < b ↔ b ≤ a := Int.not_lt

instance : Std.IsLinearOrder Instant where
  le_refl := Instant.le_refl
  le_trans _ _ _ := Instant.le_trans
  le_antisymm _ _ hab hba := rank_inj (Int.le_antisymm hab hba)
  le_total a b := Int.le_total a.rank b.rank

theorem min_def (a b : Instant) : min a b = if a ≤ b then a else b := rfl

instance : Std.LawfulOrderMin Instant where
  min_eq_or a b := by
    rw [min_def]
    split
    · exact .inl rfl
    · exact .inr rfl
  le_min_iff a b c := by
    rw [min_def]
    split <;> simp only [le_def] at * <;> omega

end Instant

section

variable {κ β : Type} [Ord κ] [Std.TransOrd κ]

theorem values_eq_map_toList (m : Std.ExtTreeMap κ β) : m.values = m.toList.map Prod.snd := by
  obtain ⟨⟨q⟩⟩ := m
  induction q using Quotient.inductionOn with
  | h t =>
    show t.inner.values = (Std.DTreeMap.Internal.Impl.Const.toList t.inner).map Prod.snd
    rw [Std.DTreeMap.Internal.Impl.values_eq_map_snd,
      Std.DTreeMap.Internal.Impl.Const.toList_eq_toListModel_map, List.map_map]
    rfl

theorem mem_values_iff [Std.LawfulEqOrd κ] {m : Std.ExtTreeMap κ β} {x : β} :
    x ∈ m.values ↔ ∃ k : κ, m[k]? = some x := by
  simp [values_eq_map_toList, Std.ExtTreeMap.mem_toList_iff_getElem?_eq_some]

/-- The earliest instant of a map is one that it holds, and it holds no earlier one. -/
theorem min?_values_eq_some_iff [Std.LawfulEqOrd κ] {m : Std.ExtTreeMap κ Instant} {t : Instant} :
    m.values.min? = some t ↔
      (∃ k : κ, m[k]? = some t) ∧ ∀ (k : κ) (u : Instant), m[k]? = some u → t ≤ u := by
  rw [List.min?_eq_some_iff, mem_values_iff]
  refine and_congr_right fun _ => ⟨fun h k u hk => h u (mem_values_iff.2 ⟨k, hk⟩), fun h u hu => ?_⟩
  obtain ⟨k, hk⟩ := mem_values_iff.1 hu
  exact h k u hk

end

/-! ## Windows -/

namespace Window

variable {v w : Window} {t : Instant}

theorem overlaps_iff : v.overlaps w = true ↔ v.start ≤ w.stop ∧ w.start ≤ v.stop := by
  simp [overlaps]

theorem overlaps_of_contains (hv : v.contains t = true) (hw : w.contains t = true) :
    v.overlaps w = true := by
  obtain ⟨hv, hv'⟩ := contains_iff.1 hv
  obtain ⟨hw, hw'⟩ := contains_iff.1 hw
  exact overlaps_iff.2 ⟨Instant.le_trans hv hw', Instant.le_trans hw hv'⟩

/-- The later of the two starts lies in both windows. -/
theorem overlaps_iff_exists_contains (hv : v.start ≤ v.stop) (hw : w.start ≤ w.stop) :
    v.overlaps w = true ↔ ∃ t, v.contains t = true ∧ w.contains t = true := by
  refine ⟨fun h => ?_, fun ⟨t, htv, htw⟩ => overlaps_of_contains htv htw⟩
  obtain ⟨hvw, hwv⟩ := overlaps_iff.1 h
  rcases Std.le_total (a := v.start) (b := w.start) with hle | hle
  · exact ⟨w.start, contains_iff.2 ⟨hle, hwv⟩, contains_iff.2 ⟨Instant.le_refl _, hw⟩⟩
  · exact ⟨v.start, contains_iff.2 ⟨Instant.le_refl _, hv⟩, contains_iff.2 ⟨hle, hvw⟩⟩

end Window

/-- Midnight at the start of a day of January 2024. -/
def midnight (day : Nat) : Instant := .startOf ((Date.ofNumber? (19722 + day)).getD .last)

end IssueFlow.Calendar
