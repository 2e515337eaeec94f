import IssueFlow.Delivery.Velocity
import IssueFlow.Proofs.Calendar.Instant
import IssueFlow.Proofs.Order.Selection
import Mathlib.Data.List.Nodup
import Mathlib.Data.List.Pairwise

/-!
# Owners of completions

Of the selections that may claim a completion of an issue (`Claims`), the first by start and place
owns it (`Owns`). There is at most one owner, there is one as soon as some selection has a claim,
and `owner?` finds it.
-/

namespace IssueFlow.Delivery

open IssueFlow.Calendar IssueFlow.Tracker

/-- The selection is of the issue's project and lists its number. -/
def Lists (s : SprintSelection) (x : IssueRef) : Prop := s.project = x.project ∧ x.number ∈ s.issues

/-- The selection at a place lists the issue, and the instant lies in its window. -/
def Claims (selections : List SprintSelection) (x : IssueRef) (t : Instant) (i : Nat)
    (s : SprintSelection) : Prop :=
  selections[i]? = some s ∧ Lists s x ∧ s.window.contains t = true

/-- Of the selections with a claim, the one at the place starts first, and it is the first in the
list among equals. -/
def Owns (selections : List SprintSelection) (x : IssueRef) (t : Instant) (i : Nat) : Prop :=
  ∃ s, Claims selections x t i s ∧ ∀ j s', Claims selections x t j s' →
    s.window.start < s'.window.start ∨ s.window.start = s'.window.start ∧ i ≤ j

/-! ## The earliest of placed selections -/

/-- Order by start, then by place. -/
def Precedes (p q : Placed) : Prop :=
  p.1.window.start < q.1.window.start ∨ p.1.window.start = q.1.window.start ∧ p.2 ≤ q.2

theorem precedes_iff {p q : Placed} : Precedes p q ↔
    p.1.window.start.rank < q.1.window.start.rank ∨
      p.1.window.start.rank = q.1.window.start.rank ∧ p.2 ≤ q.2 :=
  or_congr Iff.rfl (and_congr_left fun _ => ⟨congrArg _, Instant.rank_inj⟩)

theorem Precedes.refl (p : Placed) : Precedes p p := .inr ⟨rfl, Nat.le_refl _⟩

theorem Precedes.trans {p q r : Placed} (hpq : Precedes p q) (hqr : Precedes q r) :
    Precedes p r := by
  simp only [precedes_iff] at *
  omega

theorem Precedes.place_eq {p q : Placed} (hpq : Precedes p q) (hqp : Precedes q p) : p.2 = q.2 := by
  simp only [precedes_iff] at *
  omega

section

variable {p q : Placed} {ps : List Placed}

theorem earlier_eq_or (p q : Placed) : earlier p q = p ∨ earlier p q = q := by
  unfold earlier
  split
  · exact .inr rfl
  · exact .inl rfl

theorem earlier_precedes (h : p.2 < q.2) : Precedes (earlier p q) p ∧ Precedes (earlier p q) q := by
  by_cases hqp : q.1.window.start < p.1.window.start
  · rw [earlier, if_pos hqp]
    exact ⟨.inl hqp, .refl q⟩
  · rw [earlier, if_neg hqp]
    refine ⟨.refl p, precedes_iff.2 ?_⟩
    rw [Instant.lt_def] at hqp
    omega

theorem foldl_earlier (h : (p :: ps).Pairwise fun x y => x.2 < y.2) :
    ps.foldl earlier p ∈ p :: ps ∧ ∀ q ∈ p :: ps, Precedes (ps.foldl earlier p) q := by
  induction ps generalizing p with
  | nil => simp [Precedes.refl]
  | cons q ps ih =>
    obtain ⟨hp, hq, hps⟩ := by simpa only [List.pairwise_cons] using h
    have hpq := hp q List.mem_cons_self
    have hrest : (earlier p q :: ps).Pairwise fun x y => x.2 < y.2 := by
      refine List.pairwise_cons.2 ⟨fun r hr => ?_, hps⟩
      rcases earlier_eq_or p q with he | he <;> rw [he]
      · exact hp r (List.mem_cons_of_mem q hr)
      · exact hq r hr
    obtain ⟨hmem, hall⟩ := ih hrest
    rw [List.foldl_cons]
    refine ⟨?_, fun r hr => ?_⟩
    · rcases List.mem_cons.1 hmem with hm | hm
      · rw [hm]
        rcases earlier_eq_or p q with he | he <;> simp [he]
      · exact List.mem_cons_of_mem _ (List.mem_cons_of_mem _ hm)
    · have hchosen := hall _ List.mem_cons_self
      rcases List.mem_cons.1 hr with rfl | hr
      · exact hchosen.trans (earlier_precedes hpq).1
      · rcases List.mem_cons.1 hr with rfl | hr
        · exact hchosen.trans (earlier_precedes hpq).2
        · exact hall r (List.mem_cons_of_mem _ hr)

/-- Among placed selections in the order of their places, the earliest precedes all others. -/
theorem earliest?_eq_some_iff (h : ps.Pairwise fun x y => x.2 < y.2) :
    earliest? ps = some p ↔ p ∈ ps ∧ ∀ q ∈ ps, Precedes p q := by
  cases ps with
  | nil => simp [earliest?]
  | cons r ps =>
    obtain ⟨hmem, hall⟩ := foldl_earlier h
    rw [earliest?, Option.some.injEq]
    constructor
    · rintro rfl
      exact ⟨hmem, hall⟩
    · rintro ⟨hp, hfirst⟩
      have hplaces : ((r :: ps).map Prod.snd).Nodup := List.pairwise_map.2 (h.imp Nat.ne_of_lt)
      exact List.inj_on_of_nodup_map hplaces hmem hp ((hall p hp).place_eq (hfirst _ hmem))

end

/-! ## Owners -/

section

variable {selections : List SprintSelection} {x : IssueRef} {t : Instant} {i : Nat}
  {s : SprintSelection}

theorem mem_filter_hasClaim_iff :
    (s, i) ∈ selections.zipIdx.filter (hasClaim x t) ↔ Claims selections x t i s := by
  rw [List.mem_filter, List.mem_zipIdx_iff_getElem?]
  simp [hasClaim, Claims, Lists, and_assoc]

theorem owner?_eq_some_iff : owner? selections.zipIdx x t = some i ↔ Owns selections x t i := by
  have hsorted := (Order.pairwise_zipIdx selections).filter (hasClaim x t)
  rw [owner?, Option.map_eq_some_iff]
  constructor
  · rintro ⟨⟨s, i⟩, hp, rfl⟩
    obtain ⟨hmem, hfirst⟩ := (earliest?_eq_some_iff hsorted).1 hp
    exact ⟨s, mem_filter_hasClaim_iff.1 hmem, fun j s' hs' =>
      hfirst (s', j) (mem_filter_hasClaim_iff.2 hs')⟩
  · rintro ⟨s, hs, hfirst⟩
    refine ⟨(s, i), (earliest?_eq_some_iff hsorted).2 ⟨mem_filter_hasClaim_iff.2 hs, ?_⟩, rfl⟩
    rintro ⟨s', j⟩ hq
    exact hfirst j s' (mem_filter_hasClaim_iff.1 hq)

theorem Owns.lists (h : Owns selections x t i) : ∃ s, selections[i]? = some s ∧ Lists s x := by
  obtain ⟨s, ⟨hs, hlists, -⟩, -⟩ := h
  exact ⟨s, hs, hlists⟩

/-- A completion has an owner as soon as some selection has a claim to it. -/
theorem exists_owns_iff : (∃ i, Owns selections x t i) ↔
    ∃ s ∈ selections, Lists s x ∧ s.window.contains t = true := by
  constructor
  · rintro ⟨i, s, ⟨hs, hlists, ht⟩, -⟩
    exact ⟨s, List.mem_of_getElem? hs, hlists, ht⟩
  · rintro ⟨s, hs, hlists, ht⟩
    obtain ⟨j, hj⟩ := List.mem_iff_getElem?.1 hs
    have hmem := mem_filter_hasClaim_iff.2 (show Claims selections x t j s from ⟨hj, hlists, ht⟩)
    obtain ⟨p, hp⟩ : ∃ p, earliest? (selections.zipIdx.filter (hasClaim x t)) = some p := by
      cases hclaims : selections.zipIdx.filter (hasClaim x t) with
      | nil =>
        rw [hclaims] at hmem
        cases hmem
      | cons p ps => exact ⟨_, rfl⟩
    exact ⟨p.2, owner?_eq_some_iff.1 (by rw [owner?, hp]; rfl)⟩

end

end IssueFlow.Delivery
