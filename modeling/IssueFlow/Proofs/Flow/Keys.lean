import IssueFlow.Proofs.Flow.Batch

/-!
# Keys in an index

An index names an issue by its key, the project and the number with a slash between them. Both parts
may hold slashes, so two issues can have one key (`Clashes`), and the index cannot tell them apart.
It gives a key one value a day exactly where no such pair of issues is placed under different values
(`eq_of_holds_iff`).
-/

namespace IssueFlow.Tracker

/-- The project of the second issue goes on with a slash and the start of the first one's number. -/
def IssueRef.Clashes (x y : IssueRef) : Prop :=
  ∃ part, y.project = x.project ++ "/" ++ part ∧ x.number = part ++ "/" ++ y.number

theorem append_cons_eq_append_cons {α : Type} {c : α} {p n q m : List α}
    (h : p ++ c :: n = q ++ c :: m) :
    (p = q ∧ n = m) ∨ (∃ part, q = p ++ c :: part ∧ n = part ++ c :: m) ∨
      ∃ part, p = q ++ c :: part ∧ m = part ++ c :: n := by
  rcases List.append_eq_append_iff.1 h with ⟨a, hq, hn⟩ | ⟨a, hp, hm⟩
  · cases a with
    | nil =>
      rw [List.append_nil] at hq
      exact .inl ⟨hq.symm, (List.cons.inj hn).2⟩
    | cons b part =>
      obtain ⟨rfl, htail⟩ := List.cons.inj hn
      exact .inr (.inl ⟨part, hq, htail⟩)
  · cases a with
    | nil =>
      rw [List.append_nil] at hp
      exact .inl ⟨hp, (List.cons.inj hm).2.symm⟩
    | cons b part =>
      obtain ⟨rfl, htail⟩ := List.cons.inj hm
      exact .inr (.inr ⟨part, hp, htail⟩)

theorem IssueRef.toList_display (x : IssueRef) :
    x.display.toList = x.project.toList ++ '/' :: x.number.toList := by
  simp [display, String.toList_append]

theorem IssueRef.clashes_of_toList {x y : IssueRef} {part : List Char}
    (hproject : y.project.toList = x.project.toList ++ '/' :: part)
    (hnumber : x.number.toList = part ++ '/' :: y.number.toList) : x.Clashes y :=
  ⟨.ofList part, String.toList_inj.1 (by simp [hproject]),
    String.toList_inj.1 (by simp [hnumber])⟩

theorem IssueRef.Clashes.display_eq {x y : IssueRef} (h : x.Clashes y) :
    x.display = y.display := by
  obtain ⟨part, hproject, hnumber⟩ := h
  simp only [display, hproject, hnumber, String.append_assoc]

theorem IssueRef.display_eq_iff {x y : IssueRef} :
    x.display = y.display ↔ x = y ∨ x.Clashes y ∨ y.Clashes x := by
  constructor
  · intro h
    have h := congrArg String.toList h
    rw [toList_display, toList_display] at h
    rcases append_cons_eq_append_cons h with ⟨hp, hn⟩ | ⟨part, hp, hn⟩ | ⟨part, hp, hn⟩
    · left
      cases x
      cases y
      rw [String.toList_inj] at hp hn
      subst hp hn
      rfl
    · exact .inr (.inl (clashes_of_toList hp hn))
    · exact .inr (.inr (clashes_of_toList hp hn))
  · rintro (rfl | h | h)
    · rfl
    · exact h.display_eq
    · exact h.display_eq.symm

end IssueFlow.Tracker

namespace IssueFlow.Flow

open IssueFlow.Calendar IssueFlow.Tracker IssueFlow.Rules IssueFlow.Batch

section

variable {s : ClassificationSet} {request : ReplayRequest} {grouping : Grouping}
  {issues : List IssueHistory} {d : Date} {value key : String}

/-- What an index holds, it holds for one of the records, replayed alone. -/
theorem holds_replay_iff_singleton : (replay s request grouping issues).index.Holds value d key ↔
    ∃ raw ∈ replayed request issues,
      (replay s request grouping [raw]).index.Holds value d key := by
  constructor
  · intro h
    obtain ⟨rangeStart, hstart, today, htoday, raw, hraw, hkey, hp⟩ := holds_replay_iff.1 h
    refine ⟨raw, hraw, holds_replay_iff.2 ⟨rangeStart, hstart, today, htoday, raw, ?_, hkey, hp⟩⟩
    rw [replayed_singleton hraw]
    exact List.mem_singleton_self raw
  · rintro ⟨raw, hraw, h⟩
    obtain ⟨rangeStart, hstart, today, htoday, hkey, hp⟩ := holds_replay_singleton h
    exact holds_replay_iff.2 ⟨rangeStart, hstart, today, htoday, raw, hraw, hkey, hp⟩

theorem eq_of_holds_singleton {raw : IssueHistory} {v w : String}
    (hv : (replay s request grouping [raw]).index.Holds v d key)
    (hw : (replay s request grouping [raw]).index.Holds w d key) : v = w := by
  obtain ⟨rangeStart, hstart, today, htoday, -, hp⟩ := holds_replay_singleton hv
  exact hp.unique (placed_of_holds hstart htoday hw)

theorem display_of_holds_singleton {raw : IssueHistory}
    (h : (replay s request grouping [raw]).index.Holds value d key) : raw.issue.display = key := by
  obtain ⟨-, -, -, -, hkey, -⟩ := holds_replay_singleton h
  exact hkey

end

theorem eq_of_holds_iff (s : ClassificationSet) (request : ReplayRequest) (grouping : Grouping)
    (issues : List IssueHistory) (d : Date) (key : String) :
    (∀ v w, (replay s request grouping issues).index.Holds v d key →
      (replay s request grouping issues).index.Holds w d key → v = w) ↔
    ∀ x ∈ replayed request issues, ∀ y ∈ replayed request issues, x.issue.Clashes y.issue →
      ∀ v w, (replay s request grouping [x]).index.Holds v d key →
        (replay s request grouping [y]).index.Holds w d key → v = w := by
  constructor
  · intro h x hx y hy _ v w hv hw
    exact h v w (holds_replay_iff_singleton.2 ⟨x, hx, hv⟩)
      (holds_replay_iff_singleton.2 ⟨y, hy, hw⟩)
  · intro h v w hv hw
    obtain ⟨x, hx, hv⟩ := holds_replay_iff_singleton.1 hv
    obtain ⟨y, hy, hw⟩ := holds_replay_iff_singleton.1 hw
    have hkey : x.issue.display = y.issue.display :=
      (display_of_holds_singleton hv).trans (display_of_holds_singleton hw).symm
    rcases IssueRef.display_eq_iff.1 hkey with heq | hxy | hyx
    · obtain rfl := eq_of_mem_replayed hx hy heq
      exact eq_of_holds_singleton hv hw
    · exact h x hx y hy hxy v w hv hw
    · exact (h y hy x hx hyx w v hw hv).symm

/-- Two issues with the key "A/B/C". -/
def clashing : List IssueHistory :=
  [{ issue := ⟨"C", "A/B"⟩, log := [⟨"", "Open", "2024-01-01"⟩], created := "2024-01-01" },
    { issue := ⟨"B/C", "A"⟩, log := [⟨"", "Review", "2024-01-01"⟩], created := "2024-01-01" }]

/-- The first of January. -/
def oneDay : ReplayRequest := { rangeStart := some (january 1), today := some (january 1) }

theorem holds_clashing :
    (replay {} oneDay .byStatus clashing).index.Holds "Open" (january 1) "A/B/C" ∧
      (replay {} oneDay .byStatus clashing).index.Holds "Review" (january 1) "A/B/C" :=
  ⟨⟨.ofList ["A/B/C"], by decide +kernel, by decide +kernel⟩,
    .ofList ["A/B/C"], by decide +kernel, by decide +kernel⟩

end IssueFlow.Flow
