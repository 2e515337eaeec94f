import IssueFlow.Proofs.Flow.Batch
import IssueFlow.Proofs.Flow.Segments
import IssueFlow.Proofs.Rules.Validation

/-!
# Issues that never leave the open default

An issue without an event, or with blank statuses only, has the open default as its value from its
first date on (`sameValue_of_dayValue?`). It gets there in two ways: as the text of the event that
stands for an empty log, which is trimmed, and as the replacement of a blank status, which is not.
Validation compares trimmed values, so neither text is closed, and the replay by status reports such
an issue on every date of the range (`holds_of_allBlank`).
-/

namespace IssueFlow.Flow

open IssueFlow.Text IssueFlow.Calendar IssueFlow.Tracker IssueFlow.Rules IssueFlow.Batch

section

variable {c : Classification} {h : ResolvedHistory} {d : Date} {v : String}

/-! ## Days with a value -/

theorem exists_of_dayValue? (hv : dayValue? c h d = some v) :
    ∃ e ∈ eventsOf c h, e.time.date ≤ d ∧ c.normalize e.new = v := by
  obtain ⟨e, he, hnormal⟩ := Option.map_eq_some_iff.1 hv
  obtain ⟨hmem, hd⟩ := List.mem_filter.1 (List.mem_of_getLast? he)
  exact ⟨e, hmem, of_decide_eq_true hd, hnormal⟩

theorem firstDate_le (asc : h.Ascending) : ∀ e ∈ eventsOf c h, h.firstDate ≤ e.time.date := by
  have hasc := ascending_eventsOf (c := c) asc
  have hhead := @head?_eventsOf c h
  cases hevents : eventsOf c h with
  | nil => exact List.forall_mem_nil _
  | cons e₀ events =>
    rw [hevents] at hasc hhead
    rw [← Option.some.inj hhead]
    exact List.forall_mem_cons.2 ⟨Date.le_refl _, (List.pairwise_cons.1 hasc).1⟩

/-- An issue has a value from its first date on. -/
theorem exists_dayValue?_iff (asc : h.Ascending) :
    (∃ v, dayValue? c h d = some v) ↔ h.firstDate ≤ d := by
  constructor
  · rintro ⟨v, hv⟩
    obtain ⟨e, he, hd, -⟩ := exists_of_dayValue? hv
    exact Date.le_trans (firstDate_le asc e he) hd
  · intro hd
    obtain ⟨e₀, he₀, hdate⟩ := Option.map_eq_some_iff.1 (@head?_eventsOf c h)
    have hmem : e₀ ∈ (eventsOf c h).filter fun e => e.time.date ≤ d :=
      List.mem_filter.2 ⟨List.mem_of_head? he₀, decide_eq_true (hdate ▸ hd)⟩
    exact ⟨_, congrArg (Option.map _) (List.getLast?_eq_some_getLast (List.ne_nil_of_mem hmem))⟩

/-! ## The open default -/

/-- The two texts of the open default are one value. -/
theorem sameValue_of_mem_eventsOf (hopen : ¬ AllBlank c.openDefault)
    (hblank : ∀ e ∈ h.events, AllBlank e.new) :
    ∀ e ∈ eventsOf c h, sameValue (c.normalize e.new) c.openDefault = true := by
  unfold eventsOf
  split
  · refine List.forall_mem_singleton.2 (sameValue_iff.2 ?_)
    exact c.foldKey_normalize hopen
  · intro e he
    rw [c.normalize_of_allBlank (hblank e he), sameValue_refl]

theorem sameValue_of_dayValue? (hopen : ¬ AllBlank c.openDefault)
    (hblank : ∀ e ∈ h.events, AllBlank e.new) (hv : dayValue? c h d = some v) :
    sameValue v c.openDefault = true := by
  obtain ⟨e, he, -, rfl⟩ := exists_of_dayValue? hv
  exact sameValue_of_mem_eventsOf hopen hblank e he

end

section

variable {text : String} {s : ClassificationSet} {c : Classification} {raw : IssueHistory}
  {h : ResolvedHistory} {rangeStart today d : Date} {v : String}

theorem allBlank_of_resolve (hr : raw.resolve = .ok h)
    (hblank : ∀ entry ∈ raw.log, AllBlank entry.new) : ∀ e ∈ h.events, AllBlank e.new := by
  intro e he
  obtain ⟨entry, hentry, -, -, hnew⟩ := IssueHistory.exists_reads_of_mem_events hr he
  rw [hnew]
  exact hblank entry hentry

theorem not_closedOn_of_allBlank (hopen : ¬ AllBlank c.openDefault)
    (hclosed : c.isClosed c.openDefault = false) (hblank : ∀ e ∈ h.events, AllBlank e.new) :
    ¬ ClosedOn c ∅ h d := by
  rintro ⟨v, hv, -, hc | hc⟩
  · have hkey := sameValue_iff.1 (sameValue_of_dayValue? hopen hblank hv)
    rw [c.isClosed_congr hkey, hclosed] at hc
    cases hc
  · exact Std.ExtTreeSet.not_mem_empty hc

theorem placed_iff_of_allBlank (hparse : ClassificationSet.parse text = .ok s)
    (hc : s.get? raw.issue.project = some c) (hr : raw.resolve = .ok h)
    (hblank : ∀ entry ∈ raw.log, AllBlank entry.new) (hx : c.isExcluded c.openDefault = false) :
    Placed s none .byStatus rangeStart today raw d v ↔
      rangeStart ≤ d ∧ d ≤ today ∧ d < Date.last ∧ dayValue? c h d = some v := by
  obtain ⟨hopen, hclosed⟩ := ClassificationSet.openDefault_of_parse hparse hc
  have hblank := allBlank_of_resolve hr hblank
  have hfound : classificationOf s raw.issue.project = c := by rw [classificationOf, hc]; rfl
  have htracked (hv : dayValue? c h d = some v) : c.isExcluded v = false := by
    rw [← hx]
    exact TextSet.holds_congr (sameValue_iff.1 (sameValue_of_dayValue? hopen hblank hv))
  rw [placed_iff hr, hfound]
  refine (mem_statusPlacements_iff (IssueHistory.ascending_of_resolve hr)).trans ⟨?_, ?_⟩
  · rintro ⟨hs, ht, hl, hv, -, -⟩
    exact ⟨hs, ht, hl, hv⟩
  · rintro ⟨hs, ht, hl, hv⟩
    exact ⟨hs, ht, hl, hv, htracked hv, fun e _ _ => not_closedOn_of_allBlank hopen hclosed hblank⟩

end

/-- An issue that never left its open default is placed under it on every day. In a batch another
issue may be shown as the same key, so where it is not placed is said of its replay alone. -/
theorem holds_of_allBlank {text : String} {s : ClassificationSet} {c : Classification}
    {raw : IssueHistory} {h : ResolvedHistory} {request : ReplayRequest} {rangeStart today : Date}
    {issues : List IssueHistory} (hparse : ClassificationSet.parse text = .ok s)
    (hc : s.get? raw.issue.project = some c) (hr : raw.resolve = .ok h)
    (hblank : ∀ entry ∈ raw.log, AllBlank entry.new) (hx : c.isExcluded c.openDefault = false)
    (hstart : request.rangeStart = some rangeStart) (htoday : request.today = some today)
    (hcycles : request.cycles = none) (hraw : raw ∈ replayed request issues) :
    (∀ d, max rangeStart h.firstDate ≤ d → d ≤ today → d < Date.last →
      ∃ v, sameValue v c.openDefault = true ∧
        (replay s request .byStatus issues).index.Holds v d raw.issue.display) ∧
    ∀ v d key, (replay s request .byStatus [raw]).index.Holds v d key →
      max rangeStart h.firstDate ≤ d ∧ d ≤ today ∧ sameValue v c.openDefault = true := by
  have asc := IssueHistory.ascending_of_resolve hr
  obtain ⟨hopen, -⟩ := ClassificationSet.openDefault_of_parse hparse hc
  have hvalue {d : Date} {v : String} (hv : dayValue? c h d = some v) :
      sameValue v c.openDefault = true :=
    sameValue_of_dayValue? hopen (allBlank_of_resolve hr hblank) hv
  have hmax (d : Date) : max rangeStart h.firstDate ≤ d ↔ rangeStart ≤ d ∧ h.firstDate ≤ d := by
    simp only [Date.le_def, Date.number_max]
    omega
  constructor
  · intro d hd ht hl
    obtain ⟨hs, hfirst⟩ := (hmax d).1 hd
    obtain ⟨v, hv⟩ := (exists_dayValue?_iff (c := c) asc).2 hfirst
    have hplaced := (placed_iff_of_allBlank hparse hc hr hblank hx).2 ⟨hs, ht, hl, hv⟩
    rw [← hcycles] at hplaced
    exact ⟨v, hvalue hv, holds_replay_iff.2
      ⟨rangeStart, hstart, today, htoday, raw, hraw, rfl, hplaced⟩⟩
  · intro v d key hh
    have hplaced := placed_of_holds hstart htoday hh
    rw [hcycles] at hplaced
    obtain ⟨hs, ht, -, hv⟩ := (placed_iff_of_allBlank hparse hc hr hblank hx).1 hplaced
    exact ⟨(hmax d).2 ⟨hs, (exists_dayValue?_iff asc).1 ⟨v, hv⟩⟩, ht, hvalue hv⟩

/-- A project whose open default has blanks around it. -/
def paddedDefault : String := "[projects.A]\nopen_default = ' New '\nclosed = ['Done', 'old']\n"

def opensNew : Classification := { openDefault := " New ", closed := .ofList ["Done", "old"] }

/-- An issue that was created on the first of January and never moved. -/
def neverMoved : IssueHistory where
  issue := ⟨"T-1", "A"⟩
  created := "2024-01-01"

/-- An issue whose status was left blank on the second of January. -/
def leftBlank : IssueHistory where
  issue := ⟨"T-2", "A"⟩
  log := [⟨"", "\t ", "2024-01-02"⟩]
  created := "2024-01-01"

theorem holds_of_allBlank_paddedDefault :
    ClassificationSet.parse paddedDefault = .ok ⟨.ofList [("A", opensNew)]⟩ ∧
      opensNew.isExcluded opensNew.openDefault = false ∧
      neverMoved.resolve = .ok ⟨⟨"T-1", "A"⟩, [], .startOf (january 1), none, []⟩ ∧
      leftBlank.resolve = .ok ⟨⟨"T-2", "A"⟩, [⟨"", "\t ", .startOf (january 2)⟩],
        .startOf (january 1), none, []⟩ ∧
      (∀ entry ∈ leftBlank.log, AllBlank entry.new) ∧
      (∃ v, sameValue v " New " = true ∧
        (replay ⟨.ofList [("A", opensNew)]⟩ twoDays .byStatus [neverMoved, leftBlank]).index.Holds v
          (january 1) "A/T-1") ∧
      ∃ v, sameValue v " New " = true ∧
        (replay ⟨.ofList [("A", opensNew)]⟩ twoDays .byStatus [neverMoved, leftBlank]).index.Holds v
          (january 2) "A/T-2" := by
  have hparse : ClassificationSet.parse paddedDefault = .ok ⟨.ofList [("A", opensNew)]⟩ := by
    decide +kernel
  have hx : opensNew.isExcluded opensNew.openDefault = false := by decide +kernel
  have hmoved : neverMoved.resolve =
      .ok ⟨⟨"T-1", "A"⟩, [], .startOf (january 1), none, []⟩ := by
    decide +kernel
  have hleft : leftBlank.resolve = .ok ⟨⟨"T-2", "A"⟩, [⟨"", "\t ", .startOf (january 2)⟩],
      .startOf (january 1), none, []⟩ := by
    decide +kernel
  have hblank : ∀ entry ∈ leftBlank.log, AllBlank entry.new := by decide +kernel
  have hstart : twoDays.rangeStart = some (january 1) := rfl
  have htoday : twoDays.today = some (january 2) := rfl
  have hcycles : twoDays.cycles = none := rfl
  refine ⟨hparse, hx, hmoved, hleft, hblank, ?_, ?_⟩
  · exact (holds_of_allBlank hparse (by decide +kernel) hmoved
      (List.forall_mem_nil _) hx hstart htoday hcycles (by decide +kernel)).1 (january 1)
      (by decide +kernel) (by decide +kernel) (by decide +kernel)
  · exact (holds_of_allBlank hparse (by decide +kernel) hleft
      hblank hx hstart htoday hcycles (by decide +kernel)).1 (january 2)
      (by decide +kernel) (by decide +kernel) (by decide +kernel)

end IssueFlow.Flow
