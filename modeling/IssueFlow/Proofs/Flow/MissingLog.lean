import IssueFlow.Proofs.Flow.Keys
import IssueFlow.Proofs.Flow.OpenIssues

/-!
# Missing logs

An issue without a log and an issue whose one entry is a blank status at the creation both hold the
open default, and they are placed on the same days (`openDays_congr`). The text of the value is not
always the same: the event that stands for an empty log is trimmed like any other status, while a
blank status is replaced by the open default as it is written. So a replay by field, which does not
show the status, does not tell the two issues apart, and a replay by status does where the open
default has blanks around it.

Main statement: `replay_missingLog_iff`.
-/

namespace IssueFlow.Flow

open IssueFlow.Text IssueFlow.Calendar IssueFlow.Tracker IssueFlow.Rules IssueFlow.Batch
  IssueFlow.Delivery

/-! ## Timelines of one event -/

/-- The days between two dates on which the value of an only event is tracked and not closed. -/
def openDays (c : Classification) (rangeStart today : Date) (e : Event) : List Date :=
  if rangeStart ≤ today ∧ e.time.date ≤ today ∧ c.isExcluded (c.normalize e.new) = false ∧
      c.isClosed (c.normalize e.new) = false then
    Date.upTo (max rangeStart e.time.date) today
  else []

section

variable {c : Classification} {h : ResolvedHistory} {e e' : Event} {rangeStart today : Date}
  {completed : Std.ExtTreeSet Date}

theorem segments_of_singleton (he : eventsOf c h = [e]) : segments c rangeStart today h =
    if rangeStart ≤ today ∧ e.time.date ≤ today then
      [⟨max rangeStart e.time.date, today, c.normalize e.new⟩]
    else [] := by
  rw [segments, valuesUntil, he]
  by_cases hr : rangeStart ≤ today
  · have hnot : ¬ today < rangeStart := Int.not_lt.2 hr
    rw [if_neg hnot]
    by_cases ht : e.time.date ≤ today
    · rw [if_pos ⟨hr, ht⟩, List.takeWhile_cons_of_pos (p := fun e : Event => e.time.date ≤ today)
        (decide_eq_true ht), List.takeWhile_nil, List.map_singleton,
        boundaries_eq_lastOfDay (List.pairwise_singleton _ _) fun p _ => .unstarted]
      rfl
    · rw [if_neg fun hboth => ht hboth.2, List.takeWhile_cons_of_neg (by simpa using ht)]
      rfl
  · have hlt : today < rangeStart := Int.not_le.1 hr
    rw [if_pos hlt, if_neg fun hboth => hr hboth.1]

theorem trackedSegments_of_singleton (he : eventsOf c h = [e]) :
    trackedSegments c rangeStart today h =
      if rangeStart ≤ today ∧ e.time.date ≤ today ∧ c.isExcluded (c.normalize e.new) = false then
        [⟨max rangeStart e.time.date, today, c.normalize e.new⟩]
      else [] := by
  rw [trackedSegments, segments_of_singleton he]
  by_cases hdates : rangeStart ≤ today ∧ e.time.date ≤ today
  · cases hx : c.isExcluded (c.normalize e.new) <;> simp [hdates, hx]
  · rw [if_neg hdates, if_neg fun hall => hdates ⟨hall.1, hall.2.1⟩]
    rfl

theorem statusPlacements_of_singleton (he : eventsOf c h = [e]) :
    statusPlacements c completed rangeStart today h =
      ((openDays c rangeStart today e).takeWhile fun d => !completed.contains d).map fun d =>
        (d, c.normalize e.new) := by
  rw [statusPlacements, trackedSegments_of_singleton he, openDays]
  by_cases htracked : rangeStart ≤ today ∧ e.time.date ≤ today ∧
      c.isExcluded (c.normalize e.new) = false
  · cases hc : c.isClosed (c.normalize e.new) <;>
      simp [htracked, hc, daysOf, List.takeWhile_map, Function.comp_def]
  · rw [if_neg htracked, if_neg fun hall => htracked ⟨hall.1, hall.2.1, hall.2.2.1⟩]
    rfl

theorem fieldPlacements_of_singleton {selector : FieldSelector} (he : eventsOf c h = [e]) :
    fieldPlacements c completed selector rangeStart today h =
      ((openDays c rangeStart today e).filter fun d => !completed.contains d).map fun d =>
        (d, selector.valueOf h) := by
  rw [fieldPlacements, trackedSegments_of_singleton he, openDays]
  by_cases htracked : rangeStart ≤ today ∧ e.time.date ≤ today ∧
      c.isExcluded (c.normalize e.new) = false
  · cases hc : c.isClosed (c.normalize e.new) <;>
      simp [htracked, hc, daysOf, List.filter_map, Function.comp_def]
  · rw [if_neg htracked, if_neg fun hall => htracked ⟨hall.1, hall.2.1, hall.2.2.1⟩]
    rfl

/-- The days depend on the time of the event and on its value under tracker equality. -/
theorem openDays_congr (ht : e.time = e'.time)
    (hkey : foldKey (c.normalize e.new) = foldKey (c.normalize e'.new)) :
    openDays c rangeStart today e = openDays c rangeStart today e' := by
  have hx : c.isExcluded (c.normalize e.new) = c.isExcluded (c.normalize e'.new) :=
    TextSet.holds_congr hkey
  rw [openDays, openDays, ht, hx, c.isClosed_congr hkey]

end

/-! ## Records that replay alike -/

/-- The records are of one issue, with one index alone and the same to report about them. -/
structure ReplayedAlike (s : ClassificationSet) (request : ReplayRequest) (grouping : Grouping)
    (x y : IssueHistory) : Prop where
  issue_eq : x.issue = y.issue
  index_eq : (replay s request grouping [x]).index = (replay s request grouping [y]).index
  diagnostics_eq : ∀ rangeStart today,
    (replayIssue s request.cycles grouping rangeStart today x).diagnostics =
      (replayIssue s request.cycles grouping rangeStart today y).diagnostics

section

variable {s : ClassificationSet} {request : ReplayRequest} {grouping : Grouping}
  {x y : IssueHistory} {issues issues' : List IssueHistory}

theorem ReplayedAlike.refl (x : IssueHistory) : ReplayedAlike s request grouping x x :=
  ⟨rfl, rfl, fun _ _ => rfl⟩

theorem index_replay_congr (h : List.Forall₂ (ReplayedAlike s request grouping) issues issues') :
    (replay s request grouping issues).index = (replay s request grouping issues').index := by
  have hunits : List.Forall₂ (ReplayedAlike s request grouping) (replayed request issues)
      (replayed request issues') :=
    forall₂_replayed (fun _ _ hxy => hxy.issue_eq) h
  refine (tidy_replay s request grouping _).ext (tidy_replay s request grouping _)
    fun value d key => ?_
  rw [holds_replay_iff_singleton, holds_replay_iff_singleton]
  generalize replayed request issues = xs at hunits
  generalize replayed request issues' = ys at hunits
  induction hunits with
  | nil => simp
  | cons hxy _ ih => simp only [List.mem_cons, exists_eq_or_imp, ih, hxy.index_eq]

theorem diagnostics_replay_congr
    (h : List.Forall₂ (ReplayedAlike s request grouping) issues issues') :
    (replay s request grouping issues).diagnostics =
      (replay s request grouping issues').diagnostics := by
  have hflat (f : IssueHistory → List Diagnostic) {xs ys : List IssueHistory}
      (hf : ∀ x y, ReplayedAlike s request grouping x y → f x = f y)
      (hxs : List.Forall₂ (ReplayedAlike s request grouping) xs ys) :
      xs.flatMap f = ys.flatMap f := by
    rw [← List.forall₂_eq_eq_eq]
    exact List.rel_flatMap hxs fun x y hxy => List.forall₂_eq_eq_eq ▸ hf x y hxy
  unfold replay
  split
  · have hunits := forall₂_admitted request.defectScope (fun _ _ hxy => hxy.issue_eq) h
    simp only [ReplayOutput.gather, zipWith_fanOut, List.flatMap_append, List.flatMap_map,
      hunits.length_eq]
    congr 2
    · refine hflat _ (fun x y hxy => ?_) (List.forall₂_take _ hunits)
      cases request.options.cancelled with
      | false => exact hxy.diagnostics_eq _ _
      | true => simp only [if_true, replayUnit, hxy.issue_eq]
    · refine hflat _ (fun x y hxy => ?_) (List.forall₂_drop _ hunits)
      simp only [replayUnit, hxy.issue_eq]
  · rfl

/-- Replacing one record by one that replays alike does not change what a batch returns. -/
theorem ReplayedAlike.replay_eq (h : ReplayedAlike s request grouping x y)
    (before after : List IssueHistory) :
    replay s request grouping (before ++ x :: after) =
      replay s request grouping (before ++ y :: after) := by
  have hbatch : List.Forall₂ (ReplayedAlike s request grouping) (before ++ x :: after)
      (before ++ y :: after) :=
    forall₂_append_cons .refl h before after
  have hindex := index_replay_congr hbatch
  have hdiagnostics := diagnostics_replay_congr hbatch
  cases hx : replay s request grouping (before ++ x :: after)
  cases hy : replay s request grouping (before ++ y :: after)
  rw [hx, hy] at hindex hdiagnostics
  exact congrArg₂ ReplayOutput.mk hindex hdiagnostics

end

/-! ## Records of one event -/

section

variable {s : ClassificationSet} {request : ReplayRequest} {cycles : Option CompletionCycles}
  {grouping : Grouping} {c : Classification} {raw : IssueHistory} {h : ResolvedHistory} {e : Event}
  {rangeStart today d : Date} {v key : String}

theorem diagnostics_replayIssue (hr : raw.resolve = .ok h) :
    (replayIssue s cycles grouping rangeStart today raw).diagnostics =
      if (s.get? raw.issue.project).isNone then [unclassified raw.issue.project] else [] := by
  unfold replayIssue
  rw [hr]

theorem placed_byStatus_iff (hc : classificationOf s raw.issue.project = c)
    (hr : raw.resolve = .ok h) (he : eventsOf c h = [e]) :
    Placed s cycles .byStatus rangeStart today raw d v ↔
      d ∈ (openDays c rangeStart today e).takeWhile
          (fun d => !(completedDays cycles raw.issue).contains d) ∧ c.normalize e.new = v := by
  rw [placed_iff hr, hc, placements, statusPlacements_of_singleton he, List.mem_map]
  simp only [Prod.mk.injEq]
  constructor
  · rintro ⟨d', hd, rfl, hv⟩
    exact ⟨hd, hv⟩
  · rintro ⟨hd, hv⟩
    exact ⟨d, hd, rfl, hv⟩

theorem eq_of_holds_byStatus (hc : classificationOf s raw.issue.project = c)
    (hr : raw.resolve = .ok h) (he : eventsOf c h = [e])
    (hh : (replay s request .byStatus [raw]).index.Holds v d key) : c.normalize e.new = v := by
  obtain ⟨rangeStart, -, today, -, -, hp⟩ := holds_replay_singleton hh
  exact ((placed_byStatus_iff hc hr he).1 hp).2

end

/-- Two records of one issue, each with a single event: the events are at one time, and their values
are one under tracker equality. -/
structure SameStart (c : Classification) (x y : IssueHistory) (hx hy : ResolvedHistory)
    (ex ey : Event) : Prop where
  issue_eq : x.issue = y.issue
  resolve_left : x.resolve = .ok hx
  resolve_right : y.resolve = .ok hy
  events_left : eventsOf c hx = [ex]
  events_right : eventsOf c hy = [ey]
  time_eq : ex.time = ey.time
  key_eq : foldKey (c.normalize ex.new) = foldKey (c.normalize ey.new)

namespace SameStart

variable {s : ClassificationSet} {request : ReplayRequest} {grouping : Grouping}
  {c : Classification} {x y : IssueHistory} {hx hy : ResolvedHistory} {ex ey : Event} {d : Date}
  {key : String}

theorem diagnostics_eq (h : SameStart c x y hx hy ex ey) (rangeStart today : Date) :
    (replayIssue s request.cycles grouping rangeStart today x).diagnostics =
      (replayIssue s request.cycles grouping rangeStart today y).diagnostics := by
  rw [diagnostics_replayIssue h.resolve_left, diagnostics_replayIssue h.resolve_right, h.issue_eq]

/-- By field the texts do not show. -/
theorem replayedAlike_byField {selector : FieldSelector} (h : SameStart c x y hx hy ex ey)
    (hc : classificationOf s x.issue.project = c)
    (hfield : selector.valueOf hx = selector.valueOf hy) :
    ReplayedAlike s request (.byField selector) x y where
  issue_eq := h.issue_eq
  index_eq := by
    refine (tidy_replay s request _ [x]).ext (tidy_replay s request _ [y]) fun v d key => ?_
    refine holds_replay_iff_of_forall₂ (.cons ⟨h.issue_eq, fun rangeStart today => ?_⟩ .nil)
    rw [placed_iff h.resolve_left, placed_iff h.resolve_right, ← h.issue_eq, hc, placements,
      placements, fieldPlacements_of_singleton h.events_left,
      fieldPlacements_of_singleton h.events_right, openDays_congr h.time_eq h.key_eq, hfield]
  diagnostics_eq := h.diagnostics_eq

/-- By status each record is placed under its own text, on the same days. -/
theorem holds_byStatus_iff (h : SameStart c x y hx hy ex ey)
    (hc : classificationOf s x.issue.project = c) :
    (replay s request .byStatus [x]).index.Holds (c.normalize ex.new) d key ↔
      (replay s request .byStatus [y]).index.Holds (c.normalize ey.new) d key := by
  refine holds_replay_iff_of_forall₂ (.cons ⟨h.issue_eq, fun rangeStart today => ?_⟩ .nil)
  rw [placed_byStatus_iff hc h.resolve_left h.events_left,
    placed_byStatus_iff (h.issue_eq ▸ hc) h.resolve_right h.events_right, h.issue_eq,
    openDays_congr h.time_eq h.key_eq, and_iff_left rfl, and_iff_left rfl]

theorem index_byStatus_eq_iff (h : SameStart c x y hx hy ex ey)
    (hc : classificationOf s x.issue.project = c) :
    (replay s request .byStatus [x]).index = (replay s request .byStatus [y]).index ↔
      c.normalize ex.new = c.normalize ey.new ∨ (replay s request .byStatus [x]).index = {} := by
  have htidy (issues : List IssueHistory) := tidy_replay s request .byStatus issues
  have hleft {v : String} {d : Date} {key : String}
      (hh : (replay s request .byStatus [x]).index.Holds v d key) : c.normalize ex.new = v :=
    eq_of_holds_byStatus hc h.resolve_left h.events_left hh
  have hright {v : String} {d : Date} {key : String}
      (hh : (replay s request .byStatus [y]).index.Holds v d key) : c.normalize ey.new = v :=
    eq_of_holds_byStatus (h.issue_eq ▸ hc) h.resolve_right h.events_right hh
  constructor
  · intro heq
    by_contra hne
    rw [not_or] at hne
    refine hne.2 ((htidy [x]).eq_empty fun v d key hh => ?_)
    exact hne.1 ((hleft hh).trans (hright (heq ▸ hh)).symm)
  · rintro (hvalue | hempty)
    · refine (htidy [x]).ext (htidy [y]) fun v d key => ⟨fun hh => ?_, fun hh => ?_⟩
      · obtain rfl := hleft hh
        rw [hvalue]
        exact (h.holds_byStatus_iff hc).1 hh
      · obtain rfl := hright hh
        rw [← hvalue]
        exact (h.holds_byStatus_iff hc).2 hh
    · rw [hempty]
      refine ((htidy [y]).eq_empty fun v d key hh => ?_).symm
      obtain rfl := hright hh
      rw [← h.holds_byStatus_iff hc, hempty] at hh
      exact FlowIndex.not_holds_empty hh

end SameStart

/-! ## A blank entry at the creation -/

section

variable {c : Classification} {raw : IssueHistory} {h : ResolvedHistory} {entry : StatusChange}
  {old blank : String} {rangeStart today : Date}

theorem eventsOf_of_nil (hnil : h.events = []) :
    eventsOf c h = [⟨"", c.openDefault, h.created⟩] :=
  if_pos (List.isEmpty_iff.2 hnil)

theorem segments_missingLog_iff (hopen : ¬ AllBlank c.openDefault) (hnil : h.events = [])
    (hblank : AllBlank blank) :
    segments c rangeStart today h =
        segments c rangeStart today { h with events := [⟨old, blank, h.created⟩] } ↔
      trim c.openDefault = c.openDefault ∨ today < rangeStart ∨ today < h.created.date := by
  have hentry : eventsOf c { h with events := [⟨old, blank, h.created⟩] } =
      [⟨old, blank, h.created⟩] := rfl
  have hlt (a b : Date) : ¬ a ≤ b ↔ b < a := Int.not_le
  rw [segments_of_singleton (eventsOf_of_nil hnil), segments_of_singleton hentry,
    c.normalize_of_not_allBlank hopen, c.normalize_of_allBlank hblank, ← hlt, ← hlt, ← not_and_or]
  by_cases hdates : rangeStart ≤ today ∧ h.created.date ≤ today
  · simp [hdates]
  · simp [hdates]

theorem resolve_entry (hr : raw.resolve = .ok h)
    (ht : Instant.ofRaw entry.timestamp = .ok h.created) :
    { raw with log := [entry] }.resolve =
      .ok { h with events := [⟨entry.old, entry.new, h.created⟩] } := by
  obtain ⟨created, events, hcreated, -, rfl⟩ := IssueHistory.resolve_eq_ok_iff.1 hr
  exact IssueHistory.resolve_eq_ok_iff.2 ⟨created, [⟨entry.old, entry.new, created⟩], hcreated,
    .cons ⟨ht, rfl, rfl⟩ .nil, rfl⟩

/-- The open default has one key in both of its texts. -/
theorem sameStart_entry (hopen : ¬ AllBlank c.openDefault) (hlog : raw.log = [])
    (hr : raw.resolve = .ok h) (ht : Instant.ofRaw entry.timestamp = .ok h.created)
    (hblank : AllBlank entry.new) :
    SameStart c raw { raw with log := [entry] } h
      { h with events := [⟨entry.old, entry.new, h.created⟩] } ⟨"", c.openDefault, h.created⟩
      ⟨entry.old, entry.new, h.created⟩ where
  issue_eq := rfl
  resolve_left := hr
  resolve_right := resolve_entry hr ht
  events_left := eventsOf_of_nil ((IssueHistory.events_eq_nil_iff hr).2 hlog)
  events_right := rfl
  time_eq := rfl
  key_eq := by rw [c.foldKey_normalize hopen, c.normalize_of_allBlank hblank]

end

theorem replay_missingLog_iff {c : Classification} (hvalid : c.validate = .ok ()) :
    (∀ (h : ResolvedHistory) (old blank : String) (rangeStart today : Date), h.events = [] →
      AllBlank blank →
      (segments c rangeStart today h =
          segments c rangeStart today { h with events := [⟨old, blank, h.created⟩] } ↔
        trim c.openDefault = c.openDefault ∨ today < rangeStart ∨ today < h.created.date)) ∧
    ∀ (s : ClassificationSet) (request : ReplayRequest) (raw : IssueHistory) (h : ResolvedHistory)
      (entry : StatusChange), classificationOf s raw.issue.project = c → raw.log = [] →
      raw.resolve = .ok h → Instant.ofRaw entry.timestamp = .ok h.created → AllBlank entry.new →
      (∀ selector before after,
        replay s request (.byField selector) (before ++ raw :: after) =
          replay s request (.byField selector) (before ++ { raw with log := [entry] } :: after)) ∧
      ((∀ before after,
        replay s request .byStatus (before ++ raw :: after) =
          replay s request .byStatus (before ++ { raw with log := [entry] } :: after)) ↔
        trim c.openDefault = c.openDefault ∨ (replay s request .byStatus [raw]).index = {}) := by
  obtain ⟨hopen, -⟩ := Classification.validate_eq_ok_iff.1 hvalid
  refine ⟨fun h old blank rangeStart today => segments_missingLog_iff hopen, ?_⟩
  intro s request raw h entry hc hlog hr ht hblank
  have hstart := sameStart_entry hopen hlog hr ht hblank
  constructor
  · intro selector
    have hfield : selector.valueOf h =
        selector.valueOf { h with events := [⟨entry.old, entry.new, h.created⟩] } := by
      cases selector <;> rfl
    exact (hstart.replayedAlike_byField hc hfield).replay_eq
  · have hindex : (replay s request .byStatus [raw]).index =
        (replay s request .byStatus [{ raw with log := [entry] }]).index ↔
          trim c.openDefault = c.openDefault ∨ (replay s request .byStatus [raw]).index = {} := by
      rw [hstart.index_byStatus_eq_iff hc, c.normalize_of_not_allBlank hopen,
        c.normalize_of_allBlank hblank]
    rw [← hindex]
    constructor
    · intro hall
      exact congrArg ReplayOutput.index (hall [] [])
    · intro hindex
      exact ReplayedAlike.replay_eq ⟨rfl, hindex, hstart.diagnostics_eq⟩

def neverMovedResolved : ResolvedHistory := ⟨⟨"T-1", "A"⟩, [], .startOf (january 1), none, []⟩

/-- A blank entry on the first of January. -/
def blankEntry : StatusChange := ⟨"", "\t ", "2024-01-01"⟩

theorem replay_missingLog_opensNew :
    opensNew.validate = .ok () ∧ ({} : Classification).validate = .ok () ∧
      neverMoved.resolve = .ok neverMovedResolved ∧
      Instant.ofRaw blankEntry.timestamp = .ok neverMovedResolved.created ∧
      AllBlank blankEntry.new ∧
      segments opensNew (january 2) (january 1) neverMovedResolved =
        segments opensNew (january 2) (january 1)
          { neverMovedResolved with events := [⟨"", "\t ", .startOf (january 1)⟩] } ∧
      (∀ before after,
        replay ⟨.ofList [("A", opensNew)]⟩ twoDays (.byField .priority)
            (before ++ neverMoved :: after) =
          replay ⟨.ofList [("A", opensNew)]⟩ twoDays (.byField .priority)
            (before ++ { neverMoved with log := [blankEntry] } :: after)) ∧
      ∀ before after,
        replay {} twoDays .byStatus (before ++ neverMoved :: after) =
          replay {} twoDays .byStatus
            (before ++ { neverMoved with log := [blankEntry] } :: after) := by
  have hpadded : opensNew.validate = .ok () := by decide +kernel
  have hplain : ({} : Classification).validate = .ok () := by decide +kernel
  have hr : neverMoved.resolve = .ok neverMovedResolved := by decide +kernel
  have ht : Instant.ofRaw blankEntry.timestamp = .ok neverMovedResolved.created := by
    decide +kernel
  have hblank : AllBlank blankEntry.new := by decide +kernel
  refine ⟨hpadded, hplain, hr, ht, hblank, ?_, ?_, ?_⟩
  · exact ((replay_missingLog_iff hpadded).1 _ _ _ _ _ rfl hblank).2
      (.inr (.inl (by decide +kernel)))
  · exact ((replay_missingLog_iff hpadded).2 _ twoDays neverMoved _ _ (by decide +kernel) rfl hr
      ht hblank).1 .priority
  · exact ((replay_missingLog_iff hplain).2 {} twoDays neverMoved _ _ (by decide +kernel) rfl hr
      ht hblank).2.2 (.inl (by decide +kernel))

theorem replay_neverMoved_ne_blankEntry :
    opensNew.validate = .ok () ∧ neverMoved.log = [] ∧
      neverMoved.resolve = .ok neverMovedResolved ∧
      Instant.ofRaw blankEntry.timestamp = .ok neverMovedResolved.created ∧
      AllBlank blankEntry.new ∧
      segments opensNew (january 1) (january 1) neverMovedResolved =
        [⟨january 1, january 1, "New"⟩] ∧
      segments opensNew (january 1) (january 1)
          { neverMovedResolved with events := [⟨"", "\t ", .startOf (january 1)⟩] } =
        [⟨january 1, january 1, " New "⟩] ∧
      (replay ⟨.ofList [("A", opensNew)]⟩ oneDay .byStatus [neverMoved]).index =
        FlowIndex.insert {} "New" (january 1) "A/T-1" ∧
      (replay ⟨.ofList [("A", opensNew)]⟩ oneDay .byStatus
          [{ neverMoved with log := [blankEntry] }]).index =
        FlowIndex.insert {} " New " (january 1) "A/T-1" ∧
      FlowIndex.insert {} "New" (january 1) "A/T-1" ≠
        FlowIndex.insert {} " New " (january 1) "A/T-1" :=
  ⟨by decide +kernel, rfl, by decide +kernel, by decide +kernel, by decide +kernel,
    by decide +kernel, by decide +kernel, by decide +kernel, by decide +kernel, by decide +kernel⟩

end IssueFlow.Flow
