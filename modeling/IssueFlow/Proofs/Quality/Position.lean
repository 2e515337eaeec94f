import IssueFlow.Proofs.Quality.Reopen

/-!
# The positions of the reopens

An event is a reopen if it enters the reopen status, and no closed one, in the window, and lies
after the closure that it ends (`ReopensAt`). Closed values that a tracker cannot tell apart are one
status, and of the entries into a status the last one before the reopen counts (`LastEntry`); the
earliest of these, over all closed statuses, dates the closure (`ClosedSince`). A log has one
transition for each position of a reopen, in the order of the positions (`detectReopens_positions`).
-/

namespace IssueFlow.Quality

open IssueFlow.Text IssueFlow.Calendar IssueFlow.Tracker

/-! ## Last entries -/

/-- Of the events, this one is the last to enter the status of a value. -/
def LastEntry (value : String) (events : List Event) (e : Event) : Prop :=
  ∃ before after, events = before ++ e :: after ∧ sameValue value e.new = true ∧
    ∀ f ∈ after, sameValue value f.new = false

/-- Over the closed statuses that the events enter, the earliest last entry is at this time. -/
structure ClosedSince (q : ReopenQuery) (events : List Event) (t : Instant) : Prop where
  entered : ∃ value ∈ q.closed, ∃ e, LastEntry value events e ∧ e.time = t
  earliest : ∀ value ∈ q.closed, ∀ e, LastEntry value events e → t ≤ e.time

section

variable {q : ReopenQuery} {events : List Event} {e : Event} {a b status value : String}
  {t : Instant}

theorem closedValue?_congr (h : sameValue a b = true) : q.closedValue? a = q.closedValue? b := by
  simp only [ReopenQuery.closedValue?, sameValue, sameValue_iff.1 h]

theorem closedValue?_eq_none_iff_forall :
    q.closedValue? status = none ↔ ∀ value ∈ q.closed, sameValue value status = false := by
  simp [ReopenQuery.closedValue?]

theorem closedValue?_spec (h : q.closedValue? status = some value) :
    value ∈ q.closed ∧ sameValue value status = true := by
  unfold ReopenQuery.closedValue? at h
  have hsame := List.find?_some h
  exact ⟨Std.ExtTreeSet.mem_toList.1 (List.mem_of_find?_eq_some h), hsame⟩

theorem exists_closedValue? (hvalue : value ∈ q.closed) (h : sameValue value status = true) :
    ∃ v, q.closedValue? status = some v := by
  rw [← Option.ne_none_iff_exists', Ne, closedValue?_eq_none_iff_forall]
  intro hnone
  rw [hnone value hvalue] at h
  cases h

/-- The recorded closures are the last entries into the closed statuses. -/
theorem exists_closures_iff : (∃ v : String, (q.closures events)[v]? = some t) ↔
    ∃ value ∈ q.closed, ∃ e, LastEntry value events e ∧ e.time = t := by
  simp only [getElem?_closures, Option.map_eq_some_iff, Order.getLast?_filter_eq_some_iff,
    decide_eq_true_eq, decide_eq_false_iff_not]
  constructor
  · rintro ⟨v, e, ⟨before, after, hevents, hv, hafter⟩, ht⟩
    obtain ⟨hmem, hsame⟩ := closedValue?_spec hv
    refine ⟨v, hmem, e, ⟨before, after, hevents, hsame, fun f hf => ?_⟩, ht⟩
    refine Bool.eq_false_iff.2 fun hsame' => hafter f hf ?_
    rw [sameValue_comm] at hsame'
    rw [closedValue?_congr (sameValue_trans hsame' hsame), hv]
  · rintro ⟨value, hmem, e, ⟨before, after, hevents, hsame, hafter⟩, ht⟩
    obtain ⟨v, hv⟩ := exists_closedValue? hmem hsame
    refine ⟨v, e, ⟨before, after, hevents, hv, fun f hf hvf => ?_⟩, ht⟩
    have hback := (closedValue?_spec hv).2
    rw [sameValue_comm] at hback
    have hsame' := sameValue_trans (sameValue_trans hsame hback) (closedValue?_spec hvf).2
    rw [hafter f hf] at hsame'
    cases hsame'

theorem min?_closures_eq_some_iff :
    (q.closures events).values.min? = some t ↔ ClosedSince q events t := by
  have hrecorded (u : Instant) := @exists_closures_iff q events u
  rw [min?_values_eq_some_iff, hrecorded]
  constructor
  · rintro ⟨hentered, hearliest⟩
    refine ⟨hentered, fun value hvalue e he => ?_⟩
    obtain ⟨v, hv⟩ := (hrecorded e.time).2 ⟨value, hvalue, e, he, rfl⟩
    exact hearliest v e.time hv
  · rintro ⟨hentered, hearliest⟩
    refine ⟨hentered, fun v u hv => ?_⟩
    obtain ⟨value, hvalue, e, he, rfl⟩ := (hrecorded u).1 ⟨v, hv⟩
    exact hearliest value hvalue e he

end

/-! ## Positions -/

/-- The event at a position of the log is a reopen, and what it reopens is closed since an earlier
time. -/
structure ReopensAt (q : ReopenQuery) (events : List Event) (i : Nat) (e : Event)
    (closedAt : Instant) : Prop where
  placed : events[i]? = some e
  entersReopen : sameValue e.new q.reopen = true
  entersNoClosed : ∀ value ∈ q.closed, sameValue value e.new = false
  inWindow : q.window.contains e.time = true
  closedSince : ClosedSince q (events.take i) closedAt
  closed_lt : closedAt < e.time

/-- The transition that the event at a position of the log makes. -/
def ReopenQuery.transitionAt? (q : ReopenQuery) (h : ResolvedHistory) (i : Nat) :
    Option ReopenTransition :=
  h.events[i]?.bind (q.transitionAfter? h.issue (h.events.take i))

section

variable {q : ReopenQuery} {h : ResolvedHistory} {i : Nat} {a : ReopenTransition}

theorem filterMap_moments {α : Type} (f : List Event → Event → Option α)
    (before events : List Event) : ((moments before events).filterMap fun m => f m.1 m.2) =
      (List.range events.length).filterMap fun i =>
        events[i]?.bind (f (before ++ events.take i)) := by
  induction events generalizing before with
  | nil => rfl
  | cons e events ih =>
    rw [moments, List.length_cons, List.range_succ_eq_map, List.filterMap_cons,
      List.filterMap_cons, List.filterMap_map, ih]
    simp only [List.take_zero, List.append_nil, List.getElem?_cons_zero, Option.bind_some,
      Function.comp_def, List.take_succ_cons, List.getElem?_cons_succ, List.append_assoc,
      List.singleton_append]

theorem detectReopens_eq_transitionAt? (asc : h.Ascending) :
    detectReopens q h = (List.range h.events.length).filterMap (q.transitionAt? h) := by
  rw [detectReopens_eq_filterMap asc, filterMap_moments]
  rfl

theorem transitionAt?_eq_some_iff : q.transitionAt? h i = some a ↔
    ∃ e closedAt, ReopensAt q h.events i e closedAt ∧
      a = ⟨h.issue, closedAt, e.time, closedAt.hoursTo e.time⟩ := by
  simp only [ReopenQuery.transitionAt?, Option.bind_eq_some_iff, transitionAfter?_eq_some_iff,
    closedValue?_eq_none_iff_forall, min?_closures_eq_some_iff, ReopenQuery.isReopen,
    Bool.and_eq_true]
  constructor
  · rintro ⟨e, hplaced, hclosed, ⟨hreopen, hwindow⟩, hsince, hlt, ha⟩
    exact ⟨e, a.closedAt, ⟨hplaced, hreopen, hclosed, hwindow, hsince, hlt⟩, ha⟩
  · rintro ⟨e, closedAt, ⟨hplaced, hreopen, hclosed, hwindow, hsince, hlt⟩, rfl⟩
    exact ⟨e, hplaced, hclosed, ⟨hreopen, hwindow⟩, hsince, hlt, rfl⟩

theorem lt_length_of_transitionAt? (ha : q.transitionAt? h i = some a) : i < h.events.length := by
  obtain ⟨e, closedAt, hreopen, -⟩ := transitionAt?_eq_some_iff.1 ha
  exact (List.getElem?_eq_some_iff.1 hreopen.placed).1

end

theorem detectReopens_positions (q : ReopenQuery) {h : ResolvedHistory} (asc : h.Ascending) :
    ∃ positions : List Nat, positions.Pairwise (· < ·) ∧
      (∀ i, i ∈ positions ↔ ∃ e closedAt, ReopensAt q h.events i e closedAt) ∧
      List.Forall₂ (fun i a => ∃ e closedAt, ReopensAt q h.events i e closedAt ∧
        a = ⟨h.issue, closedAt, e.time, closedAt.hoursTo e.time⟩) positions
          (detectReopens q h) := by
  refine ⟨(List.range h.events.length).filter fun i => (q.transitionAt? h i).isSome,
    List.pairwise_lt_range.filter _, fun i => ?_, ?_⟩
  · rw [List.mem_filter, List.mem_range, Option.isSome_iff_exists]
    constructor
    · rintro ⟨-, a, ha⟩
      obtain ⟨e, closedAt, hreopen, -⟩ := transitionAt?_eq_some_iff.1 ha
      exact ⟨e, closedAt, hreopen⟩
    · rintro ⟨e, closedAt, hreopen⟩
      have ha := transitionAt?_eq_some_iff.2 ⟨e, closedAt, hreopen, rfl⟩
      exact ⟨lt_length_of_transitionAt? ha, _, ha⟩
  · rw [detectReopens_eq_transitionAt? asc]
    refine (Order.forall₂_filterMap (q.transitionAt? h) (List.range h.events.length)).imp ?_
    exact fun i a ha => transitionAt?_eq_some_iff.1 ha

/-- A defect that is closed under two statuses, the first of them twice in different writing, and
then opened again. -/
def closedUnderTwo : ResolvedHistory where
  issue := ⟨"D-1", "A"⟩
  events := [⟨"Open", "Closed", midnight 2⟩, ⟨"Closed", "Done", midnight 3⟩,
    ⟨"Done", " CLOSED", midnight 4⟩, ⟨" CLOSED", "reopened", midnight 4⟩,
    ⟨"reopened", "Review", midnight 6⟩]
  created := midnight 1
  priority := none
  rootCauses := []

/-- All of January, with two closed statuses. -/
def twoClosed : ReopenQuery := { wholeJanuary with closed := .ofList ["Closed", "closed", "Done"] }

theorem detectReopens_positions_closedUnderTwo :
    closedUnderTwo.Ascending ∧
      (detectReopens twoClosed closedUnderTwo).map (fun a => (a.closedAt, a.reopenedAt)) =
        [(midnight 3, midnight 4)] ∧
      ∃ positions : List Nat, positions.Pairwise (· < ·) ∧
        (∀ i, i ∈ positions ↔
          ∃ e closedAt, ReopensAt twoClosed closedUnderTwo.events i e closedAt) ∧
        List.Forall₂ (fun i a => ∃ e closedAt,
            ReopensAt twoClosed closedUnderTwo.events i e closedAt ∧
              a = ⟨⟨"D-1", "A"⟩, closedAt, e.time, closedAt.hoursTo e.time⟩) positions
          (detectReopens twoClosed closedUnderTwo) := by
  have asc : closedUnderTwo.Ascending := by
    unfold ResolvedHistory.Ascending
    decide +kernel
  exact ⟨asc, by decide +kernel, detectReopens_positions twoClosed asc⟩

end IssueFlow.Quality
