import IssueFlow.Proofs.Calendar.Instant
import IssueFlow.Proofs.Tracker.Resolve
import IssueFlow.Quality.Reopen
import Mathlib.Data.List.Induction
import Mathlib.Data.List.Pairwise

/-!
# Reopens and the closures before them

What a log records of closures is the last entry into each closed value (`getElem?_closures`). The
scan of a log asks at every event what the events before it record: it makes the transitions
`transitionAfter?`, in the order of the log (`detectReopens_eq_filterMap`).

A reopen clears nothing, so the closure that one reopen is dated back to may serve the next one
again. Closures never go back in time, and two reopens stand apart if every value that was closed
before the first is entered again before the second (`pairwise_detectReopens`).
-/

namespace IssueFlow.Quality

open IssueFlow.Calendar IssueFlow.Tracker

/-! ## Recorded closures -/

/-- Records an entry into a closed value. -/
def ReopenQuery.record (q : ReopenQuery) (entered : Std.ExtTreeMap String Instant) (e : Event) :
    Std.ExtTreeMap String Instant :=
  match q.closedValue? e.new with
  | some value => entered.insert value e.time
  | none => entered

/-- The last entry into each closed value. -/
def ReopenQuery.closures (q : ReopenQuery) (events : List Event) : Std.ExtTreeMap String Instant :=
  events.foldl q.record ∅

section

variable {q : ReopenQuery} {events before between : List Event} {e : Event} {value : String}
  {t : Instant}

theorem closures_concat : q.closures (before ++ [e]) = q.record (q.closures before) e := by
  rw [ReopenQuery.closures, List.foldl_append]
  rfl

theorem getElem?_closures (q : ReopenQuery) (events : List Event) (value : String) :
    (q.closures events)[value]? =
      (events.filter fun e => q.closedValue? e.new = some value).getLast?.map Event.time := by
  induction events using List.reverseRecOn with
  | nil => simp [ReopenQuery.closures]
  | append_singleton before e ih =>
    rw [closures_concat, ReopenQuery.record, List.filter_append]
    cases hv : q.closedValue? e.new with
    | none => simp [hv, ih]
    | some entered =>
      by_cases h : entered = value
      · simp [hv, h]
      · simp [hv, h, ih, Std.ExtTreeMap.getElem?_insert]

/-- A later entry takes the place of an earlier one. -/
theorem getElem?_closures_append : (q.closures (before ++ between))[value]? =
    (q.closures between)[value]?.or (q.closures before)[value]? := by
  simp only [getElem?_closures, List.filter_append, List.getLast?_append]
  cases (between.filter fun e => q.closedValue? e.new = some value).getLast? <;> rfl

theorem exists_mem_of_getElem?_closures (h : (q.closures events)[value]? = some t) :
    ∃ e ∈ events, q.closedValue? e.new = some value ∧ e.time = t := by
  rw [getElem?_closures] at h
  obtain ⟨e, he, rfl⟩ := Option.map_eq_some_iff.1 h
  obtain ⟨hmem, hv⟩ := List.mem_filter.1 (List.mem_of_getLast? he)
  exact ⟨e, hmem, of_decide_eq_true hv, rfl⟩

theorem getElem?_closures_eq_none_iff :
    (q.closures events)[value]? = none ↔ ∀ e ∈ events, q.closedValue? e.new ≠ some value := by
  simp [getElem?_closures]

/-- What is recorded stays as it is where no closed value is entered. -/
theorem closures_append_of_forall (h : ∀ e ∈ between, q.closedValue? e.new = none) :
    q.closures (before ++ between) = q.closures before := by
  refine Std.ExtTreeMap.ext_getElem? fun {value} => ?_
  rw [getElem?_closures_append]
  cases hv : (q.closures between)[value]? with
  | none => rfl
  | some t =>
    obtain ⟨e, he, hclosed, -⟩ := exists_mem_of_getElem?_closures hv
    rw [h e he] at hclosed
    cases hclosed

end

/-! ## The transitions of a log -/

/-- The events of a log, each with the ones before it. -/
def moments (before : List Event) : List Event → List (List Event × Event)
  | [] => []
  | e :: events => (before, e) :: moments (before ++ [e]) events

/-- The transition that an event makes after the events before it. -/
def ReopenQuery.transitionAfter? (q : ReopenQuery) (issue : IssueRef) (before : List Event)
    (e : Event) : Option ReopenTransition :=
  if q.closedValue? e.new = none ∧ q.isReopen e then transition? issue (q.closures before) e
  else none

section

variable {q : ReopenQuery} {issue : IssueRef} {events before : List Event} {e : Event}
  {m : List Event × Event} {a : ReopenTransition}

theorem exists_of_mem_moments (h : m ∈ moments before events) :
    ∃ past after, m.1 = before ++ past ∧ events = past ++ m.2 :: after := by
  induction events generalizing before with
  | nil => cases h
  | cons e events ih =>
    rcases List.mem_cons.1 h with rfl | h
    · exact ⟨[], events, (List.append_nil before).symm, rfl⟩
    · obtain ⟨past, after, hpast, rfl⟩ := ih h
      exact ⟨e :: past, after, by rw [hpast, List.append_assoc]; rfl, rfl⟩

theorem pairwise_moments (before events : List Event) :
    (moments before events).Pairwise fun x y => ∃ between, y.1 = x.1 ++ x.2 :: between := by
  induction events generalizing before with
  | nil => exact .nil
  | cons e events ih =>
    refine List.pairwise_cons.2 ⟨fun y hy => ?_, ih _⟩
    obtain ⟨past, -, hpast, -⟩ := exists_of_mem_moments hy
    exact ⟨past, by rw [hpast, List.append_assoc]; rfl⟩

theorem transitionAfter?_eq_some_iff : q.transitionAfter? issue before e = some a ↔
    q.closedValue? e.new = none ∧ q.isReopen e = true ∧
      (q.closures before).values.min? = some a.closedAt ∧ a.closedAt < e.time ∧
      a = ⟨issue, a.closedAt, e.time, a.closedAt.hoursTo e.time⟩ := by
  unfold ReopenQuery.transitionAfter? transition?
  split
  · next h =>
    cases hmin : (q.closures before).values.min? with
    | none => simp
    | some closedAt =>
      simp only [Option.bind_some, Option.ite_none_right_eq_some, Option.some.injEq]
      constructor
      · rintro ⟨hlt, rfl⟩
        exact ⟨h.1, h.2, rfl, hlt, rfl⟩
      · rintro ⟨-, -, rfl, hlt, ha⟩
        exact ⟨hlt, ha.symm⟩
  · next h =>
    simp only [reduceCtorEq, false_iff]
    rintro ⟨hclosed, hreopen, -⟩
    exact h ⟨hclosed, hreopen⟩

/-- No event after the window makes a transition. -/
theorem transitionAfter?_eq_none_of_lt (h : q.window.stop < e.time) :
    q.transitionAfter? issue before e = none := by
  refine if_neg fun ⟨_, hreopen⟩ => ?_
  rw [ReopenQuery.isReopen, Bool.and_eq_true, Window.contains_iff] at hreopen
  exact absurd h (Instant.not_lt.2 hreopen.2.2)

/-- From the first event after the window on, a log makes no transition. -/
theorem filterMap_moments_of_lt (asc : (e :: events).Pairwise fun x y => x.time ≤ y.time)
    (hlate : q.window.stop < e.time) :
    ((moments before (e :: events)).filterMap fun m => q.transitionAfter? issue m.1 m.2) = [] := by
  rw [List.filterMap_eq_nil_iff]
  intro m hm
  rcases List.mem_cons.1 hm with rfl | hm
  · exact transitionAfter?_eq_none_of_lt hlate
  · obtain ⟨past, after, -, rfl⟩ := exists_of_mem_moments hm
    have hle := (List.pairwise_cons.1 asc).1 m.2 (List.mem_append_right _ List.mem_cons_self)
    exact transitionAfter?_eq_none_of_lt (Instant.lt_of_lt_of_le hlate hle)

theorem scanReopens_eq_filterMap (asc : events.Pairwise fun x y => x.time ≤ y.time) :
    scanReopens issue q (q.closures before) events =
      (moments before events).filterMap fun m => q.transitionAfter? issue m.1 m.2 := by
  induction events generalizing before with
  | nil => rfl
  | cons e events ih =>
    have ih := @ih (before ++ [e]) (List.pairwise_cons.1 asc).2
    rw [closures_concat, ReopenQuery.record] at ih
    rw [scanReopens]
    split
    -- The scan ends at the first late event. The log has none but later events after it.
    · next hlate => exact (filterMap_moments_of_lt asc hlate).symm
    · rw [moments, List.filterMap_cons]
      cases hv : q.closedValue? e.new with
      | some value =>
        rw [hv] at ih
        have hnone : q.transitionAfter? issue before e = none := by
          simp [ReopenQuery.transitionAfter?, hv]
        rw [hnone]
        exact ih
      | none =>
        rw [hv] at ih
        have hopen : q.transitionAfter? issue before e =
            if q.isReopen e then transition? issue (q.closures before) e else none := by
          simp [ReopenQuery.transitionAfter?, hv]
        rw [hopen, ← ih]
        cases q.isReopen e with
        | false => rfl
        | true => cases transition? issue (q.closures before) e <;> rfl

/-- The transitions of a log are those that its events make, each after the events before it. -/
theorem detectReopens_eq_filterMap {h : ResolvedHistory} (asc : h.Ascending) :
    detectReopens q h =
      (moments [] h.events).filterMap fun m => q.transitionAfter? h.issue m.1 m.2 := by
  show scanReopens h.issue q (q.closures []) h.events = _
  exact scanReopens_eq_filterMap asc

end

/-! ## Two reopens -/

/-- What is settled about a reopen and a later one of the same log: the later one is not dated back
further. If no closed value is entered between the two, both are dated back to one closure. If all
that was recorded as closed before the first one is entered again in between, the second one is
dated back to no earlier time than the first reopen. -/
def Succeeds (q : ReopenQuery) (h : ResolvedHistory) (a b : ReopenTransition) : Prop :=
  ∃ before e between f after, h.events = before ++ e :: (between ++ f :: after) ∧
    q.transitionAfter? h.issue before e = some a ∧
    q.transitionAfter? h.issue (before ++ e :: between) f = some b ∧
    a.closedAt ≤ b.closedAt ∧
    ((∀ x ∈ between, q.closedValue? x.new = none) → b.closedAt = a.closedAt) ∧
    ((∀ value t, (q.closures before)[value]? = some t → t < a.reopenedAt →
        ∃ x ∈ between, q.closedValue? x.new = some value) →
      a.reopenedAt ≤ b.closedAt)

section

variable {q : ReopenQuery} {h : ResolvedHistory} {before between after : List Event} {e f : Event}
  {a b : ReopenTransition}

/-- A transition is dated back to the earliest of the recorded closures. -/
theorem closedAt_of_transitionAfter? (ha : q.transitionAfter? h.issue before e = some a) :
    (∃ value : String, (q.closures before)[value]? = some a.closedAt) ∧
      ∀ (value : String) t, (q.closures before)[value]? = some t → a.closedAt ≤ t :=
  min?_values_eq_some_iff.1 (transitionAfter?_eq_some_iff.1 ha).2.2.1

theorem reopenedAt_of_transitionAfter? (ha : q.transitionAfter? h.issue before e = some a) :
    a.closedAt < a.reopenedAt ∧ a.reopenedAt = e.time := by
  obtain ⟨-, -, -, hlt, heq⟩ := transitionAfter?_eq_some_iff.1 ha
  have htime : a.reopenedAt = e.time := congrArg ReopenTransition.reopenedAt heq
  exact ⟨htime ▸ hlt, htime⟩

/-- A closure that is recorded at a later reopen was entered since the first one, or recorded by
then and not entered again. -/
theorem getElem?_closures_between {value : String} {t : Instant} (asc : h.Ascending)
    (hlog : h.events = before ++ e :: (between ++ f :: after))
    (ht : (q.closures (before ++ e :: between))[value]? = some t) :
    e.time ≤ t ∨ (q.closures before)[value]? = some t ∧
      ∀ x ∈ between, q.closedValue? x.new ≠ some value := by
  rw [getElem?_closures_append] at ht
  cases hv : (q.closures (e :: between))[value]? with
  | some u =>
    rw [hv] at ht
    obtain rfl := Option.some.inj ht
    obtain ⟨x, hx, -, rfl⟩ := exists_mem_of_getElem?_closures hv
    rw [ResolvedHistory.Ascending, hlog, List.pairwise_append] at asc
    rcases List.mem_cons.1 hx with rfl | hx
    · exact .inl (Instant.le_refl _)
    · exact .inl ((List.pairwise_cons.1 asc.2.1).1 x (List.mem_append_left _ hx))
  | none =>
    rw [hv] at ht
    have hnone := getElem?_closures_eq_none_iff.1 hv
    exact .inr ⟨ht, fun x hx => hnone x (List.mem_cons_of_mem e hx)⟩

theorem succeeds_of_transitionAfter? (asc : h.Ascending)
    (hlog : h.events = before ++ e :: (between ++ f :: after))
    (ha : q.transitionAfter? h.issue before e = some a)
    (hb : q.transitionAfter? h.issue (before ++ e :: between) f = some b) : Succeeds q h a b := by
  obtain ⟨hlt, htime⟩ := reopenedAt_of_transitionAfter? ha
  obtain ⟨-, hfirst⟩ := closedAt_of_transitionAfter? ha
  obtain ⟨⟨value, hvalue⟩, -⟩ := closedAt_of_transitionAfter? hb
  have hsource := getElem?_closures_between asc hlog hvalue
  rw [← htime] at hsource
  refine ⟨before, e, between, f, after, hlog, ha, hb, ?_, fun hopen => ?_, fun hagain => ?_⟩
  · rcases hsource with hle | ⟨hold, -⟩
    · exact Instant.le_trans (Instant.le_of_lt hlt) hle
    · exact hfirst value b.closedAt hold
  · have hclosed := (transitionAfter?_eq_some_iff.1 ha).1
    have hsame : q.closures (before ++ e :: between) = q.closures before :=
      closures_append_of_forall (List.forall_mem_cons.2 ⟨hclosed, hopen⟩)
    have hmina := (transitionAfter?_eq_some_iff.1 ha).2.2.1
    have hminb := (transitionAfter?_eq_some_iff.1 hb).2.2.1
    rw [hsame, hmina] at hminb
    exact (Option.some.inj hminb).symm
  · rcases hsource with hle | ⟨hold, hnone⟩
    · exact hle
    · refine Instant.not_lt.1 fun hbefore => ?_
      obtain ⟨x, hx, hv⟩ := hagain value b.closedAt hold hbefore
      exact hnone x hx hv

end

theorem pairwise_detectReopens (q : ReopenQuery) {h : ResolvedHistory} (asc : h.Ascending) :
    (detectReopens q h).Pairwise (Succeeds q h) := by
  rw [detectReopens_eq_filterMap asc, List.pairwise_filterMap]
  refine (pairwise_moments [] h.events).imp_of_mem fun {x y} _ hy hxy a ha b hb => ?_
  obtain ⟨between, hbetween⟩ := hxy
  obtain ⟨past, after, hpast, hlog⟩ := exists_of_mem_moments hy
  rw [hpast, List.nil_append] at hbetween
  rw [hpast, List.nil_append, hbetween] at hb
  rw [hbetween, List.append_assoc] at hlog
  exact succeeds_of_transitionAfter? asc hlog ha hb

/-- A defect that is opened again after each of two closures. -/
def closedTwice : ResolvedHistory where
  issue := ⟨"D-1", "A"⟩
  events := [⟨"Open", "Closed", midnight 2⟩, ⟨"Closed", "Reopened", midnight 3⟩,
    ⟨"Reopened", "Closed", midnight 4⟩, ⟨"Closed", "Reopened", midnight 5⟩]
  created := midnight 1
  priority := none
  rootCauses := []

/-- A defect that is opened again, goes on and is opened once more, all after one closure. -/
def closedOnce : ResolvedHistory where
  issue := ⟨"D-1", "A"⟩
  events := [⟨"Open", "Closed", midnight 2⟩, ⟨"Closed", "Reopened", midnight 3⟩,
    ⟨"Reopened", "Review", midnight 4⟩, ⟨"Review", "Reopened", midnight 5⟩]
  created := midnight 1
  priority := none
  rootCauses := []

/-- All of January, with one closed status. -/
def wholeJanuary : ReopenQuery where
  window := ⟨midnight 1, midnight 31⟩
  closed := .ofList ["Closed"]
  reopen := "Reopened"

theorem pairwise_detectReopens_closedTwice :
    closedTwice.Ascending ∧
      (detectReopens wholeJanuary closedTwice).map (fun t => (t.closedAt, t.reopenedAt)) =
        [(midnight 2, midnight 3), (midnight 4, midnight 5)] ∧
      (detectReopens wholeJanuary closedTwice).Pairwise (Succeeds wholeJanuary closedTwice) := by
  have asc : closedTwice.Ascending := by
    unfold ResolvedHistory.Ascending
    decide +kernel
  exact ⟨asc, by decide +kernel, pairwise_detectReopens wholeJanuary asc⟩

theorem detectReopens_closedOnce :
    closedOnce.Ascending ∧
      (detectReopens wholeJanuary closedOnce).map (fun t => (t.closedAt, t.reopenedAt)) =
        [(midnight 2, midnight 3), (midnight 2, midnight 5)] ∧
      midnight 2 < midnight 3 := by
  unfold ResolvedHistory.Ascending
  decide +kernel

end IssueFlow.Quality
