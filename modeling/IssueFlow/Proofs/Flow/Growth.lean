import IssueFlow.Proofs.Flow.Batch

/-!
# Growing logs

A log only grows, and what it tells about a day is settled by the entries up to that day: an entry
of a later day, wherever it stands in the log, changes nothing that a replay reports up to then
(`issuesOn?_replay_insert`). An empty log is the exception. It stands for the open default from the
creation on, and its first entry puts an end to that: the issue then starts with the entry.
-/

namespace IssueFlow.Flow

open IssueFlow.Calendar IssueFlow.Tracker IssueFlow.Rules IssueFlow.Delivery

section

variable {c : Classification} {h : ResolvedHistory} {d : Date} {events : List Event} {e₀ : Event}

theorem dayValue?_of_events_ne_nil (hne : h.events ≠ []) : dayValue? c h d =
    (h.events.filter fun e => e.time.date ≤ d).getLast?.map fun e => c.normalize e.new := by
  rw [dayValue?, eventsOf, if_neg (by simpa using hne)]

theorem dayValue?_eq_none_of_lt (hnil : h.events = []) (hd : d < h.created.date) :
    dayValue? c h d = none := by
  have hlt : ¬ h.created.date ≤ d := Int.not_le.2 hd
  simp [dayValue?, eventsOf, hnil, hlt]

/-- An event after a day does not change the value at its end, unless it is the first of an issue
that was created by then. -/
theorem dayValue?_insert (hne : events ≠ []) (he₀ : d < e₀.time.date)
    (hfilter : ∀ p : Event → Bool, p e₀ = false → events.filter p = h.events.filter p)
    (hstart : h.events ≠ [] ∨ d < h.created.date) :
    dayValue? c { h with events } d = dayValue? c h d := by
  have hlate : decide (e₀.time.date ≤ d) = false := decide_eq_false (Int.not_le.2 he₀)
  rw [dayValue?_of_events_ne_nil (h := { h with events }) hne,
    hfilter (fun e => e.time.date ≤ d) hlate]
  by_cases hnil : h.events = []
  · rw [dayValue?_eq_none_of_lt hnil (hstart.resolve_left fun hx => hx hnil), hnil]
    rfl
  · rw [dayValue?_of_events_ne_nil hnil]

/-- With its first event, an issue has no value before that event. -/
theorem dayValue?_insert_nil (hne : events ≠ []) (he₀ : d < e₀.time.date)
    (hfilter : ∀ p : Event → Bool, p e₀ = false → events.filter p = h.events.filter p)
    (hnil : h.events = []) : dayValue? c { h with events } d = none := by
  have hlate : decide (e₀.time.date ≤ d) = false := decide_eq_false (Int.not_le.2 he₀)
  rw [dayValue?_of_events_ne_nil (h := { h with events }) hne,
    hfilter (fun e => e.time.date ≤ d) hlate, hnil]
  rfl

theorem not_mem_placements_of_dayValue? {grouping : Grouping} {completed : Std.ExtTreeSet Date}
    {rangeStart today : Date} {v : String} (asc : h.Ascending) (hd : dayValue? c h d = none) :
    (d, v) ∉ placements c completed grouping rangeStart today h := by
  cases grouping with
  | byStatus =>
    rw [placements, mem_statusPlacements_iff asc, hd]
    rintro ⟨-, -, -, hv, -⟩
    cases hv
  | byField selector =>
    rw [placements, mem_fieldPlacements_iff asc, hd]
    rintro ⟨-, -, -, -, w, hw, -⟩
    cases hw

end

section

variable {s : ClassificationSet} {cycles : Option CompletionCycles} {grouping : Grouping}
  {raw : IssueHistory} {h : ResolvedHistory} {pre post : List StatusChange} {entry : StatusChange}
  {t : Instant} {rangeStart today d : Date} {value : String}

theorem placedAlike_insert (hlog : raw.log = pre ++ post) (hr : raw.resolve = .ok h)
    (ht : Instant.ofRaw entry.timestamp = .ok t) (hd : d < t.date)
    (hstart : raw.log ≠ [] ∨ d < h.created.date) :
    PlacedAlike s cycles grouping d { raw with log := pre ++ entry :: post } raw where
  issue_eq := rfl
  placed_iff rangeStart today value := by
    obtain ⟨events, hgrown, hne, hfilter⟩ := IssueHistory.resolve_insert hlog hr ht
    rw [placed_iff hr, placed_iff hgrown]
    refine mem_placements_congr (IssueHistory.ascending_of_resolve hr)
      (IssueHistory.ascending_of_resolve hgrown) (fun selector => ?_) fun e he => ?_
    · cases selector <;> rfl
    · have hstart : h.events ≠ [] ∨ d < h.created.date :=
        hstart.imp_left fun hlog => mt (IssueHistory.events_eq_nil_iff hr).1 hlog
      exact dayValue?_insert hne (Date.lt_of_le_of_lt he hd) hfilter
        (hstart.imp_right (Date.lt_of_le_of_lt he))

/-- With its first entry, an issue is not placed before that entry. -/
theorem not_placed_insert_nil (hlog : raw.log = pre ++ post) (hr : raw.resolve = .ok h)
    (ht : Instant.ofRaw entry.timestamp = .ok t) (hd : d < t.date) (hnil : raw.log = []) :
    ¬ Placed s cycles grouping rangeStart today { raw with log := pre ++ entry :: post } d value := by
  obtain ⟨events, hgrown, hne, hfilter⟩ := IssueHistory.resolve_insert hlog hr ht
  rw [placed_iff hgrown]
  exact not_mem_placements_of_dayValue? (IssueHistory.ascending_of_resolve hgrown)
    (dayValue?_insert_nil hne hd hfilter ((IssueHistory.events_eq_nil_iff hr).2 hnil))

end

theorem issuesOn?_replay_insert (s : ClassificationSet) (request : ReplayRequest)
    (grouping : Grouping) (before after : List IssueHistory) {raw : IssueHistory}
    {h : ResolvedHistory} {pre post : List StatusChange} {entry : StatusChange} {t : Instant}
    {d : Date} (hlog : raw.log = pre ++ post) (hr : raw.resolve = .ok h)
    (ht : Instant.ofRaw entry.timestamp = .ok t) (hd : d < t.date) :
    (raw.log ≠ [] ∨ d < h.created.date → ∀ e ≤ d, ∀ value,
      (replay s request grouping
          (before ++ { raw with log := pre ++ entry :: post } :: after)).index.issuesOn? value e =
        (replay s request grouping (before ++ raw :: after)).index.issuesOn? value e) ∧
    (raw.log = [] → ∀ e ≤ d, ∀ value,
      (replay s request grouping [{ raw with log := pre ++ entry :: post }]).index.issuesOn? value e =
        none) := by
  constructor
  · intro hstart e he value
    have hlate : e < t.date := Date.lt_of_le_of_lt he hd
    exact issuesOn?_replay_congr (placedAlike_insert hlog hr ht hlate
      (hstart.imp_right (Date.lt_of_le_of_lt he))) before after
  · intro hnil e he value
    have hlate : e < t.date := Date.lt_of_le_of_lt he hd
    exact issuesOn?_replay_eq_none fun _ _ _ => not_placed_insert_nil hlog hr ht hlate hnil

/-- An issue that was created on the first of January and never moved. -/
def untouched : IssueHistory where
  issue := ⟨"T-1", "A"⟩
  log := []
  created := "2024-01-01"

def untouchedResolved : ResolvedHistory := ⟨⟨"T-1", "A"⟩, [], .startOf (january 1), none, []⟩

def opened : StatusChange := ⟨"", "Open", "2024-01-01"⟩

def reviewed : StatusChange := ⟨"Open", "Review", "2024-01-04"⟩

/-- The first three days of January. -/
def threeDays : ReplayRequest := { rangeStart := some (january 1), today := some (january 3) }

theorem issuesOn?_replay_reviewed :
    (∀ e ≤ january 3, ∀ value,
      (replay {} threeDays .byStatus [{ untouched with log := [opened, reviewed] }]).index.issuesOn?
          value e =
        (replay {} threeDays .byStatus [{ untouched with log := [opened] }]).index.issuesOn?
          value e) ∧
    ∀ e ≤ january 3, ∀ value,
      (replay {} threeDays .byStatus [{ untouched with log := [reviewed] }]).index.issuesOn?
        value e = none := by
  have ht : Instant.ofRaw reviewed.timestamp = .ok (.startOf (january 4)) := by decide +kernel
  have hd : january 3 < (Instant.startOf (january 4)).date := by decide +kernel
  constructor
  · have hlog : { untouched with log := [opened] }.log = [opened] ++ [] := rfl
    have hr : { untouched with log := [opened] }.resolve =
        .ok { untouchedResolved with events := [⟨"", "Open", .startOf (january 1)⟩] } := by
      decide +kernel
    exact (issuesOn?_replay_insert {} threeDays .byStatus [] [] hlog hr ht hd).1 (.inl (by decide))
  · have hlog : untouched.log = [] ++ [] := rfl
    have hr : untouched.resolve = .ok untouchedResolved := by decide +kernel
    exact (issuesOn?_replay_insert {} threeDays .byStatus [] [] hlog hr ht hd).2 rfl

theorem not_holds_untouched_reviewed :
    untouched.resolve = .ok untouchedResolved ∧
      Instant.ofRaw reviewed.timestamp = .ok (.startOf (january 4)) ∧
      (replay {} threeDays .byStatus [untouched]).index.Holds "Open" (january 3) "A/T-1" ∧
      ¬ (replay {} threeDays .byStatus [{ untouched with log := [reviewed] }]).index.Holds "Open"
        (january 3) "A/T-1" := by
  refine ⟨by decide +kernel, by decide +kernel, ⟨.ofList ["A/T-1"], by decide +kernel,
    by decide +kernel⟩, ?_⟩
  rintro ⟨keys, hkeys, -⟩
  have hnone : (replay {} threeDays .byStatus [{ untouched with log := [reviewed] }]).index.issuesOn?
      "Open" (january 3) = none := by decide +kernel
  rw [hnone] at hkeys
  cases hkeys

end IssueFlow.Flow
