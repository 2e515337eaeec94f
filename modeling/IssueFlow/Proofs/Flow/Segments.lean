import IssueFlow.Proofs.Calendar.Instant
import IssueFlow.Proofs.Flow.Timeline
import Mathlib.Data.List.Chain

/-!
# The segments of a timeline

The segments of an issue tile the dates from the start of the range, or the first event if that
comes later, to the last date of the range: they meet without gap or overlap, and each holds on its
dates the value at the end of the day (`tiles_segments`). Unlike the days that a replay walks, the
dates of a segment may include the last date of the calendar.
-/

namespace IssueFlow.Tracker

open IssueFlow.Calendar

/-- The date of the first event, or of the creation if there is no event. -/
def ResolvedHistory.firstDate (h : ResolvedHistory) : Date :=
  ((h.events.head?.map Event.time).getD h.created).date

end IssueFlow.Tracker

namespace IssueFlow.Flow

open IssueFlow.Calendar IssueFlow.Rules IssueFlow.Tracker

/-- The segments run from the first date to the last one, each from the day after the one before it,
and have the values of their dates. -/
structure Tiles (ss : List Segment) (first last : Date) (value? : Date → Option String) : Prop where
  first_eq : ss.head?.map Segment.first = some first
  last_eq : ss.getLast?.map Segment.last = some last
  first_le_last : ∀ s ∈ ss, s.first ≤ s.last
  joined : ss.IsChain fun s t => t.first.number = s.last.number + 1
  value_eq : ∀ s ∈ ss, ∀ d, s.first ≤ d → d ≤ s.last → value? d = some s.value

section

variable {ss : List Segment} {s : Segment} {first next last today : Date} {value : String}
  {value? value?' : Date → Option String} {ps : List (Date × String)}

theorem Tiles.singleton (hle : s.first ≤ s.last)
    (hvalue : ∀ d, s.first ≤ d → d ≤ s.last → value? d = some s.value) :
    Tiles [s] s.first s.last value? where
  first_eq := rfl
  last_eq := rfl
  first_le_last := by simpa using hle
  joined := .singleton s
  value_eq := by simpa using hvalue

theorem Tiles.cons (h : Tiles ss next last value?) (hle : s.first ≤ s.last)
    (hnext : next.number = s.last.number + 1)
    (hvalue : ∀ d, s.first ≤ d → d ≤ s.last → value?' d = some s.value)
    (hlater : ∀ t ∈ ss, ∀ d, t.first ≤ d → value?' d = value? d) :
    Tiles (s :: ss) s.first last value?' where
  first_eq := rfl
  last_eq := by
    rw [List.getLast?_cons, ← h.last_eq]
    cases hss : ss.getLast? with
    | none =>
      have hlast := h.last_eq
      rw [hss] at hlast
      cases hlast
    | some t => rfl
  first_le_last := List.forall_mem_cons.2 ⟨hle, h.first_le_last⟩
  joined := by
    refine List.isChain_cons.2 ⟨fun t ht => ?_, h.joined⟩
    have hfirst := h.first_eq
    rw [Option.mem_def.1 ht] at hfirst
    rw [Option.some.inj hfirst, hnext]
  value_eq := by
    refine List.forall_mem_cons.2 ⟨hvalue, fun t ht d hfirst hlast => ?_⟩
    rw [hlater t ht d hfirst, h.value_eq t ht d hfirst hlast]

theorem Tiles.tail {t : Segment} (h : Tiles (s :: t :: ss) first last value?) :
    s.first = first ∧ t.first.number = s.last.number + 1 ∧
      Tiles (t :: ss) t.first last value? := by
  obtain ⟨hst, hjoined⟩ := List.isChain_cons_cons.1 h.joined
  refine ⟨Option.some.inj h.first_eq, hst, rfl, ?_, ?_, hjoined, ?_⟩
  · rw [← h.last_eq, List.getLast?_cons_cons]
  · exact (List.forall_mem_cons.1 h.first_le_last).2
  · exact (List.forall_mem_cons.1 h.value_eq).2

/-- No segment leaves the dates that all of them run over. -/
theorem Tiles.within (h : Tiles ss first last value?) :
    ∀ s ∈ ss, first ≤ s.first ∧ s.last ≤ last := by
  induction ss generalizing first with
  | nil => exact List.forall_mem_nil _
  | cons s ss ih =>
    have hs := h.first_le_last s List.mem_cons_self
    cases ss with
    | nil =>
      obtain rfl : s.first = first := Option.some.inj h.first_eq
      obtain rfl : s.last = last := Option.some.inj h.last_eq
      exact List.forall_mem_singleton.2 ⟨Date.le_refl _, Date.le_refl _⟩
    | cons t ss =>
      obtain ⟨rfl, hst, htail⟩ := h.tail
      have ht := htail.first_le_last t List.mem_cons_self
      have hlast := (ih htail t List.mem_cons_self).2
      refine List.forall_mem_cons.2 ⟨⟨Date.le_refl _, ?_⟩, fun u hu => ⟨?_, (ih htail u hu).2⟩⟩
      · rw [Date.le_def] at *
        omega
      · have hfirst := (ih htail u hu).1
        rw [Date.le_def] at *
        omega

theorem Tiles.congr (h : Tiles ss first last value?)
    (hvalue : ∀ d, first ≤ d → d ≤ last → value?' d = value? d) :
    Tiles ss first last value?' :=
  { h with
    value_eq := fun s hs d hfirst hlast => by
      obtain ⟨hf, hl⟩ := h.within s hs
      rw [hvalue d (Date.le_trans hf hfirst) (Date.le_trans hlast hl)]
      exact h.value_eq s hs d hfirst hlast }

/-! ## Closed segments -/

theorem tiles_closeSegments (h : ((first, value) :: ps).Pairwise fun p q => p.1 < q.1)
    (ht : ∀ p ∈ (first, value) :: ps, p.1 ≤ today) :
    Tiles (closeSegments today ((first, value) :: ps)) first today
      (lastValue? ((first, value) :: ps)) := by
  induction ps generalizing first value with
  | nil =>
    refine .singleton (s := ⟨first, today, value⟩) (ht _ List.mem_cons_self) fun d hd _ => ?_
    rw [lastValue?_cons, if_pos hd]
    rfl
  | cons p rest ih =>
    obtain ⟨next, value'⟩ := p
    obtain ⟨hfirst, hrest⟩ := List.pairwise_cons.1 h
    have hlt : first < next := hfirst (next, value') List.mem_cons_self
    obtain ⟨e, he, hn⟩ := Date.pred?_of_lt hlt
    rw [Date.lt_def] at hlt
    rw [closeSegments, he, Option.getD_some]
    have hnext : ∀ p ∈ (next, value') :: rest, next ≤ p.1 :=
      List.forall_mem_cons.2 ⟨Date.le_refl next, fun p hp =>
        Int.le_of_lt ((List.pairwise_cons.1 hrest).1 p hp)⟩
    have hle : first.number ≤ e.number := by omega
    have hnumber : next.number = e.number + 1 := by omega
    refine (ih hrest fun p hp => ht p (List.mem_cons_of_mem _ hp)).cons (s := ⟨first, e, value⟩)
      hle hnumber (fun d hd hde => ?_) fun t htail d hd => ?_
    · -- No later value counts before its own date.
      have hnone : lastValue? ((next, value') :: rest) d = none := by
        refine lastValue?_eq_none fun p hp => ?_
        have hp := hnext p hp
        simp only [Date.le_def, Date.lt_def] at *
        omega
      rw [lastValue?_cons, hnone, if_pos hd]
      rfl
    · -- From its own date on, the next value counts.
      obtain ⟨p, hp, hpt⟩ := exists_of_mem_closeSegments htail
      have hnd : next ≤ d := Date.le_trans (hpt ▸ hnext p hp) hd
      obtain ⟨w, hw⟩ : ∃ w, lastValue? ((next, value') :: rest) d = some w := by
        rw [lastValue?_cons, if_pos hnd]
        cases lastValue? rest d <;> simp
      rw [lastValue?_cons, hw, Option.some_or]

theorem closeSegments_eq_nil_iff : closeSegments today ps = [] ↔ ps = [] := by
  cases ps with
  | nil => simp [closeSegments]
  | cons p rest => cases rest <;> simp [closeSegments]

/-! ## The first segment -/

theorem head?_lastOfDay (ps : List (Date × String)) :
    (lastOfDay ps).head?.map Prod.fst = ps.head?.map Prod.fst := by
  fun_induction lastOfDay ps with
  | case1 => rfl
  | case2 => rfl
  | case3 p q rest hpq ih => rw [ih, List.head?_cons, List.head?_cons, Option.map_some,
      Option.map_some, hpq]
  | case4 p q rest hpq ih => rfl

end

section

variable {c : Classification} {h : ResolvedHistory} {rangeStart today : Date}

theorem head?_eventsOf : (eventsOf c h).head?.map (fun e => e.time.date) = some h.firstDate := by
  unfold eventsOf ResolvedHistory.firstDate
  cases h.events <;> rfl

theorem starts_eq_nil_iff (asc : h.Ascending) :
    starts c rangeStart today h = [] ↔ ∀ e ∈ eventsOf c h, today < e.time.date := by
  have hempty (ps : List (Date × String)) : lastOfDay ps = [] ↔ ps = [] := by
    have hhead := head?_lastOfDay ps
    rw [← List.head?_eq_none_iff, ← Option.map_eq_none_iff (f := Prod.fst), hhead,
      Option.map_eq_none_iff, List.head?_eq_none_iff]
  rw [starts, hempty, List.map_eq_nil_iff, valuesUntil_eq asc, List.map_eq_nil_iff,
    List.filter_eq_nil_iff]
  simp only [decide_eq_true_eq, Date.le_def, Date.lt_def, Int.not_le]

theorem head?_starts (hne : starts c rangeStart today h ≠ []) :
    (starts c rangeStart today h).head?.map Prod.fst = some (max rangeStart h.firstDate) := by
  obtain ⟨e, he, hdate⟩ := Option.map_eq_some_iff.1 (@head?_eventsOf c h)
  have hhead : (starts c rangeStart today h).head?.map Prod.fst =
      ((some e).filter fun e => e.time.date ≤ today).map fun e => max rangeStart e.time.date := by
    rw [starts, head?_lastOfDay, valuesUntil, List.map_map, List.head?_map, Option.map_map,
      List.head?_takeWhile, he]
    rfl
  rw [hhead, ← hdate]
  by_cases ht : e.time.date ≤ today
  · simp [Option.filter, ht]
  · rw [Option.filter_some_neg (by simpa using ht), Option.map_none, Option.map_eq_none_iff,
      List.head?_eq_none_iff] at hhead
    exact absurd hhead hne

theorem segments_eq_closeSegments (asc : h.Ascending) (hr : rangeStart ≤ today) :
    segments c rangeStart today h = closeSegments today (starts c rangeStart today h) := by
  have hnot : ¬ today < rangeStart := Int.not_lt.2 hr
  rw [segments, if_neg hnot, boundaries_eq_starts asc]

theorem segments_eq_nil_iff (asc : h.Ascending) : segments c rangeStart today h = [] ↔
    today < rangeStart ∨ ∀ e ∈ eventsOf c h, today < e.time.date := by
  by_cases hr : rangeStart ≤ today
  · have hnot : ¬ today < rangeStart := Int.not_lt.2 hr
    rw [segments_eq_closeSegments asc hr, closeSegments_eq_nil_iff, starts_eq_nil_iff asc,
      or_iff_right hnot]
  · have hlt : today < rangeStart := Int.not_le.1 hr
    rw [segments, if_pos hlt]
    exact iff_of_true rfl (.inl hlt)

end

theorem tiles_segments (c : Classification) {h : ResolvedHistory} (asc : h.Ascending)
    (rangeStart today : Date) :
    (segments c rangeStart today h = [] ↔
      today < rangeStart ∨ ∀ e ∈ eventsOf c h, today < e.time.date) ∧
    (segments c rangeStart today h ≠ [] →
      Tiles (segments c rangeStart today h) (max rangeStart h.firstDate) today
        (dayValue? c h)) := by
  refine ⟨segments_eq_nil_iff asc, fun hne => ?_⟩
  have hr : rangeStart ≤ today :=
    Int.not_lt.1 fun hlt => hne ((segments_eq_nil_iff asc).2 (.inl hlt))
  rw [segments_eq_closeSegments asc hr] at hne ⊢
  have hstarts : starts c rangeStart today h ≠ [] := fun hnil =>
    hne (closeSegments_eq_nil_iff.2 hnil)
  have hfirst := head?_starts hstarts
  have hpairs := pairwise_starts (c := c) asc rangeStart today
  have hle := starts_le (c := c) asc hr
  have hvalue (d : Date) (hd : max rangeStart h.firstDate ≤ d) (ht : d ≤ today) :
      dayValue? c h d = lastValue? (starts c rangeStart today h) d := by
    have hrd : rangeStart ≤ d := by
      rw [Date.le_def, Date.number_max] at hd
      rw [Date.le_def]
      omega
    rw [starts, lastValue?_lastOfDay, lastValue?_map_max hrd, lastValue?_valuesUntil asc ht]
  refine Tiles.congr ?_ hvalue
  cases hcons : starts c rangeStart today h with
  | nil => exact absurd hcons hstarts
  | cons p ps =>
    rw [hcons] at hfirst hpairs hle
    rw [← Option.some.inj hfirst]
    exact tiles_closeSegments hpairs fun p hp => (hle p hp).2

/-- An issue with events before, in and after the first week from the third of January on, two of
them on one day. -/
def busyWeek : ResolvedHistory where
  issue := ⟨"T-1", "A"⟩
  events := [⟨"", "Open", midnight 1⟩, ⟨"Open", "Review", midnight 2⟩,
    ⟨"Review", "Doing", midnight 5⟩, ⟨"Doing", " Testing ", midnight 5⟩,
    ⟨"Testing", "", midnight 7⟩, ⟨"", "Done", midnight 10⟩]
  created := midnight 1
  priority := none
  rootCauses := []

theorem tiles_segments_busyWeek :
    busyWeek.Ascending ∧
      segments {} (midnight 3).date (midnight 9).date busyWeek =
        [⟨(midnight 3).date, (midnight 4).date, "Review"⟩,
          ⟨(midnight 5).date, (midnight 6).date, "Testing"⟩,
          ⟨(midnight 7).date, (midnight 9).date, "Open"⟩] ∧
      Tiles (segments {} (midnight 3).date (midnight 9).date busyWeek)
        (max (midnight 3).date busyWeek.firstDate) (midnight 9).date (dayValue? {} busyWeek) := by
  have asc : busyWeek.Ascending := by
    unfold ResolvedHistory.Ascending
    decide +kernel
  exact ⟨asc, by decide +kernel,
    (tiles_segments {} asc (midnight 3).date (midnight 9).date).2 (by decide +kernel)⟩

end IssueFlow.Flow
