import IssueFlow.Flow.Replay
import IssueFlow.Proofs.Order.Selection
import IssueFlow.Proofs.Tracker.Resolve

/-!
# Days of a timeline

`dayValue?` is the value of an issue at the end of one day: that of its last event up to then. On a
log in the order of time the cursor notes, for each day of the range with events, the value of the
last one, and for the first day also the last value before it (`boundaries_eq_lastOfDay`). So the
segments of a timeline follow each other without overlap (`Ordered`), and their days are the days of
the range with these values (`mem_daysOf_segments_iff`).
-/

namespace IssueFlow.Flow

open IssueFlow.Calendar IssueFlow.Rules IssueFlow.Tracker

/-- The value of an issue at the end of a day. -/
def dayValue? (c : Classification) (h : ResolvedHistory) (d : Date) : Option String :=
  ((eventsOf c h).filter fun e => e.time.date ≤ d).getLast?.map fun e => c.normalize e.new

/-- An issue has a value at the end of the day of an event, and ever after. -/
theorem exists_dayValue? {c : Classification} {h : ResolvedHistory} {e : Event} {d : Date}
    (he : e ∈ h.events) (hd : e.time.date ≤ d) : ∃ v, dayValue? c h d = some v := by
  have hevents : eventsOf c h = h.events := by
    rw [eventsOf, if_neg (by simpa using List.ne_nil_of_mem he)]
  have hmem : e ∈ (eventsOf c h).filter fun e => e.time.date ≤ d :=
    List.mem_filter.2 ⟨hevents ▸ he, decide_eq_true hd⟩
  obtain ⟨last, hlast⟩ :=
    Option.isSome_iff_exists.1 (List.getLast?_isSome.2 (List.ne_nil_of_mem hmem))
  exact ⟨c.normalize last.new, by rw [dayValue?, hlast]; rfl⟩

/-- The last of dated values up to a day. -/
def lastValue? (ps : List (Date × String)) (d : Date) : Option String :=
  (ps.filter fun p => p.1 ≤ d).getLast?.map Prod.snd

theorem lastValue?_cons (p : Date × String) (ps : List (Date × String)) (d : Date) :
    lastValue? (p :: ps) d = (lastValue? ps d).or (if p.1 ≤ d then some p.2 else none) := by
  unfold lastValue?
  rw [List.filter_cons]
  by_cases hp : p.1 ≤ d
  · rw [if_pos (by simpa using hp), if_pos hp, List.getLast?_cons]
    cases (ps.filter fun p => p.1 ≤ d).getLast? <;> rfl
  · rw [if_neg (by simpa using hp), if_neg hp, Option.or_none]

theorem lastValue?_eq_none {ps : List (Date × String)} {d : Date} (h : ∀ p ∈ ps, d < p.1) :
    lastValue? ps d = none := by
  have hnil : ps.filter (fun p => p.1 ≤ d) = [] := by
    rw [List.filter_eq_nil_iff]
    intro p hp hle
    have := h p hp
    have hle := of_decide_eq_true hle
    rw [Date.lt_def] at this
    rw [Date.le_def] at hle
    omega
  rw [lastValue?, hnil]
  rfl

/-! ## Stages of a timeline -/

theorem ascending_eventsOf {c : Classification} {h : ResolvedHistory} (asc : h.Ascending) :
    (eventsOf c h).Pairwise fun a b => a.time.date.number ≤ b.time.date.number := by
  unfold eventsOf
  split
  · exact List.pairwise_singleton _ _
  · exact asc.imp Instant.date_le_of_le

theorem valuesUntil_eq {c : Classification} {h : ResolvedHistory} (asc : h.Ascending)
    (today : Date) : valuesUntil c h today =
      ((eventsOf c h).filter fun e => e.time.date ≤ today).map fun e =>
        (e.time.date, c.normalize e.new) :=
  congrArg (List.map _)
    (Order.takeWhile_eq_filter today.number (ascending_eventsOf asc))

theorem lastValue?_valuesUntil {c : Classification} {h : ResolvedHistory} (asc : h.Ascending)
    {d today : Date} (hd : d ≤ today) :
    lastValue? (valuesUntil c h today) d = dayValue? c h d := by
  have hboth (e : Event) :
      (decide (e.time.date ≤ d) && decide (e.time.date ≤ today)) = decide (e.time.date ≤ d) := by
    rw [← Bool.decide_and, decide_eq_decide]
    refine ⟨And.left, fun he => ⟨he, ?_⟩⟩
    rw [Date.le_def] at *
    omega
  rw [lastValue?, dayValue?, valuesUntil_eq asc, List.filter_map, List.getLast?_map,
    Option.map_map, List.filter_filter]
  simp only [Function.comp_def, hboth]

/-- Moving earlier values to the start of a range changes no value in the range. -/
theorem lastValue?_map_max {ps : List (Date × String)} {a d : Date} (hd : a ≤ d) :
    lastValue? (ps.map fun (date, value) => (max a date, value)) d = lastValue? ps d := by
  induction ps with
  | nil => rfl
  | cons p ps ih =>
    have hmax : max a p.1 ≤ d ↔ p.1 ≤ d := by
      rw [Date.le_def] at *
      rw [Date.le_def, Date.number_max]
      omega
    simp only [List.map_cons, lastValue?_cons, ih, hmax]

/-- Of neighbours on one date, the last one. -/
def lastOfDay : List (Date × String) → List (Date × String)
  | [] => []
  | [p] => [p]
  | p :: q :: rest => if p.1 = q.1 then lastOfDay (q :: rest) else p :: lastOfDay (q :: rest)

section

variable {day date : Date} {old value : String} {rest : List (Date × String)}

theorem lastOfDay_replace : lastOfDay ((day, old) :: (day, value) :: rest) =
    lastOfDay ((day, value) :: rest) :=
  if_pos rfl

theorem lastOfDay_keep (h : date ≠ day) : lastOfDay ((day, old) :: (date, value) :: rest) =
    (day, old) :: lastOfDay ((date, value) :: rest) :=
  if_neg (Ne.symm h)

end

theorem lastValue?_lastOfDay (ps : List (Date × String)) (d : Date) :
    lastValue? (lastOfDay ps) d = lastValue? ps d := by
  fun_induction lastOfDay ps with
  | case1 => rfl
  | case2 => rfl
  | case3 p q rest hpq ih =>
    rw [ih, lastValue?_cons p, lastValue?_cons q, hpq]
    by_cases hq : q.1 ≤ d
    · rw [if_pos hq, if_pos hq, Option.or_assoc, Option.some_or]
    · rw [if_neg hq, if_neg hq, Option.or_none, Option.or_none]
  | case4 p q rest hpq ih => rw [lastValue?_cons, lastValue?_cons p, ih]

theorem mem_of_mem_lastOfDay {ps : List (Date × String)} {p : Date × String}
    (h : p ∈ lastOfDay ps) : p ∈ ps := by
  fun_induction lastOfDay ps with
  | case1 => exact h
  | case2 => exact h
  | case3 p' q rest hpq ih => exact List.mem_cons_of_mem _ (ih h)
  | case4 p' q rest hpq ih =>
    rcases List.mem_cons.1 h with rfl | h
    · exact List.mem_cons_self
    · exact List.mem_cons_of_mem _ (ih h)

/-- Of values in the order of time, the last ones of each day are on different days. -/
theorem pairwise_lastOfDay {ps : List (Date × String)} (h : ps.Pairwise fun p q => p.1 ≤ q.1) :
    (lastOfDay ps).Pairwise fun p q => p.1 < q.1 := by
  fun_induction lastOfDay ps with
  | case1 => exact .nil
  | case2 p => exact List.pairwise_singleton _ _
  | case3 p q rest hpq ih => exact ih (List.pairwise_cons.1 h).2
  | case4 p q rest hpq ih =>
    obtain ⟨hp, hrest⟩ := List.pairwise_cons.1 h
    refine List.pairwise_cons.2 ⟨fun r hr => ?_, ih hrest⟩
    have hq : q.1 ≤ r.1 := by
      rcases List.mem_cons.1 (mem_of_mem_lastOfDay hr) with rfl | hr
      · exact Int.le_refl _
      · exact (List.pairwise_cons.1 hrest).1 r hr
    have hpq' := hp q List.mem_cons_self
    have hne : p.1.number ≠ q.1.number := fun he => hpq (Date.ext he)
    rw [Date.le_def] at hq hpq'
    rw [Date.lt_def]
    omega

/-! ## The cursor -/

/-- Where a cursor is when no event after a date has come. -/
inductive Cursor.UpTo (rangeStart date : Date) : Cursor → Prop where
  | unstarted : UpTo rangeStart date .unstarted
  | carried (value : String) : UpTo rangeStart date (.carried value)
  | active {day : Date} (value : String) : rangeStart ≤ day → day ≤ date →
      UpTo rangeStart date (.active day value)

section

variable {cursor : Cursor} {rangeStart date : Date} {value : String}

theorem Cursor.UpTo.mono {date' : Date} (h : cursor.UpTo rangeStart date) (hle : date ≤ date') :
    cursor.UpTo rangeStart date' := by
  cases h with
  | unstarted => exact .unstarted
  | carried value => exact .carried value
  | active value hr hd => exact .active value hr (Date.le_trans hd hle)

theorem Cursor.UpTo.step (h : cursor.UpTo rangeStart date) :
    (cursor.step rangeStart date value).1.UpTo rangeStart date := by
  unfold Cursor.step
  split
  · exact .carried value
  · next hr =>
    have hr : rangeStart ≤ date := Int.not_lt.1 hr
    have hactive := Cursor.UpTo.active value hr (Date.le_refl date)
    cases h with
    | unstarted => exact hactive
    | carried old =>
      dsimp only
      split <;> exact hactive
    | active old hday hle =>
      dsimp only
      split
      · exact .active value hday hle
      · exact hactive

/-- An event either takes the place of the value before it, on one day of the range, or puts an end
to it on a later day. -/
theorem Cursor.step_lastOfDay (h : cursor.UpTo rangeStart date) (rest : List (Date × String)) :
    (cursor.step rangeStart date value).2.toList ++
        lastOfDay (((cursor.step rangeStart date value).1.start? rangeStart).toList ++ rest) =
      lastOfDay ((cursor.start? rangeStart).toList ++ (max rangeStart date, value) :: rest) := by
  unfold Cursor.step
  split
  · next hr =>
    rw [Date.max_eq_left hr]
    cases h with
    | unstarted => rfl
    | carried old => exact lastOfDay_replace.symm
    | active old hday hle => exact absurd (Date.le_trans hday hle) (Int.not_le.2 hr)
  · next hr =>
    rw [Date.max_eq_right (Int.not_lt.1 hr)]
    cases h with
    | unstarted => rfl
    | carried old =>
      dsimp only
      split
      · next hdate =>
        rw [hdate]
        exact lastOfDay_replace.symm
      · next hdate => exact (lastOfDay_keep hdate).symm
    | active old hday hle =>
      dsimp only
      split
      · next hdate =>
        rw [hdate]
        exact lastOfDay_replace.symm
      · next hdate => exact (lastOfDay_keep hdate).symm

theorem boundaries_cons (rest : List (Date × String)) :
    boundaries rangeStart cursor ((date, value) :: rest) =
      (cursor.step rangeStart date value).2.toList ++
        boundaries rangeStart (cursor.step rangeStart date value).1 rest :=
  rfl

/-- What a cursor notes on values in the order of time. -/
theorem boundaries_eq_lastOfDay {ps : List (Date × String)}
    (hps : ps.Pairwise fun p q => p.1 ≤ q.1) (h : ∀ p ∈ ps, cursor.UpTo rangeStart p.1) :
    boundaries rangeStart cursor ps = lastOfDay ((cursor.start? rangeStart).toList ++
      ps.map fun (date, value) => (max rangeStart date, value)) := by
  induction ps generalizing cursor with
  | nil => cases cursor <;> rfl
  | cons p rest ih =>
    obtain ⟨date, value⟩ := p
    obtain ⟨hfirst, hrest⟩ := List.pairwise_cons.1 hps
    have hcursor : cursor.UpTo rangeStart date := h (date, value) List.mem_cons_self
    rw [boundaries_cons, ih hrest fun q hq => hcursor.step.mono (hfirst q hq)]
    exact Cursor.step_lastOfDay hcursor _

end

/-! ## Segments -/

/-- Segments that follow each other, each of at least one date. -/
structure Ordered (ss : List Segment) : Prop where
  apart : ss.Pairwise fun s t => s.last < t.first
  first_le : ∀ s ∈ ss, s.first ≤ s.last

theorem Ordered.sublist {ss ts : List Segment} (h : Ordered ts) (hs : ss.Sublist ts) :
    Ordered ss :=
  ⟨h.apart.sublist hs, fun s hm => h.first_le s (hs.mem hm)⟩

theorem exists_of_mem_closeSegments {today : Date} {ps : List (Date × String)} {s : Segment}
    (h : s ∈ closeSegments today ps) : ∃ p ∈ ps, s.first = p.1 := by
  fun_induction closeSegments today ps with
  | case1 => cases h
  | case2 first value =>
    rw [List.mem_singleton] at h
    exact ⟨_, List.mem_singleton_self _, by rw [h]⟩
  | case3 first value next value' rest ih =>
    rcases List.mem_cons.1 h with rfl | h
    · exact ⟨_, List.mem_cons_self, rfl⟩
    · obtain ⟨p, hp, he⟩ := ih h
      exact ⟨p, List.mem_cons_of_mem _ hp, he⟩

theorem ordered_closeSegments {today : Date} {ps : List (Date × String)}
    (h : ps.Pairwise fun p q => p.1 < q.1) (ht : ∀ p ∈ ps, p.1 ≤ today) :
    Ordered (closeSegments today ps) := by
  fun_induction closeSegments today ps with
  | case1 => exact ⟨.nil, fun s hs => absurd hs List.not_mem_nil⟩
  | case2 first value =>
    refine ⟨List.pairwise_singleton _ _, fun s hs => ?_⟩
    rw [List.mem_singleton.1 hs]
    exact ht _ (List.mem_singleton_self _)
  | case3 first value next value' rest ih =>
    obtain ⟨hp, hrest⟩ := List.pairwise_cons.1 h
    have hlt : first < next := hp (next, value') List.mem_cons_self
    obtain ⟨e, he, hn⟩ := Date.pred?_of_lt hlt
    rw [Date.lt_def] at hlt
    simp only [he, Option.getD_some]
    have ih := ih hrest fun p hp => ht p (List.mem_cons_of_mem _ hp)
    refine ⟨List.pairwise_cons.2 ⟨fun s hs => ?_, ih.apart⟩, fun s hs => ?_⟩
    · obtain ⟨q, hq, hf⟩ := exists_of_mem_closeSegments hs
      have hle : next.number ≤ q.1.number := by
        rcases List.mem_cons.1 hq with rfl | hq
        · exact Int.le_refl _
        · exact Int.le_of_lt ((List.pairwise_cons.1 hrest).1 q hq)
      rw [Date.lt_def, hf]
      simp only
      omega
    · rcases List.mem_cons.1 hs with rfl | hs
      · rw [Date.le_def]
        simp only
        omega
      · exact ih.first_le s hs

theorem mem_daysOf {ss : List Segment} {d : Date} {v : String} :
    (d, v) ∈ daysOf ss ↔
      ∃ s ∈ ss, s.first ≤ d ∧ d ≤ s.last ∧ d.number < lastDay ∧ s.value = v := by
  simp only [daysOf, List.mem_flatMap, List.mem_map, Date.mem_upTo, Prod.mk.injEq]
  constructor
  · rintro ⟨s, hs, d', ⟨hf, hl, hw⟩, rfl, rfl⟩
    exact ⟨s, hs, hf, hl, hw, rfl⟩
  · rintro ⟨s, hs, hf, hl, hw, rfl⟩
    exact ⟨s, hs, d, ⟨hf, hl, hw⟩, rfl, rfl⟩

theorem daysOf_cons (s : Segment) (ss : List Segment) : daysOf (s :: ss) =
    (Date.upTo s.first s.last).map (fun date => (date, s.value)) ++ daysOf ss :=
  rfl

theorem mem_daysOf_cons {s : Segment} {ss : List Segment} {d : Date} {v : String} :
    (d, v) ∈ daysOf (s :: ss) ↔
      (s.first ≤ d ∧ d ≤ s.last ∧ d.number < lastDay ∧ s.value = v) ∨ (d, v) ∈ daysOf ss := by
  simp only [mem_daysOf, List.mem_cons, exists_eq_or_imp]

theorem mem_daysOf_closeSegments {today d : Date} {ps : List (Date × String)} {v : String}
    (h : ps.Pairwise fun p q => p.1 < q.1) (ht : ∀ p ∈ ps, p.1 ≤ today) :
    (d, v) ∈ daysOf (closeSegments today ps) ↔
      d ≤ today ∧ d.number < lastDay ∧ lastValue? ps d = some v := by
  fun_induction closeSegments today ps with
  | case1 => simp [daysOf, lastValue?]
  | case2 first value =>
    simp only [mem_daysOf, List.mem_singleton, exists_eq_left, lastValue?_cons]
    by_cases hf : first ≤ d <;> simp [hf, lastValue?]
  | case3 first value next value' rest ih =>
    obtain ⟨hp, hrest⟩ := List.pairwise_cons.1 h
    have ih := ih hrest fun p hp => ht p (List.mem_cons_of_mem _ hp)
    have hlt : first < next := hp (next, value') List.mem_cons_self
    have hnt : next ≤ today := ht (next, value') (List.mem_cons_of_mem _ List.mem_cons_self)
    obtain ⟨e, he, hn⟩ := Date.pred?_of_lt hlt
    rw [mem_daysOf_cons, ih, he, Option.getD_some, lastValue?_cons (first, value)]
    simp only [Date.le_def, Date.lt_def] at hlt hnt ⊢
    by_cases hd : next.number ≤ d.number
    · obtain ⟨w, hw⟩ : ∃ w, lastValue? ((next, value') :: rest) d = some w := by
        rw [lastValue?_cons, if_pos (Date.le_def.2 hd)]
        cases lastValue? rest d <;> simp
      rw [hw, Option.some_or, or_iff_right fun hs => by omega]
    · have hnone : lastValue? ((next, value') :: rest) d = none := by
        refine lastValue?_eq_none fun p hp => ?_
        rw [Date.lt_def]
        rcases List.mem_cons.1 hp with rfl | hp
        · exact Int.not_le.1 hd
        · have hle : next < p.1 := (List.pairwise_cons.1 hrest).1 p hp
          rw [Date.lt_def] at hle
          omega
      have hin : d.number ≤ e.number ∧ d.number ≤ today.number := by omega
      rw [hnone, Option.none_or]
      by_cases hf : first.number ≤ d.number <;> simp [hin, hf]

theorem pairwise_daysOf {ss : List Segment} (h : Ordered ss) :
    (daysOf ss).Pairwise fun p q => p.1.number < q.1.number := by
  rw [daysOf, List.pairwise_flatMap]
  refine ⟨fun s _ => ?_, h.apart.imp fun {s t} hst p hp q hq => ?_⟩
  · rw [List.pairwise_map]
    exact Date.pairwise_upTo s.first s.last
  · obtain ⟨d, hd, rfl⟩ := List.mem_map.1 hp
    obtain ⟨e, he, rfl⟩ := List.mem_map.1 hq
    have hd := (Date.mem_upTo.1 hd).2.1
    have he := (Date.mem_upTo.1 he).1
    simp only [Date.le_def, Date.lt_def] at *
    omega

/-- A segment without days starts on the last date, so no segment comes after it. -/
theorem Ordered.eq_nil_of_upTo_eq_nil {s : Segment} {ss : List Segment} (h : Ordered (s :: ss))
    (hs : Date.upTo s.first s.last = []) : ss = [] := by
  have hfirst : lastDay ≤ s.first.number := by
    have hnot : s.first ∉ Date.upTo s.first s.last := by rw [hs]; exact List.not_mem_nil
    rw [Date.mem_upTo] at hnot
    have hle := h.first_le s List.mem_cons_self
    exact Int.not_lt.1 fun hlt => hnot ⟨Int.le_refl _, hle, hlt⟩
  cases ss with
  | nil => rfl
  | cons t ts =>
    have hst := (List.pairwise_cons.1 h.apart).1 t List.mem_cons_self
    have hle := h.first_le s List.mem_cons_self
    have ht := t.first.le_last
    rw [Date.lt_def] at hst
    rw [Date.le_def] at hle
    omega

/-- Cutting segments at a value cuts their days at the same value. -/
theorem daysOf_takeWhile {ss : List Segment} (h : Ordered ss) (p : String → Bool) :
    daysOf (ss.takeWhile fun s => p s.value) = (daysOf ss).takeWhile fun day => p day.2 := by
  induction ss with
  | nil => rfl
  | cons s ss ih =>
    have ih := ih (h.sublist (List.sublist_cons_self s ss))
    cases hp : p s.value with
    | true =>
      rw [List.takeWhile_cons_of_pos (p := fun s : Segment => p s.value) hp, daysOf_cons,
        daysOf_cons, ih, List.takeWhile_append_of_pos]
      intro day hday
      obtain ⟨d, -, rfl⟩ := List.mem_map.1 hday
      exact hp
    | false =>
      rw [List.takeWhile_cons_of_neg (by simp [hp]), daysOf_cons]
      cases hs : Date.upTo s.first s.last with
      | nil =>
        rw [h.eq_nil_of_upTo_eq_nil hs]
        rfl
      | cons d ds =>
        rw [List.map_cons, List.cons_append, List.takeWhile_cons_of_neg (by simp [hp])]
        rfl

theorem daysOf_filter (ss : List Segment) (p : String → Bool) :
    daysOf (ss.filter fun s => p s.value) = (daysOf ss).filter fun day => p day.2 := by
  induction ss with
  | nil => rfl
  | cons s ss ih =>
    have hvalue : ∀ day ∈ (Date.upTo s.first s.last).map fun date => (date, s.value),
        p day.2 = p s.value := by
      intro day hday
      obtain ⟨d, -, rfl⟩ := List.mem_map.1 hday
      rfl
    rw [daysOf_cons, List.filter_append, ← ih]
    cases hp : p s.value with
    | true =>
      rw [List.filter_cons_of_pos (p := fun s : Segment => p s.value) hp, daysOf_cons,
        List.filter_eq_self.2 fun day hday => (hvalue day hday).trans hp]
    | false =>
      have hnone : ((Date.upTo s.first s.last).map fun date => (date, s.value)).filter
          (fun day => p day.2) = [] :=
        List.filter_eq_nil_iff.2 fun day hday => by simp [hvalue day hday, hp]
      rw [List.filter_cons_of_neg (by simp [hp]), hnone, List.nil_append]

/-! ## The days of an issue -/

/-- The first dates of the segments of an issue, with their values. -/
def starts (c : Classification) (rangeStart today : Date) (h : ResolvedHistory) :
    List (Date × String) :=
  lastOfDay ((valuesUntil c h today).map fun (date, value) => (max rangeStart date, value))

theorem boundaries_eq_starts {c : Classification} {h : ResolvedHistory} (asc : h.Ascending)
    (rangeStart today : Date) :
    boundaries rangeStart .unstarted (valuesUntil c h today) = starts c rangeStart today h := by
  refine boundaries_eq_lastOfDay ?_ fun p _ => .unstarted
  rw [valuesUntil_eq asc, List.pairwise_map]
  exact (ascending_eventsOf asc).sublist List.filter_sublist

theorem pairwise_starts {c : Classification} {h : ResolvedHistory} (asc : h.Ascending)
    (rangeStart today : Date) :
    (starts c rangeStart today h).Pairwise fun p q => p.1 < q.1 := by
  refine pairwise_lastOfDay ?_
  rw [valuesUntil_eq asc, List.map_map, List.pairwise_map]
  refine ((ascending_eventsOf asc).sublist List.filter_sublist).imp fun {a b} hab => ?_
  simp only [Function.comp_apply, Date.le_def, Date.number_max]
  omega

theorem exists_of_mem_starts {c : Classification} {h : ResolvedHistory} (asc : h.Ascending)
    {rangeStart today : Date} {p : Date × String} (hp : p ∈ starts c rangeStart today h) :
    ∃ d : Date, d ≤ today ∧ p.1 = max rangeStart d := by
  obtain ⟨q, hq, rfl⟩ := List.mem_map.1 (mem_of_mem_lastOfDay hp)
  rw [valuesUntil_eq asc] at hq
  obtain ⟨e, he, rfl⟩ := List.mem_map.1 hq
  exact ⟨e.time.date, of_decide_eq_true (List.mem_filter.1 he).2, rfl⟩

theorem starts_le {c : Classification} {h : ResolvedHistory} (asc : h.Ascending)
    {rangeStart today : Date} (hr : rangeStart ≤ today) :
    ∀ p ∈ starts c rangeStart today h, rangeStart ≤ p.1 ∧ p.1 ≤ today := by
  intro p hp
  obtain ⟨d, hd, he⟩ := exists_of_mem_starts asc hp
  rw [he]
  simp only [Date.le_def, Date.number_max] at *
  omega

theorem ordered_segments {c : Classification} {h : ResolvedHistory} (asc : h.Ascending)
    (rangeStart today : Date) : Ordered (segments c rangeStart today h) := by
  unfold segments
  split
  · exact ⟨.nil, fun s hs => absurd hs List.not_mem_nil⟩
  · next hr =>
    have hr : rangeStart ≤ today := Int.not_lt.1 hr
    rw [boundaries_eq_starts asc]
    exact ordered_closeSegments (pairwise_starts asc rangeStart today)
      fun p hp => (starts_le asc hr p hp).2

/-- The days of the segments are the days of the range on which the issue has a value. -/
theorem mem_daysOf_segments_iff {c : Classification} {h : ResolvedHistory} (asc : h.Ascending)
    {rangeStart today d : Date} {v : String} : (d, v) ∈ daysOf (segments c rangeStart today h) ↔
      rangeStart ≤ d ∧ d ≤ today ∧ d.number < lastDay ∧ dayValue? c h d = some v := by
  unfold segments
  split
  · next hr =>
    rw [Date.lt_def] at hr
    simp only [Date.le_def, daysOf, List.flatMap_nil, List.not_mem_nil, false_iff]
    omega
  · next hr =>
    have hr : rangeStart ≤ today := Int.not_lt.1 hr
    have hle := starts_le (c := c) asc hr
    rw [boundaries_eq_starts asc,
      mem_daysOf_closeSegments (pairwise_starts asc rangeStart today) fun p hp => (hle p hp).2]
    by_cases hd : rangeStart ≤ d
    · rw [starts, lastValue?_lastOfDay, lastValue?_map_max hd]
      constructor
      · rintro ⟨ht, hw, hv⟩
        exact ⟨hd, ht, hw, lastValue?_valuesUntil asc ht ▸ hv⟩
      · rintro ⟨-, ht, hw, hv⟩
        exact ⟨ht, hw, (lastValue?_valuesUntil asc ht).trans hv⟩
    · have hnone : lastValue? (starts c rangeStart today h) d = none := by
        refine lastValue?_eq_none fun p hp => ?_
        have := (hle p hp).1
        simp only [Date.le_def, Date.lt_def] at *
        omega
      simp [hnone, hd]

end IssueFlow.Flow
