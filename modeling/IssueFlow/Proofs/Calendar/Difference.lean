import IssueFlow.Proofs.Calendar.Written

/-!
# Differences of instants

The difference of two instants counts the leap second of either of them only if the time of day of
the other one lies on the right side of it, whatever the dates are (`leapSecondsTo`). So it does not
quite follow the order of instants. The two places where this shows are stated exactly: what the
difference is less than (`nanosecondsTo_lt_iff`), with the leap second that is lost over midnight
(`OverLeapMidnight`), and when it drops as the second instant goes on
(`nanosecondsTo_lt_iff_drops`).
`millisecondsTo_ordered` says what is left of the order in whole milliseconds; away from leap
seconds, all of it.
-/

namespace IssueFlow.Calendar

namespace Instant

variable {a b c t : Instant}

/-! ## Seconds apart -/

theorem inLeapSecond_iff : t.inLeapSecond = true ↔ giga ≤ t.nano := by
  simp [inLeapSecond]

theorem inLeapSecond_eq_false_iff : t.inLeapSecond = false ↔ t.nano < giga := by
  simp [inLeapSecond]

/-- What is known of the parts of an instant. -/
theorem parts_spec (t : Instant) :
    t.unixSeconds = t.date.number * 86400 + t.second ∧ t.second < 86400 ∧ t.nano < 2 * giga ∧
      (giga ≤ t.nano → t.second % 60 = 59) :=
  ⟨rfl, t.second_lt, t.nano_lt, t.leap_last⟩

theorem le_iff_unixSeconds : a ≤ b ↔ a.unixSeconds < b.unixSeconds ∨
    a.unixSeconds = b.unixSeconds ∧ a.nano ≤ b.nano := by
  have ha := a.nano_lt
  have hb := b.nano_lt
  simp only [le_def, rank, unixSeconds, secondsPerDay, giga] at *
  omega

/-- A later instant lies in the same second, in one of the next two, on the same date or over
midnight, or at least three seconds later. -/
theorem secondsLater_spec (h : a ≤ b) :
    b.unixSeconds = a.unixSeconds ∧ b.date.number = a.date.number ∧ b.second = a.second ∧
        a.nano ≤ b.nano ∨
      b.date.number = a.date.number ∧
        (b.unixSeconds = a.unixSeconds + 1 ∧ b.second = a.second + 1 ∨
          b.unixSeconds = a.unixSeconds + 2 ∧ b.second = a.second + 2) ∨
      b.date.number = a.date.number + 1 ∧
        (b.unixSeconds = a.unixSeconds + 1 ∧ b.second = 0 ∧ a.second = 86399 ∨
          b.unixSeconds = a.unixSeconds + 2 ∧ b.second + 86398 = a.second) ∨
      a.unixSeconds + 3 ≤ b.unixSeconds := by
  obtain ⟨ha, hlta, -⟩ := a.parts_spec
  obtain ⟨hb, hltb, -⟩ := b.parts_spec
  rw [le_iff_unixSeconds] at h
  by_cases hfar : a.unixSeconds + 3 ≤ b.unixSeconds
  · exact .inr (.inr (.inr hfar))
  · have hdate : b.date.number = a.date.number ∨ b.date.number = a.date.number + 1 := by omega
    rcases hdate with hdate | hdate <;> omega

/-- The leap seconds that the difference counts: that of the first instant if the other one is at a
later time of day, and taken back that of the second one if it is at an earlier time of day. -/
def leapSecondsTo (a b : Instant) : Int :=
  if a.second < b.second ∧ a.inLeapSecond then 1
  else if b.second < a.second ∧ b.inLeapSecond then -1 else 0

theorem leapSecondsTo_spec (a b : Instant) :
    a.second < b.second ∧ giga ≤ a.nano ∧ leapSecondsTo a b = 1 ∨
      b.second < a.second ∧ giga ≤ b.nano ∧ leapSecondsTo a b = -1 ∨
      ¬ (a.second < b.second ∧ giga ≤ a.nano) ∧ ¬ (b.second < a.second ∧ giga ≤ b.nano) ∧
        leapSecondsTo a b = 0 := by
  simp only [leapSecondsTo, inLeapSecond_iff]
  split
  · omega
  · split <;> omega

theorem leapSecondsTo_symm (a b : Instant) : leapSecondsTo b a = -leapSecondsTo a b := by
  have hab := leapSecondsTo_spec a b
  have hba := leapSecondsTo_spec b a
  omega

theorem nanosecondsTo_eq (a b : Instant) : nanosecondsTo a b =
    (b.unixSeconds - a.unixSeconds + leapSecondsTo a b) * giga + (b.nano - a.nano) := by
  unfold nanosecondsTo clockSecondsTo unixSeconds leapSecondsTo
  congr 2
  rw [Int.sub_mul]
  omega

theorem nanosecondsTo_symm (a b : Instant) : nanosecondsTo b a = -nanosecondsTo a b := by
  rw [nanosecondsTo_eq, nanosecondsTo_eq, leapSecondsTo_symm]
  unfold giga
  omega

/-! ## Close instants -/

/-- Nanoseconds in the second of an instant. -/
def secondLength (t : Instant) : Nat := if t.inLeapSecond then 2 * giga else giga

theorem secondLength_spec (t : Instant) :
    giga ≤ t.nano ∧ t.secondLength = 2 * giga ∨ t.nano < giga ∧ t.secondLength = giga := by
  simp only [secondLength, inLeapSecond_iff]
  split <;> omega

/-- On a clock that shows leap seconds, the second instant comes less than so many nanoseconds after
the first one: in the same second or in the next one. -/
def CloserThan (nanos : Int) (a b : Instant) : Prop :=
  b.unixSeconds = a.unixSeconds ∧ b.nano < a.nano + nanos ∨
    b.unixSeconds = a.unixSeconds + 1 ∧ b.nano + a.secondLength < a.nano + nanos

/-- No later instant comes before an earlier one. -/
theorem not_closerThan_of_nonpos (h : a ≤ b) {nanos : Int} (hnanos : nanos ≤ 0) :
    ¬ CloserThan nanos a b := by
  have hlength := a.secondLength_spec
  obtain ⟨-, -, hnano, -⟩ := a.parts_spec
  rw [le_iff_unixSeconds] at h
  unfold CloserThan
  omega

/-- The first instant lies in a leap second that ends its date, the second one on the next date. -/
structure OverLeapMidnight (a b : Instant) : Prop where
  leap : a.inLeapSecond = true
  last : a.second = 86399
  next : b.date.number = a.date.number + 1

theorem overLeapMidnight_iff : OverLeapMidnight a b ↔
    giga ≤ a.nano ∧ a.second = 86399 ∧ b.date.number = a.date.number + 1 :=
  ⟨fun h => ⟨inLeapSecond_iff.1 h.leap, h.last, h.next⟩,
    fun ⟨hleap, hlast, hnext⟩ => ⟨inLeapSecond_iff.2 hleap, hlast, hnext⟩⟩

/-- Nanoseconds since the start of the date. -/
def sinceMidnight (t : Instant) : Nat := t.second * giga + t.nano

/-- Nanoseconds since the start of the leap second. -/
def intoLeapSecond (t : Instant) : Nat := t.nano - giga

/-- A difference is small if the instants are close, or if the leap second that the first one lies
in is lost over midnight: its length is then taken off the time since midnight. -/
theorem nanosecondsTo_lt_iff (h : a ≤ b) {nanos : Int} (hnanos : nanos ≤ giga) :
    a.nanosecondsTo b < nanos ↔ CloserThan nanos a b ∨
      OverLeapMidnight a b ∧ b.sinceMidnight < a.intoLeapSecond + nanos := by
  have hlater := secondsLater_spec h
  have hlength := a.secondLength_spec
  have hleaps := leapSecondsTo_spec a b
  obtain ⟨ha, hsecond, hnano, hleap⟩ := a.parts_spec
  obtain ⟨hb, -, hnano', hleap'⟩ := b.parts_spec
  rw [overLeapMidnight_iff, nanosecondsTo_eq]
  unfold CloserThan sinceMidnight intoLeapSecond
  simp only [giga] at *
  rcases hlater with hsame | ⟨hdate, hlater | hlater⟩ | ⟨hdate, hlater | hlater⟩ | hfar
  · rcases hleaps with hleaps | hleaps | hleaps <;> omega
  · rcases hleaps with hleaps | hleaps | hleaps <;> omega
  · rcases hleaps with hleaps | hleaps | hleaps <;> omega
  · rcases hleaps with hleaps | hleaps | hleaps <;> omega
  · rcases hleaps with hleaps | hleaps | hleaps <;> omega
  · rcases hleaps with hleaps | hleaps | hleaps <;> omega

/-! ## Later instants -/

/-- The difference from the first instant is smaller for the third one than for the second one,
although the third one is later. -/
inductive Drops (a b c : Instant) : Prop where
  /-- The third instant enters the leap second of its minute, which does not count because the first
  one is at a later time of day. -/
  | intoLeapSecond (same : c.unixSeconds = b.unixSeconds) (plain : b.inLeapSecond = false)
    (leap : c.inLeapSecond = true) (uncounted : c.second < a.second)
    (before : c.nano < b.nano + giga)
  /-- The third instant comes in the second after the leap second of the second one, which counts no
  more; nor does the one of the first instant count from now on in its place. -/
  | outOfLeapSecond (next : c.unixSeconds = b.unixSeconds + 1) (leap : b.inLeapSecond = true)
    (counted : a.second ≤ b.second)
    (alone : ¬ (a.inLeapSecond = true ∧ a.second = b.second ∧ b.date.number = c.date.number))
    (before : c.nano + giga < b.nano)
  /-- The leap second of the first instant counts no more, because the third one is at an earlier
  time of day after midnight, by less than that second. -/
  | overMidnight (leap : a.inLeapSecond = true) (counted : a.second < b.second)
    (uncounted : c.second ≤ a.second)
    (before : (c.unixSeconds - b.unixSeconds) * giga + c.nano < b.nano + giga)

theorem drops_iff : Drops a b c ↔
    c.unixSeconds = b.unixSeconds ∧ b.nano < giga ∧ giga ≤ c.nano ∧ c.second < a.second ∧
        c.nano < b.nano + giga ∨
      c.unixSeconds = b.unixSeconds + 1 ∧ giga ≤ b.nano ∧ a.second ≤ b.second ∧
        ¬ (giga ≤ a.nano ∧ a.second = b.second ∧ b.date.number = c.date.number) ∧
        c.nano + giga < b.nano ∨
      giga ≤ a.nano ∧ a.second < b.second ∧ c.second ≤ a.second ∧
        (c.unixSeconds - b.unixSeconds) * giga + c.nano < b.nano + giga := by
  simp only [← inLeapSecond_iff, ← inLeapSecond_eq_false_iff]
  constructor
  · rintro (⟨same, plain, leap, uncounted, before⟩ | ⟨next, leap, counted, alone, before⟩ |
      ⟨leap, counted, uncounted, before⟩)
    · exact .inl ⟨same, plain, leap, uncounted, before⟩
    · exact .inr (.inl ⟨next, leap, counted, alone, before⟩)
    · exact .inr (.inr ⟨leap, counted, uncounted, before⟩)
  · rintro (⟨same, plain, leap, uncounted, before⟩ | ⟨next, leap, counted, alone, before⟩ |
      ⟨leap, counted, uncounted, before⟩)
    · exact .intoLeapSecond same plain leap uncounted before
    · exact .outOfLeapSecond next leap counted alone before
    · exact .overMidnight leap counted uncounted before

theorem nanosecondsTo_lt_iff_drops (h : b ≤ c) :
    a.nanosecondsTo c < a.nanosecondsTo b ↔ Drops a b c := by
  have hlater := secondsLater_spec h
  have hleaps := leapSecondsTo_spec a b
  have hleaps' := leapSecondsTo_spec a c
  obtain ⟨-, -, hnanoa, hleapa⟩ := a.parts_spec
  obtain ⟨hb, hsecondb, hnanob, hleapb⟩ := b.parts_spec
  obtain ⟨hc, -, hnanoc, hleapc⟩ := c.parts_spec
  rw [drops_iff, nanosecondsTo_eq, nanosecondsTo_eq]
  simp only [giga] at *
  -- What the two differences count of leap seconds, in each place of the third instant.
  rcases hlater with hsame | ⟨hdate, hlater | hlater⟩ | ⟨hdate, hlater | hlater⟩ | hfar
  · rcases hleaps with hleaps | hleaps | hleaps <;>
      rcases hleaps' with hleaps' | hleaps' | hleaps' <;> omega
  · rcases hleaps with hleaps | hleaps | hleaps <;>
      rcases hleaps' with hleaps' | hleaps' | hleaps' <;> omega
  · rcases hleaps with hleaps | hleaps | hleaps <;>
      rcases hleaps' with hleaps' | hleaps' | hleaps' <;> omega
  · rcases hleaps with hleaps | hleaps | hleaps <;>
      rcases hleaps' with hleaps' | hleaps' | hleaps' <;> omega
  · rcases hleaps with hleaps | hleaps | hleaps <;>
      rcases hleaps' with hleaps' | hleaps' | hleaps' <;> omega
  · rcases hleaps with hleaps | hleaps | hleaps <;>
      rcases hleaps' with hleaps' | hleaps' | hleaps' <;> omega

/-! ## Whole milliseconds -/

theorem millisecondsTo_symm (a b : Instant) : millisecondsTo b a = -millisecondsTo a b := by
  rw [millisecondsTo, nanosecondsTo_symm, Int.neg_tdiv]
  rfl

theorem millisecondsTo_spec (a b : Instant) :
    0 ≤ a.nanosecondsTo b ∧ a.millisecondsTo b = a.nanosecondsTo b / 1000000 ∨
      a.nanosecondsTo b < 0 ∧ a.millisecondsTo b = -(-a.nanosecondsTo b / 1000000) := by
  unfold millisecondsTo
  by_cases hnonneg : 0 ≤ a.nanosecondsTo b
  · exact .inl ⟨hnonneg, Int.tdiv_eq_ediv_of_nonneg hnonneg⟩
  · have hneg : 0 ≤ -a.nanosecondsTo b := by omega
    refine .inr ⟨by omega, ?_⟩
    rw [← Int.tdiv_eq_ediv_of_nonneg hneg, Int.neg_tdiv, Int.neg_neg]

theorem millisecondsTo_nonneg_iff : 0 ≤ a.millisecondsTo b ↔ -1000000 < a.nanosecondsTo b := by
  have hspec := millisecondsTo_spec a b
  omega

theorem millisecondsTo_pos_iff : 0 < a.millisecondsTo b ↔ 1000000 ≤ a.nanosecondsTo b := by
  have hspec := millisecondsTo_spec a b
  omega

/-- The difference of an instant and a later one is negative just if the first one is further into
the leap second that ends its date than the second one is into the next date, by a millisecond. -/
theorem millisecondsTo_nonneg_iff_of_le (h : a ≤ b) : 0 ≤ a.millisecondsTo b ↔
    ¬ (OverLeapMidnight a b ∧ b.sinceMidnight + 1000000 ≤ a.intoLeapSecond) := by
  have hlt : a.nanosecondsTo b < -999999 ↔ _ := nanosecondsTo_lt_iff h (by decide)
  have hclose : ¬ CloserThan (-999999) a b := not_closerThan_of_nonpos h (by decide)
  rw [millisecondsTo_nonneg_iff]
  constructor
  · rintro hnonneg ⟨hover, hle⟩
    have := hlt.2 (.inr ⟨hover, by omega⟩)
    omega
  · intro hover
    by_contra hneg
    rcases hlt.1 (by omega) with hcloser | ⟨hlost, hle⟩
    · exact hclose hcloser
    · exact hover ⟨hlost, by omega⟩

/-- The difference of an instant and a later one comes to a whole millisecond unless the two are
closer, or the leap second that is lost over midnight makes them so. -/
theorem one_le_millisecondsTo_iff_of_le (h : a ≤ b) : 1 ≤ a.millisecondsTo b ↔
    ¬ CloserThan 1000000 a b ∧
      ¬ (OverLeapMidnight a b ∧ b.sinceMidnight < a.intoLeapSecond + 1000000) := by
  have hlt : a.nanosecondsTo b < 1000000 ↔ _ := nanosecondsTo_lt_iff h (by decide)
  have hpos : 1 ≤ a.millisecondsTo b ↔ 1000000 ≤ a.nanosecondsTo b := millisecondsTo_pos_iff
  have hlost : (b.sinceMidnight : Int) < a.intoLeapSecond + 1000000 ↔
      b.sinceMidnight < a.intoLeapSecond + 1000000 := by omega
  rw [hpos, ← Int.not_lt, hlt, not_or, hlost]

/-- A whole millisecond outside the leap seconds. -/
structure OnMillisecond (t : Instant) : Prop where
  plain : t.inLeapSecond = false
  whole : t.nano % 1000000 = 0

/-- Whole milliseconds that follow each other are no closer than one of them. -/
theorem one_le_millisecondsTo_of_onMillisecond (h : a < b) (ha : a.OnMillisecond)
    (hb : b.OnMillisecond) : 1 ≤ a.millisecondsTo b := by
  have hle : a ≤ b := Int.le_of_lt h
  have hlt : ¬ b ≤ a := Int.not_le.2 h
  have hplain := inLeapSecond_eq_false_iff.1 ha.plain
  have hlength := a.secondLength_spec
  have hwhole := ha.whole
  have hwhole' := hb.whole
  rw [le_iff_unixSeconds] at hlt
  refine (one_le_millisecondsTo_iff_of_le hle).2 ⟨fun hcloser => ?_, fun ⟨hover, _⟩ => ?_⟩
  · simp only [CloserThan, giga] at *
    omega
  · rw [overLeapMidnight_iff] at hover
    omega

theorem millisecondsTo_le_of_not_drops (hbc : b ≤ c) (h : ¬ Drops a b c) :
    a.millisecondsTo b ≤ a.millisecondsTo c := by
  rw [← nanosecondsTo_lt_iff_drops hbc, Int.not_lt] at h
  exact Int.tdiv_le_tdiv (by decide) h

theorem millisecondsTo_le_of_drops (hbc : b ≤ c) (h : Drops a b c) :
    a.millisecondsTo c ≤ a.millisecondsTo b :=
  Int.tdiv_le_tdiv (by decide) (Int.le_of_lt ((nanosecondsTo_lt_iff_drops hbc).2 h))

theorem not_drops_of_plain (ha : a.inLeapSecond = false) (hb : b.inLeapSecond = false)
    (hc : c.inLeapSecond = false) : ¬ Drops a b c := by
  rintro (⟨-, -, leap, -, -⟩ | ⟨-, leap, -, -, -⟩ | ⟨leap, -, -, -⟩)
  · rw [hc] at leap
    cases leap
  · rw [hb] at leap
    cases leap
  · rw [ha] at leap
    cases leap

/-- How far differences in whole milliseconds follow the order of instants. -/
theorem millisecondsTo_ordered (hab : a ≤ b) (hbc : b ≤ c) :
    b.millisecondsTo a = -a.millisecondsTo b ∧
      (0 ≤ a.millisecondsTo b ↔
        ¬ (OverLeapMidnight a b ∧ b.sinceMidnight + 1000000 ≤ a.intoLeapSecond)) ∧
      (a.millisecondsTo b ≤ a.millisecondsTo c ↔
        ¬ Drops a b c ∨ a.millisecondsTo b = a.millisecondsTo c) ∧
      (a.inLeapSecond = false → b.inLeapSecond = false → c.inLeapSecond = false →
        0 ≤ a.millisecondsTo b ∧ a.millisecondsTo b ≤ a.millisecondsTo c) := by
  have hnonneg := millisecondsTo_nonneg_iff_of_le hab
  refine ⟨millisecondsTo_symm a b, hnonneg, ⟨fun hle => ?_, ?_⟩, fun ha hb hc => ⟨?_, ?_⟩⟩
  · by_cases hdrops : Drops a b c
    · exact .inr (Int.le_antisymm hle (millisecondsTo_le_of_drops hbc hdrops))
    · exact .inl hdrops
  · rintro (hkeeps | heq)
    · exact millisecondsTo_le_of_not_drops hbc hkeeps
    · exact Int.le_of_eq heq
  · refine hnonneg.2 fun ⟨hover, _⟩ => ?_
    rw [hover.leap] at ha
    cases ha
  · exact millisecondsTo_le_of_not_drops hbc (not_drops_of_plain ha hb hc)

/-- Noon of the last day of 2016, before its leap second. -/
def noonOf2016 : Instant :=
  { startOf leapOf2016.date with
    second := 43200
    second_lt := by decide
    leap_last := by decide }

/-- The start of 2017, after the leap second of 2016. -/
def startOf2017 : Instant := .startOf ((Date.ofNumber? 17167).getD .last)

/-- As time goes on from the leap second to the new year, the hours since noon get less. -/
theorem millisecondsTo_ordered_leapOf2016 :
    noonOf2016 ≤ leapOf2016 ∧ leapOf2016 ≤ startOf2017 ∧
      leapOf2016.millisecondsTo noonOf2016 = -noonOf2016.millisecondsTo leapOf2016 ∧
      0 ≤ noonOf2016.millisecondsTo leapOf2016 ∧ Drops noonOf2016 leapOf2016 startOf2017 ∧
      ¬ noonOf2016.millisecondsTo leapOf2016 ≤ noonOf2016.millisecondsTo startOf2017 := by
  have hnoon : noonOf2016 ≤ leapOf2016 := by decide
  have hstart : leapOf2016 ≤ startOf2017 := by decide
  obtain ⟨hsymm, hnonneg, hle, -⟩ := millisecondsTo_ordered hnoon hstart
  have hdrops : Drops noonOf2016 leapOf2016 startOf2017 :=
    .outOfLeapSecond (by decide) (by decide) (by decide) (by decide) (by decide)
  refine ⟨hnoon, hstart, hsymm, hnonneg.2 fun ⟨hover, _⟩ => absurd hover.leap (by decide), hdrops,
    fun h => ?_⟩
  rcases hle.1 h with hkeeps | heq
  · exact hkeeps hdrops
  · exact absurd heq (by decide +kernel)

/-- From the leap second at the end of 2016 to the new year, time goes back. -/
theorem millisecondsTo_startOf2017 :
    ofRaw "2016-12-31T23:59:60.050Z" = .ok leapOf2016 ∧
      ofRaw "2017-01-01T00:00:00Z" = .ok startOf2017 ∧ leapOf2016 < startOf2017 ∧
      leapOf2016.millisecondsTo startOf2017 = -50 ∧ leapOf2016.hoursTo startOf2017 < 0 := by
  decide +kernel

end Instant

end IssueFlow.Calendar
