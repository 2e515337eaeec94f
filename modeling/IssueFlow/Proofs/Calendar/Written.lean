import IssueFlow.Calendar.Timestamp
import IssueFlow.Proofs.Calendar.Civil
import IssueFlow.Proofs.Text.Digits
import IssueFlow.Proofs.Text.Trim

/-!
# Reading what is written

A number padded to a width is read back by the reader of that width (`exactly_padded`), so the
strict layout reads back the date, the time of day and the fraction of every instant with a year of
four digits (`fixedDate_chars`, `fixedClock_timeChars`, `fraction_pointed`). An instant has several
texts in UTC (`Instant.WrittenAs`), of which `Instant.text` is one. What a raw timestamp names is
named by all of them again (`Instant.ofRaw_writtenAs`).
-/

namespace IssueFlow.Calendar

open IssueFlow.Text

variable {w n nano : Nat} {c : Char} {cs ds rest : List Char}

/-! ## Padded numbers -/

@[simp] theorem length_padded (w n : Nat) : (padded w n).length = w := by
  induction w generalizing n with
  | zero => rfl
  | succ w ih => rw [padded, List.length_append, ih, List.length_singleton]

theorem allDigits_padded (w n : Nat) : AllDigits (padded w n) := by
  induction w generalizing n with
  | zero => exact List.forall_mem_nil _
  | succ w ih =>
    rw [padded, AllDigits, List.forall_mem_append]
    exact ⟨ih (n / 10), by simp [Nat.isDigit_digitChar, Nat.mod_lt]⟩

@[simp] theorem noBlank_padded (w n : Nat) : NoBlank (padded w n) := (allDigits_padded w n).noBlank

theorem numberOf_padded (h : n < 10 ^ w) : numberOf (padded w n) = n := by
  induction w generalizing n with
  | zero => simp_all [padded, numberOf]
  | succ w ih =>
    have hdiv : n / 10 < 10 ^ w := Nat.div_lt_of_lt_mul (by rwa [Nat.mul_comm, ← Nat.pow_succ])
    rw [padded, numberOf_concat, ih hdiv, digitValue_digitChar (Nat.mod_lt n (by decide))]
    omega

theorem exactly_padded (h : n < 10 ^ w) (rest : List Char) :
    exactly w (padded w n ++ rest) = some (n, rest) := by
  have hread := exactly_append (allDigits_padded w n) rest
  rwa [length_padded, numberOf_padded h] at hread

/-! ## Fractions -/

/-- The digits of a fraction with the point before them; no point without digits. -/
def pointed : List Char → List Char
  | [] => []
  | d :: ds => '.' :: d :: ds

/-- The digits write the nanoseconds, as a fraction of a second. -/
structure IsFraction (ds : List Char) (nano : Nat) : Prop where
  allDigits : AllDigits ds
  length_mem : ds.length ∈ [0, 3, 6, 9]
  value : numberOf ds * 10 ^ (9 - ds.length) = nano

theorem IsFraction.length_le (h : IsFraction ds nano) : ds.length ≤ 9 := by
  have hall : ∀ n ∈ [0, 3, 6, 9], n ≤ 9 := by decide
  exact hall _ h.length_mem

theorem isFraction_padded (hw : w ∈ [0, 3, 6, 9]) (h : n < 10 ^ w)
    (hvalue : n * 10 ^ (9 - w) = nano) : IsFraction (padded w n) nano where
  allDigits := allDigits_padded w n
  length_mem := by rwa [length_padded]
  value := by rwa [length_padded, numberOf_padded h]

/-- The digits that are left out of a fraction are zeros. -/
theorem exists_isFraction (h : nano < giga) :
    ∃ ds, IsFraction ds nano ∧ fractionChars nano = pointed ds := by
  unfold giga at h
  unfold fractionChars
  split
  · next hzero => exact ⟨[], ⟨List.forall_mem_nil _, by decide, hzero.symm⟩, rfl⟩
  split
  · next hmilli =>
    have hvalue : nano / 1000000 * 10 ^ (9 - 3) = nano := by omega
    exact ⟨_, isFraction_padded (by decide) (by omega) hvalue, rfl⟩
  split
  · next hmicro =>
    have hvalue : nano / 1000 * 10 ^ (9 - 6) = nano := by omega
    exact ⟨_, isFraction_padded (by decide) (by omega) hvalue, rfl⟩
  · have hvalue : nano * 10 ^ (9 - 9) = nano := by omega
    exact ⟨_, isFraction_padded (by decide) (by omega) hvalue, rfl⟩

theorem nanosOf_eq (h : ds.length ≤ 9) : nanosOf ds = numberOf ds * 10 ^ (9 - ds.length) := by
  have htake : (ds ++ List.replicate 9 '0').take 9 = ds ++ List.replicate (9 - ds.length) '0' := by
    rw [List.take_append, List.take_of_length_le h, List.take_replicate,
      Nat.min_eq_left (Nat.sub_le 9 ds.length)]
  rw [nanosOf, htake, numberOf_append_zeros]

theorem IsFraction.nanosOf_eq (h : IsFraction ds nano) : nanosOf ds = nano := by
  rw [Calendar.nanosOf_eq h.length_le, h.value]

/-- The text does not go on with a digit or a point. -/
def Closes (rest : List Char) : Prop := ∀ c ∈ rest.head?, c.isDigit = false ∧ c ≠ '.'

theorem closes_nil : Closes [] := nofun

theorem closes_cons (hc : c.isDigit = false) (hpoint : c ≠ '.') : Closes (c :: rest) := by
  rintro d ⟨⟩
  exact ⟨hc, hpoint⟩

theorem Closes.stops (h : Closes rest) : Stops rest := fun c hc => (h c hc).1

theorem Closes.ne_point (h : Closes rest) : rest ≠ '.' :: cs := by
  rintro rfl
  exact (h '.' rfl).2 rfl

/-- A fraction ends before the first character that is no digit. -/
theorem fraction_pointed (h : AllDigits ds) (hrest : Closes rest) :
    fraction (pointed ds ++ rest) = some (nanosOf ds, rest) := by
  cases ds with
  | nil =>
    unfold fraction
    split
    · next heq => exact absurd heq hrest.ne_point
    · rfl
  | cons d ds =>
    have hread := allDigits_of_stops h hrest.stops
    rw [List.cons_append] at hread
    simp [pointed, fraction, hread]

theorem noBlank_pointed (h : AllDigits ds) : NoBlank (pointed ds) := by
  cases ds with
  | nil => exact List.forall_mem_nil _
  | cons d ds => exact noBlank_cons.2 ⟨by decide, h.noBlank⟩

/-! ## Dates -/

theorem yearChars_eq_padded {year : Int} (hlow : 0 ≤ year) (hhigh : year ≤ 9999) :
    yearChars year = padded 4 year.toNat := if_pos ⟨hlow, hhigh⟩

namespace Date

variable {d : Date} (hlow : 0 ≤ d.civil.year) (hhigh : d.civil.year ≤ 9999)

include hlow hhigh

theorem fixedDate_chars (rest : List Char) :
    fixedDate (d.chars ++ rest) = some (d.civil, rest) := by
  obtain ⟨hmonth, hday⟩ := Civil.le_of_isReal d.civil_spec.1
  have hyear : d.civil.year.toNat < 10 ^ 4 := by omega
  have hcast : (d.civil.year.toNat : Int) = d.civil.year := Int.toNat_of_nonneg hlow
  simp only [fixedDate, dateBy, fixedYear, chars, yearChars_eq_padded hlow hhigh,
    List.append_assoc, List.cons_append, exactly_padded hyear, Option.map_some,
    exactly_padded (w := 2) (n := d.civil.month) (by omega),
    exactly_padded (w := 2) (n := d.civil.day) (by omega), literal_cons, Option.bind_eq_bind,
    Option.bind_some, hcast]
  rfl

end Date

namespace Instant

variable {t : Instant}

/-! ## Times of day -/

/-- The time of day of an instant, without its fraction. -/
def timeChars (t : Instant) : List Char :=
  padded 2 (t.second / 3600) ++ ':' :: padded 2 (t.second / 60 % 60) ++
    ':' :: padded 2 t.secondOfMinute

theorem secondOfMinute_le (t : Instant) : t.secondOfMinute ≤ 60 := by
  unfold secondOfMinute
  split <;> omega

theorem fixedClock_timeChars (t : Instant) (h : IsFraction ds nano) (hc : c.isDigit = false)
    (hpoint : c ≠ '.') : fixedClock (t.timeChars ++ (pointed ds ++ c :: rest)) =
      some ((t.second / 3600, t.second / 60 % 60, t.secondOfMinute, nano), c :: rest) := by
  have hsecond := t.second_lt
  have hleap := t.secondOfMinute_le
  unfold secondsPerDay at hsecond
  simp only [fixedClock, clockBy, timeChars, List.append_assoc, List.cons_append,
    exactly_padded (w := 2) (n := t.second / 3600) (by omega),
    exactly_padded (w := 2) (n := t.second / 60 % 60) (by omega),
    exactly_padded (w := 2) (n := t.secondOfMinute) (by omega), literal_cons,
    fraction_pointed h.allDigits (closes_cons hc hpoint), h.nanosOf_eq, Option.bind_eq_bind,
    Option.bind_some]
  rfl

theorem secondOfMinute_of_leap (h : giga ≤ t.nano) : t.secondOfMinute = 60 :=
  if_pos (decide_eq_true h)

theorem secondOfMinute_of_lt (h : t.nano < giga) : t.secondOfMinute = t.second % 60 :=
  if_neg (by simpa [inLeapSecond] using h)

/-- A leap second is read as the one after second 59 again. -/
theorem ofParts?_clock (t : Instant) :
    ofParts? t.date (t.second / 3600) (t.second / 60 % 60) t.secondOfMinute (t.nano % giga) =
      some t := by
  have hsecond := t.second_lt
  have hnano := t.nano_lt
  have hmod : t.nano % giga < giga := Nat.mod_lt _ (by decide)
  unfold secondsPerDay at hsecond
  rw [ofParts?, dif_pos ⟨by omega, by omega, t.secondOfMinute_le, hmod⟩]
  rcases Nat.lt_or_ge t.nano giga with hlt | hleap
  · have hof := secondOfMinute_of_lt hlt
    rw [dif_neg (by omega)]
    refine congrArg some (ext rfl ?_ (Nat.mod_eq_of_lt hlt))
    show t.second / 3600 * 3600 + t.second / 60 % 60 * 60 + t.secondOfMinute = t.second
    omega
  · have hlast := t.leap_last hleap
    rw [dif_pos (secondOfMinute_of_leap hleap)]
    refine congrArg some (ext rfl ?_ ?_)
    · show t.second / 3600 * 3600 + t.second / 60 % 60 * 60 + 59 = t.second
      omega
    · show giga + t.nano % giga = t.nano
      unfold giga at *
      omega

theorem minutesEarlier?_zero (t : Instant) : t.minutesEarlier? 0 = some t := by
  have hsecond := t.second_lt
  have hunix : t.unixSeconds - 60 * 0 = t.date.number * 86400 + t.second := by
    simp [unixSeconds, secondsPerDay]
  unfold secondsPerDay at hsecond
  have hdate : Date.ofNumber? ((t.unixSeconds - 60 * 0) / 86400) = some t.date := by
    have hnumber : (t.unixSeconds - 60 * 0) / 86400 = t.date.number := by omega
    rw [hnumber, Date.ofNumber?, dif_pos ⟨t.date.first_le, t.date.le_last⟩]
  rw [minutesEarlier?, hdate, Option.map_some]
  refine congrArg some (ext rfl ?_ rfl)
  show ((t.unixSeconds - 60 * 0) % 86400).toNat = t.second
  omega

/-! ## Instants -/

/-- The two ways to write that a time is in UTC. -/
def utcMarks : List String := ["Z", "+00:00"]

/-- A mark ends the fraction before it, and moves no clock. -/
theorem utcMarks_spec : ∀ mark ∈ utcMarks, ∃ c cs, mark.toList = c :: cs ∧ c.isDigit = false ∧
    c ≠ '.' ∧ offset (c :: cs) = some (0, []) ∧ NoBlank mark.toList := by
  simp only [utcMarks, List.forall_mem_cons]
  exact ⟨⟨_, _, rfl, by decide⟩, ⟨_, _, rfl, by decide⟩, by simp⟩

/-- The text writes the instant in UTC: date, `T`, time of day, a fraction that loses nothing and a
mark. -/
def WrittenAs (t : Instant) (text : String) : Prop :=
  ∃ ds mark, IsFraction ds (t.nano % giga) ∧ mark ∈ utcMarks ∧
    text.toList = t.date.chars ++ 'T' :: t.timeChars ++ pointed ds ++ mark.toList

theorem writtenAs_text (t : Instant) : t.WrittenAs t.text := by
  obtain ⟨ds, hfraction, hchars⟩ := exists_isFraction (Nat.mod_lt t.nano (by decide : 0 < giga))
  refine ⟨ds, "Z", hfraction, by decide, ?_⟩
  simp [text, chars, timeChars, hchars]

section

variable {text : String} (h : t.WrittenAs text) (hlow : 0 ≤ t.date.civil.year)
  (hhigh : t.date.civil.year ≤ 9999)

include h hlow hhigh

theorem withOffset?_of_writtenAs : withOffset? text.toList = some t := by
  obtain ⟨ds, mark, hfraction, hmark, htext⟩ := h
  obtain ⟨c, cs, hchars, hdigit, hpoint, hoffset, -⟩ := utcMarks_spec mark hmark
  simp only [htext, hchars, withOffset?, instantBy, List.append_assoc, List.cons_append,
    Date.fixedDate_chars hlow hhigh, fixedClock_timeChars t hfraction hdigit hpoint, hoffset,
    Option.bind_eq_bind, Option.bind_some, Date.ofCivil?_civil, ofParts?_clock,
    minutesEarlier?_zero, true_or, if_true, List.isEmpty_nil]

theorem noBlank_of_writtenAs : NoBlank text.toList := by
  obtain ⟨ds, mark, hfraction, hmark, htext⟩ := h
  obtain ⟨-, -, -, -, -, -, hblank⟩ := utcMarks_spec mark hmark
  have hsigns : isBlank '-' = false ∧ isBlank 'T' = false ∧ isBlank ':' = false := by decide
  simp [htext, timeChars, Date.chars, yearChars_eq_padded hlow hhigh,
    noBlank_pointed hfraction.allDigits, hsigns, hblank]

/-- The strict layout is tried before the others. -/
theorem ofRaw_of_writtenAs : ofRaw text = .ok t := by
  have hread := withOffset?_of_writtenAs h hlow hhigh
  have hlayouts : ofLayouts? text.toList = some t := by
    rw [ofLayouts?, hread]
    rfl
  have hne : text.toList.isEmpty = false := by
    rw [List.isEmpty_eq_false_iff]
    intro hnil
    rw [hnil] at hread
    cases hread
  simp only [ofRaw, trimChars_eq_self (noBlank_of_writtenAs h hlow hhigh), hne, hlayouts,
    Bool.false_eq_true, if_false]

end

/-- Whatever a raw timestamp looks like, every text in UTC of the instant that it names is read
again: in the strict layout, and as a raw timestamp that names the same instant. -/
theorem ofRaw_writtenAs {raw : String} (h : ofRaw raw = .ok t) (hlow : 0 ≤ t.date.civil.year)
    (hhigh : t.date.civil.year ≤ 9999) :
    t.WrittenAs t.text ∧
      ∀ text, t.WrittenAs text → withOffset? text.toList = some t ∧ ofRaw text = ofRaw raw := by
  refine ⟨t.writtenAs_text, fun text htext => ⟨withOffset?_of_writtenAs htext hlow hhigh, ?_⟩⟩
  rw [ofRaw_of_writtenAs htext hlow hhigh, h]

/-- The middle of the leap second at the end of 2016. -/
def leapOf2016 : Instant :=
  ⟨⟨17166, by decide, by decide⟩, 86399, 1050000000, by decide, by decide, by decide⟩

/-- A leap second of another clock's morning is written as second 60 of its minute in UTC. -/
theorem ofRaw_writtenAs_leapOf2016 :
    ofRaw " 2017-01-01T05:29:60.0500+05:30 " = .ok leapOf2016 ∧
      leapOf2016.date.civil.year = 2016 ∧
      leapOf2016.text = "2016-12-31T23:59:60.050Z" ∧
      leapOf2016.WrittenAs "2016-12-31T23:59:60.050000+00:00" ∧
      ofRaw "2016-12-31T23:59:60.050Z" = ofRaw " 2017-01-01T05:29:60.0500+05:30 " ∧
      withOffset? "2016-12-31T23:59:60.050000+00:00".toList = some leapOf2016 := by
  have hraw : ofRaw " 2017-01-01T05:29:60.0500+05:30 " = .ok leapOf2016 := by decide +kernel
  have hyear : leapOf2016.date.civil.year = 2016 := by decide +kernel
  have htext : leapOf2016.text = "2016-12-31T23:59:60.050Z" := by decide +kernel
  have hmicro : leapOf2016.WrittenAs "2016-12-31T23:59:60.050000+00:00" :=
    ⟨padded 6 50000, "+00:00", isFraction_padded (by decide) (by decide) (by decide), by decide,
      by decide +kernel⟩
  obtain ⟨hwritten, hread⟩ := ofRaw_writtenAs hraw (by omega) (by omega)
  rw [htext] at hwritten
  exact ⟨hraw, hyear, htext, hmicro, (hread _ hwritten).2, (hread _ hmicro).1⟩

end Instant

end IssueFlow.Calendar
