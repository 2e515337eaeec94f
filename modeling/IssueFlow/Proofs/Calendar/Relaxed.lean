import IssueFlow.Proofs.Calendar.Layout

/-!
# Reading serialised dates and instants

The layout of serialised records takes all that the strict layout and the date of the loose ones
take, and reads the same in it (`relaxedDate_of_looseDate`, `Instant.ofText?_of_withOffset?`). There
a year behind a sign may have any number of digits. So not only the instants of the years from 0 to
9999 but all dates and instants are read back from their texts (`Date.ofText?_text`,
`Instant.ofText?_text`).
-/

namespace IssueFlow.Calendar

open IssueFlow.Text

variable {cs rest : List Char} {c : Char}

/-! ## Parts -/

theorem spacedLiteral_of_literal (hc : isBlank c = false) (h : literal c cs = some ((), rest)) :
    spacedLiteral c cs = some ((), rest) := by
  obtain rfl := literal_eq_some_iff.1 h
  rwa [spacedLiteral, dropBlanks, List.dropWhile_cons_of_neg (by simp [hc])]

theorem relaxedDate_of_looseDate {civil : Civil} (h : looseDate cs = some (civil, rest)) :
    relaxedDate cs = some (civil, rest) := by
  obtain ⟨cs₁, cs₂, cs₃, cs₄, hyear, hhyphen, hmonth, hhyphen', hday⟩ := dateBy_eq_some_iff.1 h
  exact dateBy_eq_some_iff.2 ⟨cs₁, cs₂, cs₃, cs₄, hyear,
    spacedLiteral_of_literal (by decide) hhyphen, hmonth,
    spacedLiteral_of_literal (by decide) hhyphen', hday⟩

theorem relaxedClock_of_looseClock {parts : ClockParts} (h : looseClock cs = some (parts, rest)) :
    relaxedClock cs = some (parts, rest) := by
  obtain ⟨cs₁, cs₂, cs₃, cs₄, cs₅, hhour, hcolon, hminute, hcolon', hsecond, hfraction⟩ :=
    clockBy_eq_some_iff.1 h
  exact clockBy_eq_some_iff.2 ⟨cs₁, cs₂, cs₃, cs₄, cs₅, hhour,
    spacedLiteral_of_literal (by decide) hcolon, hminute,
    spacedLiteral_of_literal (by decide) hcolon', hsecond, hfraction⟩

/-- An offset starts with its mark or its sign: no blank, and not the first letter of `UTC`. -/
theorem Zone.exists_chars_eq (z : Zone) : ∃ c cs, z.chars = c :: cs ∧ isBlank c = false ∧
    c.toLower ≠ 'u' := by
  cases z with
  | utc mark mem => rcases mem with rfl | rfl <;> exact ⟨_, _, rfl, by decide, by decide⟩
  | shift sign hours minutes mem =>
    refine ⟨sign, _, rfl, ?_⟩
    simp only [offsetSigns, List.mem_cons, List.not_mem_nil, or_false] at mem
    rcases mem with rfl | rfl | rfl <;> decide

theorem relaxedOffset_chars (z : Zone) : relaxedOffset z.chars = some (z.minutes, []) := by
  have hcolon (x : Numeral) (rest : List Char) (hx : x.Plain) :
      colonsOrBlanks (':' :: (x.chars ++ rest)) = some ((), x.chars ++ rest) := by
    obtain ⟨d, ds, hdigits⟩ := List.exists_cons_of_ne_nil x.ne_nil
    have hd := x.allDigits d (hdigits ▸ List.mem_cons_self)
    have hne : d ≠ ':' := fun h => absurd (h ▸ hd) (by decide)
    rw [Numeral.chars, hx.1, List.nil_append, hdigits]
    simp [colonsOrBlanks, isBlank_of_isDigit hd, hne]
  have hread := offsetBy_spelled hcolon z []
  obtain ⟨c, cs, hchars, hblank, hletter⟩ := z.exists_chars_eq
  rw [List.append_nil] at hread
  have hdrop : dropBlanks z.chars = z.chars := by
    rw [hchars, dropBlanks, List.dropWhile_cons_of_neg (by simp [hblank])]
  have hutc : (z.chars.take 3).map Char.toLower ≠ ['u', 't', 'c'] := by
    simp [hchars, hletter]
  simp only [relaxedOffset, hdrop, if_neg hutc, hread, Option.bind_eq_bind, Option.bind_some]
  rfl

/-! ## Dates -/

namespace Date

theorem ofText?_text (d : Date) : ofText? d.text = some d := by
  have hread := relaxedDate_of_looseDate (d.looseDate_chars [])
  rw [List.append_nil] at hread
  simp only [ofText?, text, String.toList_ofList, hread, Option.bind_eq_bind, Option.bind_some,
    ofCivil?_civil]
  rfl

/-- Years past 9999 and before 0 are written with a sign, and read in other forms too. -/
example : (ofText? "-0001-12-31").map number = some (-719529) ∧
    (ofText? " -1 - 12-31 ").map text = some "-0001-12-31" := by
  decide +kernel

end Date

/-! ## Instants -/

/-- A date, a time of day and an offset are read as the instant that they name. -/
theorem instantBy_relaxed (date : DateSpelling) {separator : Char} (mem : separator ∈ separators)
    (clock : ClockSpelling) (zone : Zone) :
    instantBy relaxedDate relaxedClock relaxedOffset
        (date.chars ++ separator :: (clock.chars ++ zone.chars)) =
      (clock.on? date.civil).bind fun t => t.minutesEarlier? zone.minutes := by
  have hseparator := mem_separators.1 mem
  have hstops : Stops (separator :: (clock.chars ++ zone.chars)) := by
    rw [stops_cons]
    rcases hseparator with rfl | rfl | rfl <;> decide
  have hdate := relaxedDate_of_looseDate (looseDate_spelled date (.inr hstops))
  have hclock := relaxedClock_of_looseClock (looseClock_spelled clock zone.closes_chars)
  simp only [instantBy, hdate, if_pos hseparator, hclock, relaxedOffset_chars,
    ClockSpelling.parts, Option.bind_eq_bind, Option.bind_some, List.isEmpty_nil, if_true,
    ClockSpelling.on?, Option.bind_assoc]

namespace Instant

variable {t : Instant}

/-- Serialised records take every text of the strict layout. -/
theorem ofText?_of_withOffset? {s : String} (h : withOffset? s.toList = some t) :
    ofText? s = some t := by
  obtain ⟨spelling, hlayout, hchars⟩ := Layout.read_sound (l := .withOffset) h
  cases spelling with
  | withOffset date separator clock zone plain mem =>
    have hread := Layout.read_chars (.withOffset date separator clock zone plain mem)
    rw [hchars] at hread
    rw [ofText?, ← hchars]
    exact (instantBy_relaxed date mem clock zone).trans (hread.symm.trans h)
  | joinedByT | joinedByBlanks | dateOnly => cases hlayout

theorem ofText?_text (t : Instant) : ofText? t.text = some t := by
  obtain ⟨ds, hfraction, hchars⟩ := exists_isFraction (Nat.mod_lt t.nano (by decide : 0 < giga))
  have htext : t.chars = (DateSpelling.ofDate t.date).chars ++
      'T' :: ((ClockSpelling.ofInstant t hfraction).chars ++ (Zone.utc 'Z' (.inl rfl)).chars) := by
    simp [chars, hchars, DateSpelling.chars_ofDate, ClockSpelling.chars_ofInstant, timeChars,
      Zone.chars]
  rw [ofText?, text, String.toList_ofList, htext, instantBy_relaxed _ (by decide),
    DateSpelling.civil_ofDate, ClockSpelling.on?_ofInstant, Option.bind_some]
  exact t.minutesEarlier?_zero

end Instant

end IssueFlow.Calendar
