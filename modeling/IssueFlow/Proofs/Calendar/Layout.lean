import IssueFlow.Proofs.Calendar.ClockSpelling

/-!
# Spellings of the four layouts

A `Spelling` is a text in one of the four layouts, with every blank, sign and digit of it. Each
layout reads its spellings as the times that they name, and nothing else (`Layout.read_chars`,
`Layout.read_sound`). A text has at most one spelling (`Spelling.chars_inj`): what stands after the
date tells the layout, and inside a layout the pieces end where they must. Some spellings have the
shapes that stand for the layouts (`Spelling.Documented`, `Spelling.exists_documented`).
-/

namespace IssueFlow.Calendar

open IssueFlow.Text

variable {cs : List Char} {civil : Civil} {t : Instant}

/-! ## Layouts -/

/-- The layouts of a point in time. -/
inductive Layout where
  | withOffset
  | joinedByT
  | joinedByBlanks
  | dateOnly
  deriving DecidableEq

def Layout.read : Layout → List Char → Option Instant
  | withOffset => withOffset?
  | joinedByT => joinedByT?
  | joinedByBlanks => joinedByBlanks?
  | dateOnly => dateOnly?

/-- The layouts in the order in which they are tried. -/
def Layout.all : List Layout := [withOffset, joinedByT, joinedByBlanks, dateOnly]

theorem Layout.mem_all (l : Layout) : l ∈ all := by
  cases l <;> decide

/-! ## Spellings -/

/-- What may stand between a date and a time of day with an offset. -/
def separators : List Char := ['T', 't', ' ']

theorem mem_separators {c : Char} : c ∈ separators ↔ c = 'T' ∨ c = 't' ∨ c = ' ' := by
  simp [separators]

/-- How a text spells a point in time. Dates and times of day are plain where an offset follows,
and a time of day that follows a date at once does not look like another digit of its day. -/
inductive Spelling where
  | withOffset (date : DateSpelling) (separator : Char) (clock : ClockSpelling) (zone : Zone)
      (plain : date.Plain ∧ clock.Plain) (mem : separator ∈ separators)
  | joinedByT (date : DateSpelling) (clock : ClockSpelling)
  | joinedByBlanks (date : DateSpelling) (clock : ClockSpelling)
      (ends : date.EndsBefore clock.chars)
  | dateOnly (date : DateSpelling)

namespace Spelling

def layout : Spelling → Layout
  | withOffset .. => .withOffset
  | joinedByT .. => .joinedByT
  | joinedByBlanks .. => .joinedByBlanks
  | dateOnly .. => .dateOnly

def date : Spelling → DateSpelling
  | withOffset date .. => date
  | joinedByT date .. => date
  | joinedByBlanks date .. => date
  | dateOnly date => date

/-- What stands after the date. -/
def tail : Spelling → List Char
  | withOffset _ separator clock zone .. => separator :: (clock.chars ++ zone.chars)
  | joinedByT _ clock => 'T' :: clock.chars
  | joinedByBlanks _ clock .. => clock.chars
  | dateOnly _ => []

def chars (s : Spelling) : List Char := s.date.chars ++ s.tail

/-- The instant that a spelling names, if its date and time are real. -/
def time? : Spelling → Option Instant
  | withOffset date _ clock zone .. =>
    (clock.on? date.civil).bind fun t => t.minutesEarlier? zone.minutes
  | joinedByT date clock => clock.on? date.civil
  | joinedByBlanks date clock .. => clock.on? date.civil
  | dateOnly date => (Date.ofCivil? date.civil).map .startOf

theorem endsBefore_tail (s : Spelling) : s.date.EndsBefore s.tail := by
  cases s with
  | withOffset date separator clock zone plain => exact plain.1.endsBefore
  | joinedByT date clock => exact .inr (stops_cons.2 (by decide))
  | joinedByBlanks date clock ends => exact ends
  | dateOnly date => exact .inr stops_nil

end Spelling

/-! ## Readers and spellings -/

theorem looseNumber_dropBlanks (cs : List Char) : looseNumber (dropBlanks cs) = looseNumber cs := by
  unfold looseNumber dropBlanks
  rw [List.dropWhile_idempotent]

theorem looseClock_dropBlanks (cs : List Char) : looseClock (dropBlanks cs) = looseClock cs := by
  unfold looseClock clockBy
  rw [looseNumber_dropBlanks]

theorem looseClock_chars (c : ClockSpelling) : looseClock c.chars = some (c.parts, []) := by
  have hread := looseClock_spelled c closes_nil
  rwa [List.append_nil] at hread

theorem endingClock?_chars (civil : Civil) (c : ClockSpelling) :
    endingClock? civil c.chars = c.on? civil := by
  simp only [endingClock?, looseClock_chars, Option.bind_eq_bind, Option.bind_some]
  rfl

theorem endingClock?_sound (h : endingClock? civil cs = some t) :
    ∃ c : ClockSpelling, cs = c.chars := by
  simp only [endingClock?, Option.bind_eq_bind, Option.bind_eq_some_iff] at h
  obtain ⟨⟨parts, rest⟩, hread, h⟩ := h
  obtain ⟨c, rfl, -⟩ := looseClock_sound hread
  split at h
  · next hend =>
    obtain rfl : rest = [] := List.isEmpty_iff.1 hend
    exact ⟨c, List.append_nil _⟩
  · cases h

theorem endingClock?_dropBlanks (civil : Civil) (cs : List Char) :
    endingClock? civil (dropBlanks cs) = endingClock? civil cs := by
  unfold endingClock?
  rw [looseClock_dropBlanks]

/-- A spelling is read in its layout, as the time that it names. -/
theorem Layout.read_chars (s : Spelling) : s.layout.read s.chars = s.time? := by
  cases s with
  | withOffset date separator clock zone plain mem =>
    have hseparator := mem_separators.1 mem
    have hzone := offset_spelled zone []
    rw [List.append_nil] at hzone
    show withOffset? (date.chars ++ separator :: (clock.chars ++ zone.chars)) =
      (clock.on? date.civil).bind fun t => t.minutesEarlier? zone.minutes
    simp only [withOffset?, instantBy, fixedDate_spelled plain.1, if_pos hseparator, hzone,
      fixedClock_spelled plain.2 zone.closes_chars, ClockSpelling.parts, Option.bind_eq_bind,
      Option.bind_some, List.isEmpty_nil, if_true, ClockSpelling.on?, Option.bind_assoc]
  | joinedByT date clock =>
    show joinedByT? (date.chars ++ 'T' :: clock.chars) = clock.on? date.civil
    have hdate := looseDate_spelled date (Spelling.joinedByT date clock).endsBefore_tail
    rw [Spelling.tail] at hdate
    simp only [joinedByT?, hdate, literal_cons, endingClock?_chars, Option.bind_eq_bind,
      Option.bind_some]
  | joinedByBlanks date clock ends =>
    show joinedByBlanks? (date.chars ++ clock.chars) = clock.on? date.civil
    simp only [joinedByBlanks?, looseDate_spelled date ends, endingClock?_dropBlanks,
      endingClock?_chars, Option.bind_eq_bind, Option.bind_some]
  | dateOnly date =>
    show dateOnly? (date.chars ++ []) = (Date.ofCivil? date.civil).map .startOf
    simp only [dateOnly?, looseDate_spelled date (.inr stops_nil), Option.bind_eq_bind,
      Option.bind_some, List.isEmpty_nil, if_true]

theorem Layout.read_sound {l : Layout} (h : l.read cs = some t) :
    ∃ s : Spelling, s.layout = l ∧ s.chars = cs := by
  cases l with
  | withOffset =>
    simp only [read, withOffset?, instantBy, Option.bind_eq_bind, Option.bind_eq_some_iff] at h
    obtain ⟨⟨civil, rest⟩, hdate, h⟩ := h
    obtain ⟨d, hd, rfl, rfl⟩ := fixedDate_sound hdate
    split at h
    · cases h
    · next separator cs₁ hrest =>
      split at h
      · next hseparator =>
        simp only [Option.bind_eq_some_iff] at h
        obtain ⟨⟨parts, rest⟩, hclock, ⟨minutes, rest'⟩, hoffset, h⟩ := h
        obtain ⟨c, hc, rfl, rfl⟩ := fixedClock_sound hclock
        obtain ⟨z, rfl, rfl⟩ := offset_sound hoffset
        split at h
        · next hend =>
          obtain rfl : rest' = [] := List.isEmpty_iff.1 hend
          rw [List.append_nil] at hrest
          exact ⟨.withOffset d separator c z ⟨hd, hc⟩ (mem_separators.2 hseparator), rfl,
            congrArg (d.chars ++ ·) hrest.symm⟩
        · cases h
      · cases h
  | joinedByT =>
    simp only [read, joinedByT?, Option.bind_eq_bind, Option.bind_eq_some_iff] at h
    obtain ⟨⟨civil, rest⟩, hdate, ⟨_, rest'⟩, hliteral, h⟩ := h
    obtain ⟨d, rfl, -, rfl⟩ := looseDate_sound hdate
    obtain rfl := literal_eq_some_iff.1 hliteral
    obtain ⟨c, rfl⟩ := endingClock?_sound h
    exact ⟨.joinedByT d c, rfl, rfl⟩
  | joinedByBlanks =>
    simp only [read, joinedByBlanks?, Option.bind_eq_bind, Option.bind_eq_some_iff] at h
    obtain ⟨⟨civil, rest⟩, hdate, h⟩ := h
    obtain ⟨d, rfl, hends, rfl⟩ := looseDate_sound hdate
    rw [endingClock?_dropBlanks] at h
    obtain ⟨c, rfl⟩ := endingClock?_sound h
    exact ⟨.joinedByBlanks d c hends, rfl, rfl⟩
  | dateOnly =>
    simp only [read, dateOnly?, Option.bind_eq_bind, Option.bind_eq_some_iff] at h
    obtain ⟨⟨civil, rest⟩, hdate, h⟩ := h
    obtain ⟨d, rfl, -, rfl⟩ := looseDate_sound hdate
    split at h
    · next hend =>
      obtain rfl : rest = [] := List.isEmpty_iff.1 hend
      exact ⟨.dateOnly d, rfl, rfl⟩
    · cases h

/-! ## One spelling a text -/

theorem looseClock_T (cs : List Char) : looseClock ('T' :: cs) = none := rfl

theorem looseClock_t (cs : List Char) : looseClock ('t' :: cs) = none := rfl

namespace Spelling

variable {s s' : Spelling}

/-- The layout of a text, told by what stands after its date: nothing, a time of day that ends the
text, or one more character before a time of day that ends the text or does not. -/
def layoutOf (tail : List Char) : Layout :=
  if tail = [] then .dateOnly
  else if (looseClock tail).map Prod.snd = some [] then .joinedByBlanks
  else if (looseClock (tail.drop 1)).map Prod.snd = some [] then .joinedByT
  else .withOffset

theorem layoutOf_tail (s : Spelling) : layoutOf s.tail = s.layout := by
  cases s with
  | withOffset date separator clock zone plain mem =>
    have hread := looseClock_spelled clock zone.closes_chars
    have hspace : looseClock (' ' :: (clock.chars ++ zone.chars)) =
        some (clock.parts, zone.chars) := by
      rw [← hread, ← looseClock_dropBlanks (' ' :: _), ← looseClock_dropBlanks (clock.chars ++ _)]
      rfl
    have hzone := zone.chars_ne_nil
    rcases mem_separators.1 mem with rfl | rfl | rfl <;>
      simp [layoutOf, tail, hread, looseClock_T, looseClock_t, hspace, hzone, layout]
  | joinedByT date clock =>
    have hread := looseClock_chars clock
    simp [layoutOf, tail, looseClock_T, hread, layout]
  | joinedByBlanks date clock ends =>
    have hread := looseClock_chars clock
    have hne : clock.chars ≠ [] := by
      intro hnil
      rw [hnil] at hread
      cases hread
    simp [layoutOf, tail, hread, hne, layout]
  | dateOnly date => rfl

theorem chars_inj (h : s.chars = s'.chars) : s = s' := by
  obtain ⟨hdate, htail⟩ := DateSpelling.append_inj s.endsBefore_tail s'.endsBefore_tail h
  have hlayout : s.layout = s'.layout := by
    rw [← layoutOf_tail, ← layoutOf_tail, htail]
  cases s with
  | withOffset date separator clock zone plain mem =>
    cases s' with
    | withOffset date' separator' clock' zone' plain' mem' =>
      obtain ⟨hseparator, htail⟩ := List.cons.inj htail
      obtain ⟨hclock, hzone⟩ := ClockSpelling.append_inj zone.closes_chars zone'.closes_chars htail
      have hzone := Zone.chars_inj hzone
      have hdate : date = date' := hdate
      subst hdate hseparator hclock hzone
      rfl
    | joinedByT | joinedByBlanks | dateOnly => cases hlayout
  | joinedByT date clock =>
    cases s' with
    | joinedByT date' clock' =>
      have hdate : date = date' := hdate
      have hclock := ClockSpelling.chars_inj (List.cons.inj htail).2
      subst hdate hclock
      rfl
    | withOffset | joinedByBlanks | dateOnly => cases hlayout
  | joinedByBlanks date clock ends =>
    cases s' with
    | joinedByBlanks date' clock' ends' =>
      have hdate : date = date' := hdate
      have hclock := ClockSpelling.chars_inj htail
      subst hdate hclock
      rfl
    | withOffset | joinedByT | dateOnly => cases hlayout
  | dateOnly date =>
    cases s' with
    | dateOnly date' => exact congrArg dateOnly hdate
    | withOffset | joinedByT | joinedByBlanks => cases hlayout

end Spelling

/-- The layouts exclude each other. -/
theorem Layout.eq_of_read {l l' : Layout} {u : Instant} (h : l.read cs = some t)
    (h' : l'.read cs = some u) : l = l' := by
  obtain ⟨s, rfl, rfl⟩ := read_sound h
  obtain ⟨s', rfl, hchars⟩ := read_sound h'
  rw [Spelling.chars_inj hchars]

theorem Layout.read_eq_some_iff {l : Layout} :
    l.read cs = some t ↔ ∃ s : Spelling, s.layout = l ∧ s.chars = cs ∧ s.time? = some t := by
  refine ⟨fun h => ?_, ?_⟩
  · obtain ⟨s, rfl, rfl⟩ := read_sound h
    exact ⟨s, rfl, rfl, (read_chars s).symm.trans h⟩
  · rintro ⟨s, rfl, rfl, htime⟩
    rw [read_chars, htime]

/-! ## Documented shapes -/

/-- The sign of an offset is written in ASCII. -/
def Zone.Plain : Zone → Prop
  | utc .. => True
  | shift sign .. => sign ≠ '\u2212'

namespace Spelling

/-- The shapes for which the layouts stand. With an offset: all that the strict layout accepts, but
for the sign U+2212. Without one: a year of four digits, other numbers of two, nothing around them
but the signs of the layout, and one space where the layout has blanks. -/
def Documented : Spelling → Prop
  | withOffset _ _ _ zone .. => zone.Plain
  | joinedByT date clock => date.Plain ∧ clock.Plain
  | joinedByBlanks date clock .. => date.Plain ∧ clock.PlainAfter [' ']
  | dateOnly date => date.Plain

theorem Documented.plain_date {s : Spelling} (h : s.Documented) : s.date.Plain := by
  cases s with
  | withOffset date separator clock zone plain => exact plain.1
  | joinedByT date clock => exact h.1
  | joinedByBlanks date clock => exact h.1
  | dateOnly date => exact h

theorem Documented.ten_le_length {s : Spelling} (h : s.Documented) : 10 ≤ s.chars.length := by
  rw [chars, List.length_append, h.plain_date.length_chars]
  omega

/-- In each layout a documented shape names every instant of the years from 0 to 9999, and every
midnight where the layout has no time of day. -/
theorem exists_documented {l : Layout} (hlow : 0 ≤ t.date.civil.year)
    (hhigh : t.date.civil.year ≤ 9999) (hmidnight : l = .dateOnly → t = .startOf t.date) :
    ∃ s : Spelling, s.layout = l ∧ s.Documented ∧ s.time? = some t := by
  obtain ⟨ds, hfraction, -⟩ := exists_isFraction (Nat.mod_lt t.nano (by decide : 0 < giga))
  have hdate := DateSpelling.plain_ofDate hlow hhigh
  have hcivil := DateSpelling.civil_ofDate t.date
  have hclock := ClockSpelling.plain_ofInstant t hfraction
  have htime := ClockSpelling.on?_ofInstant t hfraction
  rw [← hcivil] at htime
  cases l with
  | withOffset =>
    refine ⟨.withOffset (.ofDate t.date) 'T' (.ofInstant t hfraction) (.utc 'Z' (.inl rfl))
      ⟨hdate, hclock⟩ (by decide), rfl, trivial, ?_⟩
    rw [time?, htime, Option.bind_some]
    exact t.minutesEarlier?_zero
  | joinedByT =>
    exact ⟨.joinedByT (.ofDate t.date) (.ofInstant t hfraction), rfl, ⟨hdate, hclock⟩, htime⟩
  | joinedByBlanks =>
    let hour : Numeral := { Numeral.ofNat (t.second / 3600) with
      blanks := [' ']
      allBlank := List.forall_mem_singleton.2 rfl }
    refine ⟨.joinedByBlanks (.ofDate t.date)
      { ClockSpelling.ofInstant t hfraction with hour := hour } hdate.endsBefore, rfl,
      ⟨hdate, ⟨rfl, length_padded 2 _⟩, hclock.2⟩, htime⟩
  | dateOnly =>
    refine ⟨.dateOnly (.ofDate t.date), rfl, hdate, ?_⟩
    rw [time?, hcivil, Date.ofCivil?_civil, hmidnight rfl]
    rfl

end Spelling

end IssueFlow.Calendar
