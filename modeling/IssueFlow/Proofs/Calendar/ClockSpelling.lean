import IssueFlow.Proofs.Calendar.DateText

/-!
# Spellings of times of day and of offsets

As for dates: the loose layout reads exactly the spellings of a time of day, the strict layout the
plain ones (`looseClock_spelled`, `fixedClock_spelled` and their converses), and the text says which
spelling it is (`ClockSpelling.append_inj`, `Zone.chars_inj`).
-/

namespace IssueFlow.Calendar

open IssueFlow.Text

variable {blanks cs ds rest rest' : List Char} {n : Nat}

/-! ## Times of day -/

theorem pointed_of_ne_nil (h : ds ≠ []) : pointed ds = '.' :: ds := by
  cases ds with
  | nil => exact absurd rfl h
  | cons d ds => rfl

theorem stops_pointed_append (h : Closes rest) : Stops (pointed ds ++ rest) := by
  cases ds with
  | nil => exact h.stops
  | cons d ds => exact stops_cons.2 (by decide)

theorem pointed_append_inj {ds' : List Char} (h : AllDigits ds) (h' : AllDigits ds')
    (hrest : Closes rest) (hrest' : Closes rest')
    (heq : pointed ds ++ rest = pointed ds' ++ rest') : ds = ds' ∧ rest = rest' := by
  cases ds with
  | nil =>
    cases ds' with
    | nil => exact ⟨rfl, heq⟩
    | cons d' ds' => exact absurd heq hrest.ne_point
  | cons d ds =>
    cases ds' with
    | nil => exact absurd heq.symm hrest'.ne_point
    | cons d' ds' => exact digits_append_inj h h' hrest.stops hrest'.stops (List.cons.inj heq).2

theorem fraction_sound (h : fraction cs = some (n, rest)) :
    ∃ ds, AllDigits ds ∧ cs = pointed ds ++ rest ∧ nanosOf ds = n := by
  unfold fraction at h
  split at h
  · next cs =>
    dsimp only at h
    split at h
    · cases h
    · next hne =>
      obtain ⟨rfl, rfl⟩ := Prod.mk.inj (Option.some.inj h)
      obtain ⟨hcs, hdigits⟩ := allDigits_sound (Prod.eta (allDigits cs)).symm
      refine ⟨_, hdigits, ?_, rfl⟩
      rw [pointed_of_ne_nil fun hnil => hne (List.isEmpty_iff.2 hnil), List.cons_append, ← hcs]
  · obtain ⟨rfl, rfl⟩ := Prod.mk.inj (Option.some.inj h)
    exact ⟨[], List.forall_mem_nil _, rfl, rfl⟩

/-- An hour, a minute and a second joined by colons, and the digits of a fraction, if any. -/
@[ext]
structure ClockSpelling where
  hour : Numeral
  minute : Numeral
  second : Numeral
  fraction : List Char
  allDigits : AllDigits fraction

namespace ClockSpelling

def chars (c : ClockSpelling) : List Char :=
  c.hour.chars ++ ':' :: (c.minute.chars ++ ':' :: (c.second.chars ++ pointed c.fraction))

/-- The hour, the minute, the second and the nanoseconds. -/
def parts (c : ClockSpelling) : ClockParts :=
  (c.hour.value, c.minute.value, c.second.value, nanosOf c.fraction)

/-- Two, two and two digits after the given blanks. -/
def PlainAfter (blanks : List Char) (c : ClockSpelling) : Prop :=
  c.hour.PlainAfter blanks ∧ c.minute.Plain ∧ c.second.Plain

/-- Two, two and two digits. -/
abbrev Plain (c : ClockSpelling) : Prop := c.PlainAfter []

variable {c e : ClockSpelling}

theorem chars_append (c : ClockSpelling) (rest : List Char) : c.chars ++ rest =
    c.hour.chars ++ ':' :: (c.minute.chars ++ ':' :: (c.second.chars ++
      (pointed c.fraction ++ rest))) := by
  simp only [chars, List.append_assoc, List.cons_append]

theorem append_inj (hrest : Closes rest) (hrest' : Closes rest')
    (h : c.chars ++ rest = e.chars ++ rest') : c = e ∧ rest = rest' := by
  have hstops (cs : List Char) : Stops (':' :: cs) := stops_cons.2 (by decide)
  rw [chars_append, chars_append] at h
  obtain ⟨hhour, h⟩ := Numeral.append_inj (.inr (hstops _)) (.inr (hstops _)) h
  obtain ⟨hminute, h⟩ := Numeral.append_inj (.inr (hstops _)) (.inr (hstops _)) (List.cons.inj h).2
  obtain ⟨hsecond, h⟩ := Numeral.append_inj (.inr (stops_pointed_append hrest))
    (.inr (stops_pointed_append hrest')) (List.cons.inj h).2
  obtain ⟨hfraction, h⟩ := pointed_append_inj c.allDigits e.allDigits hrest hrest' h
  exact ⟨ClockSpelling.ext hhour hminute hsecond hfraction, h⟩

theorem chars_inj (h : c.chars = e.chars) : c = e :=
  (append_inj closes_nil closes_nil (congrArg (· ++ []) h)).1

/-- The time of a date that the clock shows. -/
def on? (c : ClockSpelling) (civil : Civil) : Option Instant :=
  (Date.ofCivil? civil).bind fun d =>
    Instant.ofParts? d c.hour.value c.minute.value c.second.value (nanosOf c.fraction)

/-- The time of day of an instant, with the digits of its fraction. -/
def ofInstant (t : Instant) (h : IsFraction ds (t.nano % giga)) : ClockSpelling where
  hour := .ofNat (t.second / 3600)
  minute := .ofNat (t.second / 60 % 60)
  second := .ofNat t.secondOfMinute
  fraction := ds
  allDigits := h.allDigits

theorem plain_ofInstant (t : Instant) (h : IsFraction ds (t.nano % giga)) :
    (ofInstant t h).Plain :=
  ⟨Numeral.plain_ofNat _, Numeral.plain_ofNat _, Numeral.plain_ofNat _⟩

theorem chars_ofInstant (t : Instant) (h : IsFraction ds (t.nano % giga)) :
    (ofInstant t h).chars = t.timeChars ++ pointed ds := by
  simp [chars, ofInstant, Numeral.chars, Numeral.ofNat, Instant.timeChars]

theorem on?_ofInstant (t : Instant) (h : IsFraction ds (t.nano % giga)) :
    (ofInstant t h).on? t.date.civil = some t := by
  have hsecond := t.second_lt
  have hle := t.secondOfMinute_le
  unfold secondsPerDay at hsecond
  rw [on?, Date.ofCivil?_civil, Option.bind_some]
  show Instant.ofParts? t.date (Numeral.ofNat (t.second / 3600)).value
    (Numeral.ofNat (t.second / 60 % 60)).value (Numeral.ofNat t.secondOfMinute).value
    (nanosOf ds) = some t
  rw [Numeral.value_ofNat (by omega), Numeral.value_ofNat (by omega),
    Numeral.value_ofNat (by omega), h.nanosOf_eq, t.ofParts?_clock]

end ClockSpelling

/-- What a time of day is read from: its numbers one after the other, with something between them,
and a fraction. -/
theorem clockBy_eq_some_iff {number : Reader Nat} {colon : Reader Unit} {h m s nano : Nat} :
    clockBy number colon cs = some ((h, m, s, nano), rest) ↔
      ∃ cs₁ cs₂ cs₃ cs₄ cs₅, number cs = some (h, cs₁) ∧ colon cs₁ = some ((), cs₂) ∧
        number cs₂ = some (m, cs₃) ∧ colon cs₃ = some ((), cs₄) ∧ number cs₄ = some (s, cs₅) ∧
        fraction cs₅ = some (nano, rest) := by
  simp only [clockBy, Option.bind_eq_bind, Option.bind_eq_some_iff]
  constructor
  · rintro ⟨⟨h', cs₁⟩, hhour, ⟨_, cs₂⟩, hcolon, ⟨m', cs₃⟩, hminute, ⟨_, cs₄⟩, hcolon', ⟨s', cs₅⟩,
      hsecond, ⟨n', cs₆⟩, hfraction, heq⟩
    cases heq
    exact ⟨cs₁, cs₂, cs₃, cs₄, cs₅, hhour, hcolon, hminute, hcolon', hsecond, hfraction⟩
  · rintro ⟨cs₁, cs₂, cs₃, cs₄, cs₅, hhour, hcolon, hminute, hcolon', hsecond, hfraction⟩
    exact ⟨_, hhour, _, hcolon, _, hminute, _, hcolon', _, hsecond, _, hfraction, rfl⟩

theorem looseClock_spelled (c : ClockSpelling) (h : Closes rest) :
    looseClock (c.chars ++ rest) = some (c.parts, rest) := by
  have hstops (cs : List Char) : Stops (':' :: cs) := stops_cons.2 (by decide)
  rw [looseClock, c.chars_append, ClockSpelling.parts, clockBy_eq_some_iff]
  exact ⟨_, _, _, _, _, looseNumber_spelled c.hour (.inr (hstops _)), literal_cons _ _,
    looseNumber_spelled c.minute (.inr (hstops _)), literal_cons _ _,
    looseNumber_spelled c.second (.inr (stops_pointed_append h)), fraction_pointed c.allDigits h⟩

theorem looseClock_sound {parts : ClockParts} (h : looseClock cs = some (parts, rest)) :
    ∃ c : ClockSpelling, cs = c.chars ++ rest ∧ c.parts = parts := by
  obtain ⟨cs₁, cs₂, cs₃, cs₄, cs₅, hhour, hcolon, hminute, hcolon', hsecond, hfraction⟩ :=
    clockBy_eq_some_iff.1 h
  obtain ⟨x, rfl, -, hx⟩ := looseNumber_sound hhour
  obtain rfl := literal_eq_some_iff.1 hcolon
  obtain ⟨y, rfl, -, hy⟩ := looseNumber_sound hminute
  obtain rfl := literal_eq_some_iff.1 hcolon'
  obtain ⟨z, rfl, -, hz⟩ := looseNumber_sound hsecond
  obtain ⟨ds, hdigits, rfl, hnano⟩ := fraction_sound hfraction
  refine ⟨⟨x, y, z, ds, hdigits⟩, (ClockSpelling.chars_append ⟨x, y, z, ds, hdigits⟩ _).symm, ?_⟩
  rw [ClockSpelling.parts, hx, hy, hz, hnano]

theorem fixedClock_spelled {c : ClockSpelling} (hplain : c.Plain) (h : Closes rest) :
    fixedClock (c.chars ++ rest) = some (c.parts, rest) := by
  obtain ⟨hhour, hminute, hsecond⟩ := hplain
  rw [fixedClock, c.chars_append, ClockSpelling.parts, clockBy_eq_some_iff]
  exact ⟨_, _, _, _, _, exactly_spelled hhour _, literal_cons _ _, exactly_spelled hminute _,
    literal_cons _ _, exactly_spelled hsecond _, fraction_pointed c.allDigits h⟩

theorem fixedClock_sound {parts : ClockParts} (h : fixedClock cs = some (parts, rest)) :
    ∃ c : ClockSpelling, c.Plain ∧ cs = c.chars ++ rest ∧ c.parts = parts := by
  obtain ⟨cs₁, cs₂, cs₃, cs₄, cs₅, hhour, hcolon, hminute, hcolon', hsecond, hfraction⟩ :=
    clockBy_eq_some_iff.1 h
  obtain ⟨x, hx, rfl, hxvalue⟩ := exactly_two_sound hhour
  obtain rfl := literal_eq_some_iff.1 hcolon
  obtain ⟨y, hy, rfl, hyvalue⟩ := exactly_two_sound hminute
  obtain rfl := literal_eq_some_iff.1 hcolon'
  obtain ⟨z, hz, rfl, hzvalue⟩ := exactly_two_sound hsecond
  obtain ⟨ds, hdigits, rfl, hnano⟩ := fraction_sound hfraction
  refine ⟨⟨x, y, z, ds, hdigits⟩, ⟨hx, hy, hz⟩,
    (ClockSpelling.chars_append ⟨x, y, z, ds, hdigits⟩ _).symm, ?_⟩
  rw [ClockSpelling.parts, hxvalue, hyvalue, hzvalue, hnano]

/-! ## Offsets -/

/-- The signs of an offset; the last one is U+2212. -/
def offsetSigns : List Char := ['+', '-', '\u2212']

/-- How a text spells an offset from UTC: a mark for none, or a sign, hours and minutes. -/
inductive Zone where
  | utc (mark : Char) (mem : mark = 'Z' ∨ mark = 'z')
  | shift (sign : Char) (hours minutes : Numeral) (mem : sign ∈ offsetSigns)
      (plain : hours.Plain ∧ minutes.Plain) (lt : hours.value < 24 ∧ minutes.value < 60)

namespace Zone

def chars : Zone → List Char
  | utc mark _ => [mark]
  | shift sign hours minutes .. => sign :: (hours.chars ++ ':' :: minutes.chars)

/-- Minutes that a clock is ahead of UTC. -/
def minutes : Zone → Int
  | utc .. => 0
  | shift sign hours minutes .. =>
    (if sign = '+' then 1 else -1) * (hours.value * 60 + minutes.value : Nat)

end Zone

theorem offsetSign_eq_some_iff {c : Char} {direction : Int} : offsetSign c = some direction ↔
    c ∈ offsetSigns ∧ (if c = '+' then 1 else -1) = direction := by
  unfold offsetSign offsetSigns
  split
  · next hplus => simp [hplus]
  · next hplus =>
    split
    · next hminus => simp [hplus, hminus]
    · next hminus => simp [hplus, hminus]

/-- An offset is read by every reader that takes the colon between its numbers. -/
theorem offsetBy_spelled {colon : Reader Unit}
    (hcolon : ∀ (x : Numeral) (rest : List Char), x.Plain →
      colon (':' :: (x.chars ++ rest)) = some ((), x.chars ++ rest)) (z : Zone)
    (rest : List Char) : offsetBy colon (z.chars ++ rest) = some (z.minutes, rest) := by
  cases z with
  | utc mark mem => exact if_pos mem
  | shift sign hours minutes mem plain lt =>
    obtain ⟨hhours, hminutes⟩ := plain
    have hmark : ¬ (sign = 'Z' ∨ sign = 'z') := by
      rintro (rfl | rfl) <;> exact absurd mem (by decide)
    have hsign := offsetSign_eq_some_iff.2 ⟨mem, rfl⟩
    simp only [Zone.chars, Zone.minutes, List.cons_append, List.append_assoc, offsetBy,
      if_neg hmark, hsign, exactly_spelled hhours, hcolon minutes rest hminutes,
      exactly_spelled hminutes, Option.bind_eq_bind, Option.bind_some, if_pos lt]
    rfl

theorem offset_spelled (z : Zone) (rest : List Char) :
    offset (z.chars ++ rest) = some (z.minutes, rest) :=
  offsetBy_spelled (fun _ _ _ => literal_cons _ _) z rest

theorem offset_sound {m : Int} (h : offset cs = some (m, rest)) :
    ∃ z : Zone, cs = z.chars ++ rest ∧ z.minutes = m := by
  unfold offset offsetBy at h
  split at h
  · cases h
  · next c cs =>
    split at h
    · next hmark =>
      obtain ⟨rfl, rfl⟩ := Prod.mk.inj (Option.some.inj h)
      exact ⟨.utc c hmark, rfl, rfl⟩
    · simp only [Option.bind_eq_bind, Option.bind_eq_some_iff] at h
      obtain ⟨direction, hsign, ⟨hours, cs₁⟩, hhours, ⟨_, cs₂⟩, hcolon, ⟨minutes, cs₃⟩, hminutes,
        heq⟩ := h
      obtain ⟨x, hx, rfl, rfl⟩ := exactly_two_sound hhours
      obtain rfl := literal_eq_some_iff.1 hcolon
      obtain ⟨y, hy, rfl, rfl⟩ := exactly_two_sound hminutes
      obtain ⟨mem, rfl⟩ := offsetSign_eq_some_iff.1 hsign
      split at heq
      · next lt =>
        obtain ⟨rfl, rfl⟩ := Prod.mk.inj (Option.some.inj heq)
        refine ⟨.shift c x y mem ⟨hx, hy⟩ lt, ?_, rfl⟩
        simp only [Zone.chars, List.cons_append, List.append_assoc]
      · cases heq

namespace Zone

variable {z w : Zone}

theorem chars_ne_nil (z : Zone) : z.chars ≠ [] := by
  cases z <;> exact List.cons_ne_nil _ _

theorem closes_chars (z : Zone) : Closes z.chars := by
  cases z with
  | utc mark mem => rcases mem with rfl | rfl <;> rintro c ⟨⟩ <;> decide
  | shift sign hours minutes mem =>
    rintro c ⟨⟩
    simp only [offsetSigns, List.mem_cons, List.not_mem_nil, or_false] at mem
    rcases mem with rfl | rfl | rfl <;> decide

theorem chars_inj (h : z.chars = w.chars) : z = w := by
  cases z with
  | utc mark mem =>
    cases w with
    | utc mark' mem' =>
      cases h
      rfl
    | shift sign' hours' minutes' => simp [chars] at h
  | shift sign hours minutes mem plain lt =>
    cases w with
    | utc mark' mem' => simp [chars] at h
    | shift sign' hours' minutes' mem' plain' lt' =>
      obtain ⟨hsign, htail⟩ := List.cons.inj h
      obtain ⟨hhours, htail⟩ := Numeral.append_inj plain.1.endsBefore plain'.1.endsBefore htail
      have hlast := congrArg (· ++ []) (List.cons.inj htail).2
      obtain ⟨hminutes, -⟩ := Numeral.append_inj (.inr stops_nil) (.inr stops_nil) hlast
      subst hsign hhours hminutes
      rfl

end Zone

end IssueFlow.Calendar
