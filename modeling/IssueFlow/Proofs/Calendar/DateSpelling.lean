import IssueFlow.Calendar.Layout
import IssueFlow.Proofs.Text.Digits

/-!
# Spellings of dates

A spelling keeps what a reader throws away: the blanks before a number, its digits and its sign. The
loose layout reads exactly the spellings of a date (`looseDate_spelled`, `looseDate_sound`), the
strict layout the plain ones among them (`fixedDate_spelled`, `fixedDate_sound`), and no text can be
cut into two spellings (`DateSpelling.append_inj`).
-/

namespace IssueFlow.Calendar

open IssueFlow.Text

variable {blanks cs ds rest rest' : List Char} {n : Nat}

/-! ## Numbers -/

/-- A number of a date or of a time of day: one or two digits after any blanks. -/
@[ext]
structure Numeral where
  blanks : List Char
  digits : List Char
  allBlank : ∀ c ∈ blanks, isBlank c = true
  allDigits : AllDigits digits
  ne_nil : digits ≠ []
  length_le : digits.length ≤ 2

namespace Numeral

def chars (x : Numeral) : List Char := x.blanks ++ x.digits

def value (x : Numeral) : Nat := numberOf x.digits

/-- Two digits after the given blanks. -/
def PlainAfter (blanks : List Char) (x : Numeral) : Prop := x.blanks = blanks ∧ x.digits.length = 2

/-- Two digits. -/
abbrev Plain (x : Numeral) : Prop := x.PlainAfter []

variable {x y : Numeral}

theorem PlainAfter.endsBefore (h : x.PlainAfter blanks) : EndsBefore 2 x.digits rest := .inl h.2

theorem dropBlanks_chars_append (x : Numeral) (rest : List Char) :
    dropBlanks (x.chars ++ rest) = x.digits ++ rest := by
  rw [chars, List.append_assoc, dropBlanks_blanks_append x.allBlank,
    dropBlanks_append x.allDigits x.ne_nil]

theorem append_inj (hx : EndsBefore 2 x.digits rest) (hy : EndsBefore 2 y.digits rest')
    (h : x.chars ++ rest = y.chars ++ rest') : x = y ∧ rest = rest' := by
  rw [chars, chars, List.append_assoc, List.append_assoc] at h
  obtain ⟨hblanks, hdigits⟩ := blanks_append_inj x.allBlank y.allBlank
    (dropBlanks_append x.allDigits x.ne_nil _) (dropBlanks_append y.allDigits y.ne_nil _) h
  have hspan := congrArg (spanDigits 2) hdigits
  rw [spanDigits_of_endsBefore x.allDigits x.length_le hx,
    spanDigits_of_endsBefore y.allDigits y.length_le hy] at hspan
  obtain ⟨hdigits, hrest⟩ := Prod.mk.inj hspan
  exact ⟨Numeral.ext hblanks hdigits, hrest⟩

end Numeral

theorem looseNumber_spelled (x : Numeral) (h : EndsBefore 2 x.digits rest) :
    looseNumber (x.chars ++ rest) = some (x.value, rest) := by
  rw [looseNumber, x.dropBlanks_chars_append]
  exact upTo_of_endsBefore x.allDigits x.ne_nil x.length_le h

theorem looseNumber_sound (h : looseNumber cs = some (n, rest)) :
    ∃ x : Numeral, cs = x.chars ++ rest ∧ EndsBefore 2 x.digits rest ∧ x.value = n := by
  obtain ⟨bs, hblank, hcs⟩ := exists_blanks_append cs
  obtain ⟨ds, hds, hdigits, hne, hle, hends, hvalue⟩ := upTo_sound h
  refine ⟨⟨bs, ds, hblank, hdigits, hne, hle⟩, ?_, hends, hvalue⟩
  rw [hcs, hds]
  exact (List.append_assoc bs ds rest).symm

theorem exactly_spelled {x : Numeral} (h : x.Plain) (rest : List Char) :
    exactly 2 (x.chars ++ rest) = some (x.value, rest) := by
  obtain ⟨hblanks, hlength⟩ := h
  rw [Numeral.chars, hblanks, List.nil_append, ← hlength]
  exact exactly_append x.allDigits rest

theorem exactly_two_sound (h : exactly 2 cs = some (n, rest)) :
    ∃ x : Numeral, x.Plain ∧ cs = x.chars ++ rest ∧ x.value = n := by
  obtain ⟨ds, hds, hdigits, hlength, hvalue⟩ := exactly_sound h
  have hne : ds ≠ [] := List.ne_nil_of_length_eq_add_one hlength
  exact ⟨⟨[], ds, List.forall_mem_nil _, hdigits, hne, hlength.le⟩, ⟨rfl, hlength⟩, hds, hvalue⟩

/-! ## Years -/

/-- A year after any blanks: one to four digits, or a sign and any number of digits. -/
@[ext]
structure YearNumeral where
  blanks : List Char
  sign : Option Char
  digits : List Char
  allBlank : ∀ c ∈ blanks, isBlank c = true
  sign_mem : ∀ c ∈ sign, c = '-' ∨ c = '+'
  allDigits : AllDigits digits
  ne_nil : digits ≠ []
  length_le : sign = none → digits.length ≤ 4

namespace YearNumeral

def chars (x : YearNumeral) : List Char := x.blanks ++ (x.sign.toList ++ x.digits)

def value (x : YearNumeral) : Int :=
  if x.sign = some '-' then -(numberOf x.digits : Int) else numberOf x.digits

/-- Four digits. -/
def Plain (x : YearNumeral) : Prop := x.blanks = [] ∧ x.sign = none ∧ x.digits.length = 4

variable {x y : YearNumeral}

theorem chars_append (x : YearNumeral) (rest : List Char) :
    x.chars ++ rest = x.blanks ++ (x.sign.toList ++ (x.digits ++ rest)) := by
  simp only [chars, List.append_assoc]

theorem dropBlanks_signed (x : YearNumeral) (rest : List Char) :
    dropBlanks (x.sign.toList ++ (x.digits ++ rest)) = x.sign.toList ++ (x.digits ++ rest) := by
  cases hsign : x.sign with
  | none => exact dropBlanks_append x.allDigits x.ne_nil rest
  | some c =>
    rcases x.sign_mem c hsign with rfl | rfl <;> exact List.dropWhile_cons_of_neg (by decide)

theorem dropBlanks_chars_append (x : YearNumeral) (rest : List Char) :
    dropBlanks (x.chars ++ rest) = x.sign.toList ++ (x.digits ++ rest) := by
  rw [chars_append, dropBlanks_blanks_append x.allBlank, dropBlanks_signed]

/-- The sign is what stands before the digits, if that is no digit. -/
theorem sign_eq (x : YearNumeral) (rest : List Char) :
    (x.sign.toList ++ (x.digits ++ rest)).head?.filter (fun c => !c.isDigit) = x.sign := by
  cases hsign : x.sign with
  | none =>
    obtain ⟨d, ds, hdigits⟩ := List.exists_cons_of_ne_nil x.ne_nil
    have hd := x.allDigits d (hdigits ▸ List.mem_cons_self)
    simp [hdigits, hd]
  | some c => rcases x.sign_mem c hsign with rfl | rfl <;> rfl

theorem append_inj (h : x.chars ++ '-' :: rest = y.chars ++ '-' :: rest') :
    x = y ∧ rest = rest' := by
  have hstops (cs : List Char) : Stops ('-' :: cs) := stops_cons.2 (by decide)
  rw [chars_append, chars_append] at h
  obtain ⟨hblanks, hsigned⟩ := blanks_append_inj x.allBlank y.allBlank (x.dropBlanks_signed _)
    (y.dropBlanks_signed _) h
  have hsign : x.sign = y.sign := by rw [← x.sign_eq ('-' :: rest), hsigned, y.sign_eq]
  rw [hsign] at hsigned
  obtain ⟨hdigits, hrest⟩ := digits_append_inj x.allDigits y.allDigits (hstops rest)
    (hstops rest') (List.append_cancel_left hsigned)
  exact ⟨YearNumeral.ext hblanks hsign hdigits, (List.cons.inj hrest).2⟩

end YearNumeral

/-- Digits without a sign are read as a year of up to four digits. -/
theorem looseYear_of_allDigits (h : AllDigits ds) (hne : ds ≠ []) (rest : List Char) :
    looseYear (ds ++ rest) = (upTo 4 (ds ++ rest)).map fun (n, rest) => ((n : Int), rest) := by
  obtain ⟨c, cs, rfl⟩ := List.exists_cons_of_ne_nil hne
  have hdigit := h c List.mem_cons_self
  unfold looseYear
  rw [dropBlanks_append h hne]
  split
  · next heq =>
    rw [(List.cons.inj heq).1] at hdigit
    cases hdigit
  · next heq =>
    rw [(List.cons.inj heq).1] at hdigit
    cases hdigit
  · rfl

theorem looseYear_spelled (x : YearNumeral) (rest : List Char) :
    looseYear (x.chars ++ '-' :: rest) = some (x.value, '-' :: rest) := by
  have hread : unbounded (x.digits ++ '-' :: rest) = some (numberOf x.digits, '-' :: rest) :=
    unbounded_append x.allDigits x.ne_nil (by decide)
  unfold looseYear YearNumeral.value
  rw [x.dropBlanks_chars_append]
  cases hsign : x.sign with
  | none =>
    have hshort := upTo_of_endsBefore x.allDigits x.ne_nil (x.length_le hsign)
      (.inr (stops_cons.2 (by decide) : Stops ('-' :: rest)))
    have hyear := looseYear_of_allDigits x.allDigits x.ne_nil ('-' :: rest)
    rw [looseYear, dropBlanks_append x.allDigits x.ne_nil, hshort] at hyear
    exact hyear
  | some c =>
    rcases x.sign_mem c hsign with rfl | rfl
    · show (unbounded (x.digits ++ '-' :: rest)).map _ = _
      rw [hread]
      rfl
    · show (unbounded (x.digits ++ '-' :: rest)).map _ = _
      rw [hread]
      rfl

theorem YearNumeral.exists_signed {c : Char} (hc : c = '-' ∨ c = '+')
    (hdrop : dropBlanks cs = c :: ds) (hread : unbounded ds = some (n, rest)) :
    ∃ x : YearNumeral, cs = x.chars ++ rest ∧ x.sign = some c ∧ numberOf x.digits = n := by
  obtain ⟨bs, hblank, hcs⟩ := exists_blanks_append cs
  obtain ⟨ds, rfl, hdigits, hne, hvalue⟩ := unbounded_sound hread
  have hsign : ∀ d ∈ some c, d = '-' ∨ d = '+' := by
    rintro d ⟨⟩
    exact hc
  refine ⟨⟨bs, some c, ds, hblank, hsign, hdigits, hne, nofun⟩, ?_, rfl, hvalue⟩
  rw [YearNumeral.chars_append, hcs, hdrop]
  rfl

theorem looseYear_sound {year : Int} (h : looseYear cs = some (year, rest)) :
    ∃ x : YearNumeral, cs = x.chars ++ rest ∧ x.value = year := by
  unfold looseYear at h
  split at h
  · next ds hdrop =>
    obtain ⟨⟨n, rest⟩, hread, heq⟩ := Option.map_eq_some_iff.1 h
    obtain ⟨rfl, rfl⟩ := Prod.mk.inj heq
    obtain ⟨x, hcs, hsign, hvalue⟩ := YearNumeral.exists_signed (.inl rfl) hdrop hread
    exact ⟨x, hcs, by rw [YearNumeral.value, if_pos hsign, hvalue]⟩
  · next ds hdrop =>
    obtain ⟨⟨n, rest⟩, hread, heq⟩ := Option.map_eq_some_iff.1 h
    obtain ⟨rfl, rfl⟩ := Prod.mk.inj heq
    obtain ⟨x, hcs, hsign, hvalue⟩ := YearNumeral.exists_signed (.inr rfl) hdrop hread
    exact ⟨x, hcs, by rw [YearNumeral.value, if_neg (by simp [hsign]), hvalue]⟩
  · obtain ⟨⟨n, rest⟩, hread, heq⟩ := Option.map_eq_some_iff.1 h
    obtain ⟨rfl, rfl⟩ := Prod.mk.inj heq
    obtain ⟨bs, hblank, hcs⟩ := exists_blanks_append cs
    obtain ⟨ds, hds, hdigits, hne, hle, -, rfl⟩ := upTo_sound hread
    refine ⟨⟨bs, none, ds, hblank, nofun, hdigits, hne, fun _ => hle⟩, ?_, rfl⟩
    rw [YearNumeral.chars_append, hcs, hds]
    rfl

theorem fixedYear_spelled {x : YearNumeral} (h : x.Plain) (rest : List Char) :
    fixedYear (x.chars ++ rest) = some (x.value, rest) := by
  obtain ⟨hblanks, hsign, hlength⟩ := h
  have hread := exactly_append x.allDigits rest
  have hvalue : x.value = numberOf x.digits := if_neg (by simp [hsign])
  rw [hlength] at hread
  rw [fixedYear, x.chars_append, hblanks, hsign, hvalue]
  exact congrArg (Option.map fun (n, rest) => ((n : Int), rest)) hread

theorem fixedYear_sound {year : Int} (h : fixedYear cs = some (year, rest)) :
    ∃ x : YearNumeral, x.Plain ∧ cs = x.chars ++ rest ∧ x.value = year := by
  obtain ⟨⟨n, rest⟩, hread, heq⟩ := Option.map_eq_some_iff.1 h
  obtain ⟨rfl, rfl⟩ := Prod.mk.inj heq
  obtain ⟨ds, hds, hdigits, hlength, rfl⟩ := exactly_sound hread
  have hne : ds ≠ [] := List.ne_nil_of_length_eq_add_one hlength
  exact ⟨⟨[], none, ds, List.forall_mem_nil _, nofun, hdigits, hne, fun _ => hlength.le⟩,
    ⟨rfl, rfl, hlength⟩, hds, rfl⟩

/-! ## Dates -/

/-- What a date is read from: its numbers one after the other, with something between them. -/
theorem dateBy_eq_some_iff {year : Reader Int} {number : Reader Nat} {hyphen : Reader Unit}
    {c : Civil} : dateBy year number hyphen cs = some (c, rest) ↔
      ∃ cs₁ cs₂ cs₃ cs₄, year cs = some (c.year, cs₁) ∧ hyphen cs₁ = some ((), cs₂) ∧
        number cs₂ = some (c.month, cs₃) ∧ hyphen cs₃ = some ((), cs₄) ∧
        number cs₄ = some (c.day, rest) := by
  simp only [dateBy, Option.bind_eq_bind, Option.bind_eq_some_iff]
  constructor
  · rintro ⟨⟨y, cs₁⟩, hyear, ⟨_, cs₂⟩, hhyphen, ⟨m, cs₃⟩, hmonth, ⟨_, cs₄⟩, hhyphen', ⟨d, cs₅⟩, hday,
      heq⟩
    obtain ⟨rfl, rfl⟩ := Prod.mk.inj (Option.some.inj heq)
    exact ⟨cs₁, cs₂, cs₃, cs₄, hyear, hhyphen, hmonth, hhyphen', hday⟩
  · rintro ⟨cs₁, cs₂, cs₃, cs₄, hyear, hhyphen, hmonth, hhyphen', hday⟩
    exact ⟨_, hyear, _, hhyphen, _, hmonth, _, hhyphen', _, hday, rfl⟩

/-- A year, a month and a day joined by hyphens. -/
@[ext]
structure DateSpelling where
  year : YearNumeral
  month : Numeral
  day : Numeral

namespace DateSpelling

def chars (d : DateSpelling) : List Char :=
  d.year.chars ++ '-' :: (d.month.chars ++ '-' :: d.day.chars)

def civil (d : DateSpelling) : Civil := ⟨d.year.value, d.month.value, d.day.value⟩

/-- Four, two and two digits. -/
def Plain (d : DateSpelling) : Prop := d.year.Plain ∧ d.month.Plain ∧ d.day.Plain

/-- The text after a date cannot be taken for another digit of its day. -/
abbrev EndsBefore (d : DateSpelling) (rest : List Char) : Prop :=
  Text.EndsBefore 2 d.day.digits rest

variable {d e : DateSpelling}

theorem Plain.endsBefore (h : d.Plain) : d.EndsBefore rest := h.2.2.endsBefore

theorem chars_append (d : DateSpelling) (rest : List Char) : d.chars ++ rest =
    d.year.chars ++ '-' :: (d.month.chars ++ '-' :: (d.day.chars ++ rest)) := by
  simp only [chars, List.append_assoc, List.cons_append]

theorem Plain.length_chars (h : d.Plain) : d.chars.length = 10 := by
  obtain ⟨⟨hblanks, hsign, hyear⟩, ⟨hblanks', hmonth⟩, ⟨hblanks'', hday⟩⟩ := h
  simp [chars, YearNumeral.chars, Numeral.chars, *]

theorem append_inj (hd : d.EndsBefore rest) (he : e.EndsBefore rest')
    (h : d.chars ++ rest = e.chars ++ rest') : d = e ∧ rest = rest' := by
  have hstops (cs : List Char) : Stops ('-' :: cs) := stops_cons.2 (by decide)
  rw [chars_append, chars_append] at h
  obtain ⟨hyear, h⟩ := YearNumeral.append_inj h
  obtain ⟨hmonth, h⟩ := Numeral.append_inj (.inr (hstops _)) (.inr (hstops _)) h
  obtain ⟨hday, hrest⟩ := Numeral.append_inj hd he (List.cons.inj h).2
  exact ⟨DateSpelling.ext hyear hmonth hday, hrest⟩

end DateSpelling

theorem looseDate_spelled (d : DateSpelling) (h : d.EndsBefore rest) :
    looseDate (d.chars ++ rest) = some (d.civil, rest) := by
  have hmonth := looseNumber_spelled d.month
    (.inr (stops_cons.2 (by decide) : Stops ('-' :: (d.day.chars ++ rest))))
  rw [looseDate, d.chars_append, dateBy_eq_some_iff]
  exact ⟨_, _, _, _, looseYear_spelled _ _, literal_cons _ _, hmonth, literal_cons _ _,
    looseNumber_spelled d.day h⟩

theorem looseDate_sound {c : Civil} (h : looseDate cs = some (c, rest)) :
    ∃ d : DateSpelling, cs = d.chars ++ rest ∧ d.EndsBefore rest ∧ d.civil = c := by
  obtain ⟨cs₁, cs₂, cs₃, cs₄, hyear, hhyphen, hmonth, hhyphen', hday⟩ := dateBy_eq_some_iff.1 h
  obtain ⟨y, rfl, hy⟩ := looseYear_sound hyear
  obtain rfl := literal_eq_some_iff.1 hhyphen
  obtain ⟨m, rfl, -, hm⟩ := looseNumber_sound hmonth
  obtain rfl := literal_eq_some_iff.1 hhyphen'
  obtain ⟨d, rfl, hends, hd⟩ := looseNumber_sound hday
  refine ⟨⟨y, m, d⟩, (DateSpelling.chars_append ⟨y, m, d⟩ _).symm, hends, ?_⟩
  rw [DateSpelling.civil, hy, hm, hd]

theorem fixedDate_spelled {d : DateSpelling} (h : d.Plain) (rest : List Char) :
    fixedDate (d.chars ++ rest) = some (d.civil, rest) := by
  obtain ⟨hyear, hmonth, hday⟩ := h
  rw [fixedDate, d.chars_append, dateBy_eq_some_iff]
  exact ⟨_, _, _, _, fixedYear_spelled hyear _, literal_cons _ _, exactly_spelled hmonth _,
    literal_cons _ _, exactly_spelled hday _⟩

theorem fixedDate_sound {c : Civil} (h : fixedDate cs = some (c, rest)) :
    ∃ d : DateSpelling, d.Plain ∧ cs = d.chars ++ rest ∧ d.civil = c := by
  obtain ⟨cs₁, cs₂, cs₃, cs₄, hyear, hhyphen, hmonth, hhyphen', hday⟩ := dateBy_eq_some_iff.1 h
  obtain ⟨y, hy, rfl, hyvalue⟩ := fixedYear_sound hyear
  obtain rfl := literal_eq_some_iff.1 hhyphen
  obtain ⟨m, hm, rfl, hmvalue⟩ := exactly_two_sound hmonth
  obtain rfl := literal_eq_some_iff.1 hhyphen'
  obtain ⟨d, hd, rfl, hdvalue⟩ := exactly_two_sound hday
  refine ⟨⟨y, m, d⟩, ⟨hy, hm, hd⟩, (DateSpelling.chars_append ⟨y, m, d⟩ _).symm, ?_⟩
  rw [DateSpelling.civil, hyvalue, hmvalue, hdvalue]

end IssueFlow.Calendar
