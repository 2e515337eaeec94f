import IssueFlow.Proofs.Calendar.DateSpelling
import IssueFlow.Proofs.Calendar.Written

/-!
# Reading written dates

The text of a date is a spelling of it, whatever its year (`DateSpelling.chars_ofDate`): a year of
four digits stands without a sign, and behind a sign stand as many digits as there are. So the loose
layout reads back every written date (`Date.looseDate_chars`).
-/

namespace IssueFlow.Calendar

open IssueFlow.Text

variable {n : Nat}

theorem padded_ne_nil (w n : Nat) : padded (w + 1) n ≠ [] := by
  rw [padded]
  exact List.append_ne_nil_of_right_ne_nil _ (List.cons_ne_nil _ _)

namespace Numeral

/-- A number below a hundred in two digits. -/
def ofNat (n : Nat) : Numeral where
  blanks := []
  digits := padded 2 n
  allBlank := List.forall_mem_nil _
  allDigits := allDigits_padded 2 n
  ne_nil := padded_ne_nil 1 n
  length_le := (length_padded 2 n).le

theorem plain_ofNat (n : Nat) : (ofNat n).Plain := ⟨rfl, length_padded 2 n⟩

theorem value_ofNat (h : n < 10 ^ 2) : (ofNat n).value = n := numberOf_padded h

end Numeral

/-! ## Years -/

theorem allDigits_atLeastFour (n : Nat) : AllDigits (atLeastFour n) := by
  unfold atLeastFour
  split
  · exact allDigits_padded 4 n
  · exact allDigits_toDigits n

theorem numberOf_atLeastFour (n : Nat) : numberOf (atLeastFour n) = n := by
  unfold atLeastFour
  split
  · next h => exact numberOf_padded h
  · exact numberOf_toDigits n

theorem atLeastFour_ne_nil (n : Nat) : atLeastFour n ≠ [] := by
  unfold atLeastFour
  split
  · exact padded_ne_nil 3 n
  · exact List.length_pos_iff.1 Nat.length_toDigits_pos

namespace YearNumeral

/-- A year as it is written: in four digits, or with a sign if it has to have one. -/
def ofYear (year : Int) : YearNumeral :=
  if 0 ≤ year ∧ year ≤ 9999 then
    { blanks := []
      sign := none
      digits := padded 4 year.toNat
      allBlank := List.forall_mem_nil _
      sign_mem := nofun
      allDigits := allDigits_padded 4 _
      ne_nil := padded_ne_nil 3 _
      length_le := fun _ => (length_padded 4 _).le }
  else
    { blanks := []
      sign := some (if year < 0 then '-' else '+')
      digits := atLeastFour year.natAbs
      allBlank := List.forall_mem_nil _
      sign_mem := by
        rintro c ⟨⟩
        split
        · exact .inl rfl
        · exact .inr rfl
      allDigits := allDigits_atLeastFour _
      ne_nil := atLeastFour_ne_nil _
      length_le := nofun }

theorem chars_ofYear (year : Int) : (ofYear year).chars = yearChars year := by
  unfold ofYear yearChars
  split <;> rfl

theorem value_ofYear (year : Int) : (ofYear year).value = year := by
  unfold ofYear value
  split
  · next hfour =>
    show (numberOf (padded 4 year.toNat) : Int) = year
    rw [numberOf_padded (by omega), Int.toNat_of_nonneg hfour.1]
  · show (if some (if year < 0 then '-' else '+') = some '-' then
      -(numberOf (atLeastFour year.natAbs) : Int) else numberOf (atLeastFour year.natAbs)) = year
    rw [numberOf_atLeastFour]
    by_cases hneg : year < 0
    · rw [if_pos hneg, if_pos rfl]
      omega
    · rw [if_neg hneg, if_neg (by decide)]
      omega

theorem plain_ofYear {year : Int} (hlow : 0 ≤ year) (hhigh : year ≤ 9999) :
    (ofYear year).Plain := by
  rw [ofYear, if_pos ⟨hlow, hhigh⟩]
  exact ⟨rfl, rfl, length_padded 4 _⟩

end YearNumeral

/-! ## Dates -/

namespace DateSpelling

/-- A date as it is written. -/
def ofDate (d : Date) : DateSpelling where
  year := .ofYear d.civil.year
  month := .ofNat d.civil.month
  day := .ofNat d.civil.day

theorem chars_ofDate (d : Date) : (ofDate d).chars = d.chars := by
  have hmonth : (Numeral.ofNat d.civil.month).chars = padded 2 d.civil.month := rfl
  have hday : (Numeral.ofNat d.civil.day).chars = padded 2 d.civil.day := rfl
  simp only [chars, Date.chars, ofDate, YearNumeral.chars_ofYear, hmonth, hday, List.append_assoc,
    List.cons_append]

theorem civil_ofDate (d : Date) : (ofDate d).civil = d.civil := by
  obtain ⟨hmonth, hday⟩ := Civil.le_of_isReal d.civil_spec.1
  show Civil.mk (YearNumeral.ofYear d.civil.year).value (Numeral.ofNat d.civil.month).value
    (Numeral.ofNat d.civil.day).value = d.civil
  rw [YearNumeral.value_ofYear, Numeral.value_ofNat (by omega), Numeral.value_ofNat (by omega)]

theorem plain_ofDate {d : Date} (hlow : 0 ≤ d.civil.year) (hhigh : d.civil.year ≤ 9999) :
    (ofDate d).Plain :=
  ⟨YearNumeral.plain_ofYear hlow hhigh, Numeral.plain_ofNat _, Numeral.plain_ofNat _⟩

end DateSpelling

namespace Date

theorem looseDate_chars (d : Date) (rest : List Char) :
    looseDate (d.chars ++ rest) = some (d.civil, rest) := by
  rw [← DateSpelling.chars_ofDate, looseDate_spelled _ (Numeral.plain_ofNat _).endsBefore,
    DateSpelling.civil_ofDate]

end Date

end IssueFlow.Calendar
