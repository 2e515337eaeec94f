import IssueFlow.Proofs.Text.Trim
import IssueFlow.Text.Scan
import Mathlib.Algebra.Group.Nat.Defs

/-!
# Reading digits

A reader of digits takes the digits at the front of a text and leaves what stands behind them
(`exactly_append`, `upTo_of_endsBefore`, `allDigits_append`), and whatever it reads is such a number
(`exactly_sound`, `upTo_sound`, `unbounded_sound`). A number is the value of its digits from left to
right (`numberOf_concat`), and zeros behind them multiply it by powers of ten
(`numberOf_append_zeros`).
-/

namespace IssueFlow.Text

variable {ds rest cs : List Char} {c : Char} {limit n v : Nat}

/-- Every character is a decimal digit. -/
def AllDigits (ds : List Char) : Prop := ∀ c ∈ ds, c.isDigit = true

theorem isBlank_of_isDigit (h : c.isDigit = true) : isBlank c = false := by
  have hlow : 48 ≤ c.toNat ∧ c.toNat ≤ 57 := by
    simpa [Char.isDigit, UInt32.le_iff_toNat_le] using h
  simp only [isBlank, Bool.or_eq_false_iff, Bool.and_eq_false_iff, decide_eq_false_iff_not,
    beq_eq_false_iff_ne]
  omega

theorem AllDigits.noBlank (h : AllDigits ds) : NoBlank ds := fun c hc => isBlank_of_isDigit (h c hc)

/-! ## Where digits end -/

/-- The text does not go on with a digit. -/
def Stops (rest : List Char) : Prop := ∀ c ∈ rest.head?, c.isDigit = false

@[simp] theorem stops_nil : Stops [] := by simp [Stops]

@[simp] theorem stops_cons : Stops (c :: rest) ↔ c.isDigit = false := by simp [Stops]

/-- A number of at most `limit` digits ends where the limit is reached or the text goes on with
another character. -/
def EndsBefore (limit : Nat) (ds rest : List Char) : Prop := ds.length = limit ∨ Stops rest

/-! ## Readers -/

theorem spanDigits_of_endsBefore (h : AllDigits ds) (hle : ds.length ≤ limit)
    (hends : EndsBefore limit ds rest) : spanDigits limit (ds ++ rest) = (ds, rest) := by
  induction ds generalizing limit with
  | nil =>
    rcases hends with rfl | hstops
    · rfl
    · cases limit with
      | zero => rfl
      | succ limit =>
        cases rest with
        | nil => rfl
        | cons c rest => exact if_neg (by simp [stops_cons.1 hstops])
  | cons c ds ih =>
    obtain ⟨hc, hds⟩ := List.forall_mem_cons.1 h
    cases limit with
    | zero => cases hle
    | succ limit =>
      rw [EndsBefore, List.length_cons, Nat.succ_inj] at hends
      rw [List.cons_append, spanDigits, if_pos hc, ih hds (Nat.le_of_succ_le_succ hle) hends]

theorem spanDigits_append (h : AllDigits ds) (rest : List Char) :
    spanDigits ds.length (ds ++ rest) = (ds, rest) :=
  spanDigits_of_endsBefore h (Nat.le_refl _) (.inl rfl)

theorem spanDigits_sound (h : spanDigits limit cs = (ds, rest)) :
    cs = ds ++ rest ∧ AllDigits ds ∧ ds.length ≤ limit ∧ EndsBefore limit ds rest := by
  unfold EndsBefore
  fun_induction spanDigits limit cs generalizing ds with
  | case1 cs =>
    cases h
    exact ⟨rfl, List.forall_mem_nil _, Nat.le_refl 0, .inl rfl⟩
  | case2 limit =>
    cases h
    exact ⟨rfl, List.forall_mem_nil _, Nat.zero_le _, .inr stops_nil⟩
  | case3 limit c cs hc ds' rest' hspan ih =>
    cases h
    obtain ⟨rfl, hdigits, hle, hends⟩ := ih hspan
    refine ⟨rfl, List.forall_mem_cons.2 ⟨hc, hdigits⟩, Nat.succ_le_succ hle, ?_⟩
    rwa [List.length_cons, Nat.succ_inj]
  | case4 limit c cs hc =>
    cases h
    refine ⟨rfl, List.forall_mem_nil _, Nat.zero_le _, .inr ?_⟩
    rwa [stops_cons, ← Bool.not_eq_true]

theorem exactly_append (h : AllDigits ds) (rest : List Char) :
    exactly ds.length (ds ++ rest) = some (numberOf ds, rest) := by
  simp only [exactly, spanDigits_append h, if_true]

theorem exactly_sound (h : exactly n cs = some (v, rest)) :
    ∃ ds, cs = ds ++ rest ∧ AllDigits ds ∧ ds.length = n ∧ numberOf ds = v := by
  simp only [exactly] at h
  split at h
  · next hlength =>
    obtain ⟨rfl, rfl⟩ := Prod.mk.inj (Option.some.inj h)
    obtain ⟨hcs, hdigits, -, -⟩ := spanDigits_sound (Prod.eta (spanDigits n cs)).symm
    exact ⟨_, hcs, hdigits, hlength, rfl⟩
  · cases h

theorem upTo_of_endsBefore (h : AllDigits ds) (hne : ds ≠ []) (hle : ds.length ≤ limit)
    (hends : EndsBefore limit ds rest) : upTo limit (ds ++ rest) = some (numberOf ds, rest) := by
  simp [upTo, spanDigits_of_endsBefore h hle hends, hne]

theorem upTo_sound (h : upTo limit cs = some (v, rest)) :
    ∃ ds, cs = ds ++ rest ∧ AllDigits ds ∧ ds ≠ [] ∧ ds.length ≤ limit ∧
      EndsBefore limit ds rest ∧ numberOf ds = v := by
  simp only [upTo] at h
  split at h
  · cases h
  · next hne =>
    obtain ⟨rfl, rfl⟩ := Prod.mk.inj (Option.some.inj h)
    obtain ⟨hcs, hdigits, hle, hends⟩ := spanDigits_sound (Prod.eta (spanDigits limit cs)).symm
    exact ⟨_, hcs, hdigits, List.isEmpty_eq_false_iff.1 (Bool.not_eq_true _ ▸ hne), hle, hends, rfl⟩

theorem allDigits_append (h : AllDigits ds) (hc : c.isDigit = false) :
    allDigits (ds ++ c :: rest) = (ds, c :: rest) := by
  have hstop : ¬ c.isDigit = true := by simp [hc]
  rw [allDigits, List.takeWhile_append_of_pos h, List.dropWhile_append_of_pos h,
    List.takeWhile_cons_of_neg hstop, List.dropWhile_cons_of_neg hstop, List.append_nil]

theorem allDigits_of_stops (h : AllDigits ds) (hstops : Stops rest) :
    allDigits (ds ++ rest) = (ds, rest) := by
  cases rest with
  | nil => simp [allDigits, List.takeWhile_eq_self_iff.2 h, List.dropWhile_eq_nil_iff.2 h]
  | cons c rest => exact allDigits_append h (stops_cons.1 hstops)

/-- Where the digits end does not depend on how a text is cut. -/
theorem digits_append_inj {ds' rest' : List Char} (h : AllDigits ds) (h' : AllDigits ds')
    (hstops : Stops rest) (hstops' : Stops rest') (heq : ds ++ rest = ds' ++ rest') :
    ds = ds' ∧ rest = rest' := by
  have hsplit := congrArg allDigits heq
  rw [allDigits_of_stops h hstops, allDigits_of_stops h' hstops'] at hsplit
  exact Prod.mk.inj hsplit

theorem allDigits_sound (h : allDigits cs = (ds, rest)) : cs = ds ++ rest ∧ AllDigits ds := by
  cases h
  exact ⟨List.takeWhile_append_dropWhile.symm, fun c hc => List.mem_takeWhile_imp hc⟩

theorem unbounded_append (h : AllDigits ds) (hne : ds ≠ []) (hc : c.isDigit = false) :
    unbounded (ds ++ c :: rest) = some (numberOf ds, c :: rest) := by
  simp [unbounded, allDigits_append h hc, hne]

theorem unbounded_sound (h : unbounded cs = some (v, rest)) :
    ∃ ds, cs = ds ++ rest ∧ AllDigits ds ∧ ds ≠ [] ∧ numberOf ds = v := by
  simp only [unbounded] at h
  split at h
  · cases h
  · next hne =>
    obtain ⟨rfl, rfl⟩ := Prod.mk.inj (Option.some.inj h)
    obtain ⟨hcs, hdigits⟩ := allDigits_sound (Prod.eta (allDigits cs)).symm
    exact ⟨_, hcs, hdigits, List.isEmpty_eq_false_iff.1 (Bool.not_eq_true _ ▸ hne), rfl⟩

theorem dropBlanks_append (h : AllDigits ds) (hne : ds ≠ []) (rest : List Char) :
    dropBlanks (ds ++ rest) = ds ++ rest := by
  obtain ⟨c, cs, rfl⟩ := List.exists_cons_of_ne_nil hne
  have hc : ¬ isBlank c = true := by simp [isBlank_of_isDigit (h c List.mem_cons_self)]
  exact List.dropWhile_cons_of_neg hc

theorem literal_cons (c : Char) (rest : List Char) : literal c (c :: rest) = some ((), rest) :=
  if_pos rfl

theorem literal_eq_some_iff {u : Unit} : literal c cs = some (u, rest) ↔ cs = c :: rest := by
  cases cs with
  | nil => simp [literal]
  | cons d cs =>
    simp only [literal, List.cons.injEq]
    split <;> simp_all

/-! ## Values -/

theorem numberOf_concat (ds : List Char) (c : Char) :
    numberOf (ds ++ [c]) = 10 * numberOf ds + digitValue c := by
  rw [numberOf, numberOf, List.foldl_append]
  rfl

theorem numberOf_append_zeros (ds : List Char) (k : Nat) :
    numberOf (ds ++ List.replicate k '0') = numberOf ds * 10 ^ k := by
  induction k with
  | zero => simp
  | succ k ih =>
    rw [List.replicate_succ', ← List.append_assoc, numberOf_concat, ih, pow_succ]
    show 10 * (numberOf ds * 10 ^ k) = _
    rw [Nat.mul_left_comm, Nat.mul_comm 10]

theorem numberOf_toDigits (n : Nat) : numberOf (Nat.toDigits 10 n) = n :=
  Nat.ofDigitChars_toDigits (by decide) (by decide)

theorem allDigits_toDigits (n : Nat) : AllDigits (Nat.toDigits 10 n) := fun _ hc =>
  Nat.isDigit_of_mem_toDigits (by decide) (by decide) hc

theorem digitValue_digitChar {d : Nat} (h : d < 10) : digitValue (Nat.digitChar d) = d := by
  rw [digitValue, Nat.toNat_digitChar_of_lt_ten h, Nat.add_sub_cancel_left]

end IssueFlow.Text
