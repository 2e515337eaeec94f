import Mathlib
import IssueFlow.Calendar.Instant

/-!
# The sign of a difference in hours

`Instant.hoursTo` divides whole milliseconds, as a double, by `1000` and by `3600`. Each of the
three steps rounds, so that the quotient is positive exactly when the milliseconds are has to be
seen through the rounding. One predicate carries it: a float `IsAtLeast s k` has the sign `s` and
is infinite or a normal number no smaller than `2 ^ k` in magnitude. Rounding a mantissa of enough
bits gives such a float (`roundWithAccuracy_isAtLeast`), packing keeps it
(`unpack_pack_isAtLeast`), and a product or a quotient by a normal number moves `k` by the exponent
of that number. The least positive difference starts at `2 ^ 0` and comes out above `2 ^ (-22)`,
far above the subnormal numbers where a quotient could vanish.

Main statement: `Instant.hoursTo_pos_iff`.
-/

namespace IssueFlow.Calendar

open Float.Model (Format totalExponent UnpackedFloat)
open Float.Model.UnpackedFloat

/-- A float of sign `s` that is infinite or a normal number of at least `2 ^ k` in magnitude. -/
def IsAtLeast (s : Sign) (k : Int) : UnpackedFloat → Prop
  | .infinity t => t = s
  | .finite t m e _ => t = s ∧ m.log2 = 52 ∧ k ≤ 52 + e
  | _ => False

namespace IsAtLeast

variable {s : Sign} {k : Int} {f : UnpackedFloat}

theorem infinity_or_finite (hf : IsAtLeast s k f) : f = .infinity s ∨
    ∃ m e hm, f = .finite s m e hm ∧ m.log2 = 52 ∧ k ≤ 52 + e := by
  cases f with
  | infinity t => exact .inl (congrArg _ hf)
  | finite t m e hm =>
    obtain ⟨rfl, hlog, hle⟩ := hf
    exact .inr ⟨m, e, hm, rfl, hlog, hle⟩
  | notANumber => exact hf.elim
  | zero t => exact hf.elim

theorem mono {k' : Int} (hf : IsAtLeast s k f) (hk : k' ≤ k) : IsAtLeast s k' f := by
  obtain rfl | ⟨m, e, hm, rfl, hlog, hle⟩ := hf.infinity_or_finite
  · rfl
  · exact ⟨rfl, hlog, hk.trans hle⟩

theorem neg (hf : IsAtLeast s k f) : IsAtLeast (-s) k f.neg := by
  obtain rfl | ⟨m, e, hm, rfl, hlog, hle⟩ := hf.infinity_or_finite
  · rfl
  · exact ⟨rfl, hlog, hle⟩

end IsAtLeast

/-! ### Rounding -/

theorem mantissa_shiftRight (em : ExtendedMantissa) (n : Nat) :
    (em >>> n).mantissa = em.mantissa / 2 ^ n := by
  induction n with
  | zero => exact (Nat.div_one _).symm
  | succ n ih =>
    change (em >>> n).mantissa / 2 = _
    rw [ih, Nat.div_div_eq_div_mul, Nat.pow_succ]

theorem mantissa_ofMantissaAndAccuracy (m : Nat) (acc : Accuracy) :
    (ExtendedMantissa.ofMantissaAndAccuracy m acc).mantissa = m := by
  rcases acc with _ | _ | _ | _ <;> rfl

theorem mantissa_le_roundedMantissa (em : ExtendedMantissa) :
    em.mantissa ≤ em.roundedMantissa := by
  rcases em with ⟨m, _ | _, _ | _⟩
  · exact Nat.le_refl m
  · exact Nat.le_refl m
  · exact Nat.le_add_right m _
  · exact Nat.le_add_right m 1

/-- Above the subnormal numbers a mantissa of enough bits is shifted to 53 of them. -/
theorem shiftToTargetExponent_of_normal {m : Nat} {e : Int} (hm : 52 ≤ m.log2)
    (he : -1022 ≤ m.log2 + e) (acc : Accuracy) :
    (shiftToTargetExponent Format.binary64 m e acc).1.mantissa.log2 = 52 ∧
      (shiftToTargetExponent Format.binary64 m e acc).2 = m.log2 + e - 52 := by
  have htarget : Format.binary64.targetExponent (totalExponent m e) = m.log2 + e - 52 := by
    simp only [Format.targetExponent, totalExponent, Format.mantissaBits, Format.minExponent]
    omega
  have hshift : (m.log2 + e - 52 - e).toNat = m.log2 - 52 := by omega
  simp only [shiftToTargetExponent, shiftToExponent, htarget, hshift, mantissa_shiftRight,
    mantissa_ofMantissaAndAccuracy]
  constructor
  · rw [Nat.log2_eq_log_two, Nat.log_div_base_pow, ← Nat.log2_eq_log_two]
    omega
  · omega

/-- Rounding never takes a number below the power of two that it reaches. -/
theorem roundWithAccuracy_isAtLeast (s : Sign) {m : Nat} {e : Int} (hm : 52 ≤ m.log2)
    (he : -1022 ≤ m.log2 + e) (acc : Accuracy) :
    IsAtLeast s (m.log2 + e) (roundWithAccuracy Format.binary64 s m e acc) := by
  obtain ⟨hfirst, hexponent⟩ := shiftToTargetExponent_of_normal hm he acc
  rw [roundWithAccuracy]
  generalize shiftToTargetExponent Format.binary64 m e acc = first at hfirst hexponent ⊢
  obtain ⟨em, e₁⟩ := first
  dsimp only at hfirst hexponent ⊢
  have hem : em.mantissa ≠ 0 := fun h => by simp [h] at hfirst
  have hrounded : em.roundedMantissa ≠ 0 := by
    have := mantissa_le_roundedMantissa em
    omega
  have hpow : 2 ^ 52 ≤ em.mantissa := (Nat.le_log2 hem).1 hfirst.ge
  have hlog : 52 ≤ em.roundedMantissa.log2 :=
    (Nat.le_log2 hrounded).2 (hpow.trans (mantissa_le_roundedMantissa em))
  obtain ⟨hlast, hlast'⟩ := shiftToTargetExponent_of_normal (e := e₁) hlog (by omega) .exact
  have hmantissa : (shiftToTargetExponent Format.binary64 em.roundedMantissa e₁
      .exact).1.mantissa ≠ 0 := fun h => by simp [h] at hlast
  rw [dif_neg hmantissa]
  exact ⟨rfl, hlast, by omega⟩

theorem add_le_log2_mul {a b i j : Nat} (ha : 2 ^ i ≤ a) (hb : 2 ^ j ≤ b) :
    i + j ≤ (a * b).log2 := by
  have hpow : 2 ^ (i + j) ≤ a * b := by
    rw [Nat.pow_add]
    exact Nat.mul_le_mul ha hb
  exact (Nat.le_log2 (Nat.pos_iff_ne_zero.1 (Nat.two_pow_pos _ |>.trans_le hpow))).2 hpow

/-- A whole number is brought to 53 bits before it is rounded. -/
theorem round_isAtLeast (s : Sign) {n : Nat} (hn : n ≠ 0) :
    IsAtLeast s 0 (UnpackedFloat.round Format.binary64 s n 0) := by
  have htarget : Format.binary64.targetExponent (totalExponent n 0) = n.log2 - 52 := by
    simp only [Format.targetExponent, totalExponent, Format.mantissaBits, Format.minExponent]
    omega
  have hshift : (0 - ((n.log2 : Int) - 52)).toNat = 52 - n.log2 := by omega
  simp only [UnpackedFloat.round, decreaseExponent, htarget, hshift]
  have hlog : n.log2 + (52 - n.log2) ≤ (n <<< (52 - n.log2)).log2 := by
    rw [Nat.shiftLeft_eq]
    exact add_le_log2_mul (Nat.log2_self_le hn) (Nat.le_refl _)
  exact (roundWithAccuracy_isAtLeast s (by omega) (by omega) _).mono (by omega)

/-! ### Packing -/

theorem unpackSign_packComponents (s : Sign) (e : BitVec 11) (m : BitVec 52) :
    Sign.ofBitVec (unpackSign (packComponents Format.binary64 s e m)) = s := by
  have hbit : unpackSign (packComponents Format.binary64 s e m) = s.toBitVec := by
    ext i hi
    obtain rfl : i = 0 := by omega
    rw [unpackSign, BitVec.getElem_cast, BitVec.extractLsb, BitVec.getElem_extractLsb']
    change (s.toBitVec ++ e ++ m).getLsbD 63 = s.toBitVec.getLsbD 0
    rw [BitVec.getLsbD_append, BitVec.getLsbD_append]
    rfl
  rw [hbit]
  cases s <;> rfl

theorem unpack_packedInfinity (s : Sign) :
    unpack Format.binary64 (packedInfinity Format.binary64 s) = .infinity s := by
  simp only [unpack, packedInfinity, unpackExponent_packComponents, unpackMantissa_packComponents,
    unpackSign_packComponents]
  rfl

/-- The bit in front of the stored mantissa makes it a number of 53 bits. -/
theorem log2_implicitBit (v : BitVec 52) : (1#1 ++ v).toNat.log2 = 52 := by
  have hv := v.isLt
  have hone : (1#1 ++ v).toNat = 2 ^ 52 + v.toNat := by
    rw [BitVec.toNat_append, ← Nat.shiftLeft_add_eq_or_of_lt hv, Nat.shiftLeft_eq]
    rfl
  exact (Nat.log2_eq_iff (by omega)).2 ⟨by omega, by omega⟩

/-- An exponent strictly between the two reserved ones is that of a normal number. -/
theorem unpack_packComponents_isAtLeast (s : Sign) {x : BitVec 11} (v : BitVec 52)
    (hpos : 0 < x.toNat) (hlt : x.toNat < 2047) :
    IsAtLeast s (x.toNat - 1023)
      (unpack Format.binary64 (packComponents Format.binary64 s x v)) := by
  have hones : x ≠ -1#11 := by
    rintro rfl
    exact absurd hlt (by decide)
  have hzero : x ≠ 0#11 := by
    rintro rfl
    exact absurd hpos (by decide)
  have hbias : Format.binary64.exponentBias = 1023 := rfl
  simp only [unpack, unpackExponent_packComponents, unpackMantissa_packComponents,
    unpackSign_packComponents, hones, hzero, hbias, if_false]
  exact ⟨rfl, log2_implicitBit v, by omega⟩

/-- A normal number comes back from its 64 bits as it was, or as the infinity of its sign. -/
theorem unpack_pack_isAtLeast {s : Sign} {k : Int} {f : UnpackedFloat} (hk : -1022 ≤ k)
    (hf : IsAtLeast s k f) : IsAtLeast s k (Float.Model.pack f).unpack := by
  obtain rfl | ⟨m, e, hm, rfl, hlog, hle⟩ := hf.infinity_or_finite
  · change IsAtLeast s k (unpack Format.binary64 (packedInfinity Format.binary64 s))
    rw [unpack_packedInfinity]
    rfl
  · change IsAtLeast s k (unpack Format.binary64 (pack Format.binary64 (.finite s m e hm)))
    have hbias : Format.binary64.exponentBias = 1023 := rfl
    have hbits : 52 + 1 = Format.binary64.mantissaBits := rfl
    simp only [pack, hbias, hlog, hbits, if_true]
    split
    · rw [unpack_packedInfinity]
      rfl
    · rename_i hfits
      generalize hstored : (e + (1023 : Nat) + (52 : Nat)).toNat = stored at hfits ⊢
      have hnat : (BitVec.ofNat 11 stored).toNat = stored := by
        rw [BitVec.toNat_ofNat]
        omega
      exact (unpack_packComponents_isAtLeast s _ (by omega) (by omega)).mono (by omega)

/-! ### Products and quotients -/

section Arithmetic

variable {s : Sign} {k : Int} {f : UnpackedFloat} {m : Nat} {e : Int}

/-- The product of two mantissas is rounded only after it is formed. -/
theorem mul_finite_isAtLeast (s : Sign) {m₁ : Nat} {e₁ : Int} (hpos₁ : 0 < m₁) (hpos : 0 < m)
    (hm : 52 ≤ (m₁ * m).log2) (hk : -1022 ≤ (m₁ * m).log2 + (e₁ + e)) :
    IsAtLeast s ((m₁ * m).log2 + (e₁ + e))
      (mul Format.binary64 (.finite s m₁ e₁ hpos₁) (.finite .positive m e hpos)) := by
  have hsign : s * .positive = s := by cases s <;> rfl
  simp only [mul, hsign]
  exact roundWithAccuracy_isAtLeast s hm hk _

theorem mul_isAtLeast (hf : IsAtLeast s k f) (hm : m.log2 = 52) (hpos : 0 < m)
    (hk : -1022 ≤ k + 52 + e) :
    IsAtLeast s (k + 52 + e) (mul Format.binary64 f (.finite .positive m e hpos)) := by
  obtain rfl | ⟨m₁, e₁, hm₁, rfl, hlog, hle⟩ := hf.infinity_or_finite
  · cases s <;> rfl
  · have hproduct : 52 + 52 ≤ (m₁ * m).log2 :=
      add_le_log2_mul ((Nat.le_log2 hm₁.ne').1 hlog.ge) ((Nat.le_log2 hpos.ne').1 hm.ge)
    exact (mul_finite_isAtLeast s hm₁ hpos (by omega) (by omega)).mono (by omega)

/-- The numerator gets 53 bits more than it has, so that the quotient keeps 53 of its own. -/
theorem div_isAtLeast (hf : IsAtLeast s k f) (hm : m.log2 = 52) (hpos : 0 < m)
    (hk : -1022 ≤ k - 53 - e) :
    IsAtLeast s (k - 53 - e) (div Format.binary64 f (.finite .positive m e hpos)) := by
  obtain rfl | ⟨m₁, e₁, hm₁, rfl, hlog, hle⟩ := hf.infinity_or_finite
  · cases s <;> rfl
  · have hsign : s / .positive = s := by cases s <;> rfl
    have htarget : min (e₁ - e) (Format.binary64.targetExponent
        (totalExponent m₁ e₁ - totalExponent m e)) = e₁ - e - 53 := by
      simp only [Format.targetExponent, totalExponent, Format.mantissaBits, Format.minExponent]
      omega
    have hshift : (e₁ - e - (e₁ - e - 53)).toNat = 53 := by omega
    have hquotient : 52 ≤ (m₁ <<< 53 / m).log2 := by
      have hlow : 2 ^ 52 ≤ m₁ := (Nat.le_log2 hm₁.ne').1 hlog.ge
      have hhigh : m < 2 ^ 53 := (Nat.log2_lt hpos.ne').1 (by omega)
      have hle : 2 ^ 52 ≤ m₁ <<< 53 / m := by
        rw [Nat.le_div_iff_mul_le hpos, Nat.shiftLeft_eq]
        exact Nat.mul_le_mul hlow hhigh.le
      exact (Nat.le_log2 (by omega)).2 hle
    simp only [div, divCore, hsign, htarget, hshift]
    exact (roundWithAccuracy_isAtLeast s hquotient (by omega) _).mono (by omega)

end Arithmetic

/-! ### Whole numbers as floats -/

theorem model_ofNat_isAtLeast {n : Nat} (hn : n ≠ 0) :
    IsAtLeast .positive 0 (Float.Model.ofNat n).unpack := by
  have hpos : compare (n : Int) 0 = .gt := by
    rw [compare_gt_iff_gt]
    omega
  have hround : UnpackedFloat.ofNat Format.binary64 n =
      UnpackedFloat.round Format.binary64 .positive n 0 := by
    simp only [UnpackedFloat.ofNat, UnpackedFloat.ofInt, UnpackedFloat.normalize, hpos,
      Int.toNat_natCast]
  rw [Float.Model.ofNat, hround]
  exact unpack_pack_isAtLeast (by decide) (round_isAtLeast .positive hn)

/-- From `2 ^ 53` on the number itself, shifted, is the mantissa of a product with one. -/
theorem ofScientific_zero_isAtLeast {n : Nat} (hn : n ≠ 0) :
    IsAtLeast .positive 0 (ofScientific Format.binary64 n 0) := by
  have hfits : ¬ (0 : Int) < -((2 ^ 11 : Int) + n.log2) := by omega
  have hbits : Format.binary64.mantissaBits = 53 := rfl
  have hlog : n.log2 + 53 ≤ (n * 2 ^ 53 * 1).log2 := by
    rw [Nat.mul_one]
    exact add_le_log2_mul (Nat.log2_self_le hn) (Nat.le_refl _)
  rw [ofScientific, dif_neg hn, if_neg (by decide), if_neg hfits, if_pos (by decide)]
  simp only [Nat.shiftLeft_eq, hbits, Int.toNat_zero, Nat.pow_zero]
  exact (mul_finite_isAtLeast .positive _ _ (by omega) (by omega)).mono (by omega)

theorem unpack_one : (Float.ofBits 0x3FF0000000000000).toModel.unpack =
    .finite .positive (2 ^ 52) (-52) (by decide) := by
  rfl

/-- Below `2 ^ 53` a number is a machine word times one, from there on a product of mantissas. -/
theorem ofNat_isAtLeast {n : Nat} (hn : n ≠ 0) :
    IsAtLeast .positive 0 (Float.ofNat n).toModel.unpack := by
  change IsAtLeast .positive 0 (Float.ofScientific n false 0).toModel.unpack
  rw [Float.ofScientific]
  split
  · rename_i hsmall
    have hword : n.toUInt64.toNat = n := by
      rw [Nat.toUInt64, UInt64.toNat_ofNat']
      omega
    change IsAtLeast .positive 0 (Float.Model.pack (mul Format.binary64
      (Float.Model.ofNat n.toUInt64.toNat).unpack
      (Float.ofBits 0x3FF0000000000000).toModel.unpack)).unpack
    rw [hword, unpack_one]
    exact unpack_pack_isAtLeast (by decide)
      (mul_isAtLeast (model_ofNat_isAtLeast hn) Nat.log2_two_pow (by decide) (by decide))
  · change IsAtLeast .positive 0
      (Float.Model.pack (ofScientific Format.binary64 n 0)).unpack
    exact unpack_pack_isAtLeast (by decide) (ofScientific_zero_isAtLeast hn)

theorem neg_isAtLeast {s : Sign} {x : Float} (hx : IsAtLeast s 0 x.toModel.unpack) :
    IsAtLeast (-s) 0 x.neg.toModel.unpack :=
  unpack_pack_isAtLeast (by decide) hx.neg

theorem div_float_isAtLeast {s : Sign} {k : Int} {x y : Float} {m : Nat} {e : Int}
    {hpos : 0 < m} (hx : IsAtLeast s k x.toModel.unpack)
    (hy : y.toModel.unpack = .finite .positive m e hpos) (hm : m.log2 = 52)
    (hk : -1022 ≤ k - 53 - e) : IsAtLeast s (k - 53 - e) (x / y).toModel.unpack := by
  refine unpack_pack_isAtLeast hk ?_
  rw [hy]
  exact div_isAtLeast hx hm hpos hk

theorem unpack_millisPerSecond : (1000 : Float).toModel.unpack =
    .finite .positive (1000 * 2 ^ 43) (-43) (by decide) := by
  rfl

theorem unpack_secondsPerHour : (3600 : Float).toModel.unpack =
    .finite .positive (3600 * 2 ^ 41) (-41) (by decide) := by
  rfl

theorem zero_lt_iff_of_isAtLeast {s : Sign} {k : Int} {x : Float}
    (hx : IsAtLeast s k x.toModel.unpack) : 0 < x ↔ s = .positive := by
  have hlt : 0 < x ↔ UnpackedFloat.compare (.zero .positive) x.toModel.unpack = some .lt :=
    decide_eq_true_iff.trans beq_iff_eq
  rw [hlt]
  obtain hinfinity | ⟨m, e, hm, hfinite, -, -⟩ := hx.infinity_or_finite
  · rw [hinfinity]
    cases s <;> simp [UnpackedFloat.compare]
  · rw [hfinite]
    cases s <;> simp [UnpackedFloat.compare]

/-- Dividing by `1000` and by `3600` costs at most 22 places. -/
theorem div_hours_isAtLeast {s : Sign} {x : Float} (hx : IsAtLeast s 0 x.toModel.unpack) :
    IsAtLeast s (-22) (x / 1000 / 3600).toModel.unpack := by
  have hseconds : IsAtLeast s (-10) (x / 1000).toModel.unpack :=
    div_float_isAtLeast hx unpack_millisPerSecond (by decide) (by decide)
  exact div_float_isAtLeast hseconds unpack_secondsPerHour (by decide) (by decide)

theorem ofInt_div_hours_pos_iff (n : Int) : 0 < Float.ofInt n / 1000 / 3600 ↔ 0 < n := by
  cases n with
  | ofNat n =>
    cases n with
    | zero => decide +kernel
    | succ n =>
      have hpos := div_hours_isAtLeast (ofNat_isAtLeast n.succ_ne_zero)
      exact iff_of_true ((zero_lt_iff_of_isAtLeast hpos).2 rfl) (Int.natCast_pos.2 n.succ_pos)
  | negSucc n =>
    have hneg := div_hours_isAtLeast (neg_isAtLeast (ofNat_isAtLeast n.succ_ne_zero))
    refine iff_of_false (fun h => ?_) (Int.negSucc_not_pos n |>.1)
    exact absurd ((zero_lt_iff_of_isAtLeast hneg).1 h) (by simp)

/-- A difference in hours is positive exactly when it is at least one whole millisecond. -/
theorem Instant.hoursTo_pos_iff (a b : Instant) :
    0 < a.hoursTo b ↔ 0 < a.millisecondsTo b :=
  ofInt_div_hours_pos_iff _

end IssueFlow.Calendar
