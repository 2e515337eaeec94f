import IssueFlow.Text.Blank
import IssueFlow.Text.Lowercase

/-!
# ASCII text

Tracker equality ignores the case of ASCII letters only. Texts that it takes as one have one
lower-case key (`lowerKey_eq_of_sameValue`), but two texts with one key need not be equal to a
tracker. On ASCII text the two notions agree (`sameValue_iff_lowerKey_eq`).
-/

namespace IssueFlow.Text

/-- Every character is one of the 128 of ASCII. -/
def IsAscii (cs : List Char) : Prop := ∀ c ∈ cs, c.toNat < 128

theorem lowerChar_of_lt {c : Char} (h : c.toNat < 128) : lowerChar c = c.toLower := by
  have hall : ∀ n < 128, lowerChar (Char.ofNat n) = (Char.ofNat n).toLower := by decide +kernel
  simpa only [Char.ofNat_toNat] using hall c.toNat h

theorem lowerFrom_of_isAscii {before cs : List Char} (h : IsAscii cs) :
    lowerFrom before cs = cs.map Char.toLower := by
  induction cs generalizing before with
  | nil => rfl
  | cons c cs ih =>
    obtain ⟨hc, hcs⟩ := List.forall_mem_cons.1 h
    have hdotted : c ≠ 'İ' := by
      rintro rfl
      exact absurd hc (by decide)
    have hsigma : c ≠ 'Σ' := by
      rintro rfl
      exact absurd hc (by decide)
    rw [lowerFrom, if_neg hdotted, if_neg hsigma, ih hcs, lowerChar_of_lt hc]
    rfl

theorem IsAscii.trimChars {cs : List Char} (h : IsAscii cs) : IsAscii (trimChars cs) := by
  intro c hc
  have hback := (List.dropWhile_sublist isBlank).subset (List.mem_reverse.1 hc)
  exact h c ((List.dropWhile_sublist isBlank).subset (List.mem_reverse.1 hback))

/-- The lower-case key of an ASCII text is the text that tracker equality looks at. -/
theorem toList_lowerKey {s : String} (h : IsAscii s.toList) : (lowerKey s).toList = foldKey s := by
  rw [lowerKey, lowercase, trim, String.toList_ofList, String.toList_ofList, lowerChars,
    lowerFrom_of_isAscii h.trimChars, foldKey]

theorem sameValue_iff_lowerKey_eq {a b : String} (ha : IsAscii a.toList) (hb : IsAscii b.toList) :
    sameValue a b = true ↔ lowerKey a = lowerKey b := by
  rw [sameValue_iff, ← String.toList_inj, toList_lowerKey ha, toList_lowerKey hb]

/-! ## ASCII letters in any text -/

/-- What does not hang on the case of ASCII letters does not change when they are put in lower
case. -/
theorem apply_toLower {α : Type} (f : Char → α)
    (h : ∀ n < 128, f (Char.ofNat n).toLower = f (Char.ofNat n)) (c : Char) :
    f c.toLower = f c := by
  by_cases hc : c.toNat < 128
  · simpa only [Char.ofNat_toNat] using h c.toNat hc
  · have hself : c.toLower = c := by
      unfold Char.toLower
      rw [dif_neg]
      rintro ⟨_, hle⟩
      exact hc (Nat.lt_of_le_of_lt hle (by decide))
    rw [hself]

theorem startsCased_map_toLower (cs : List Char) :
    startsCased (cs.map Char.toLower) = startsCased cs := by
  induction cs with
  | nil => rfl
  | cons c cs ih =>
    rw [List.map_cons, startsCased, startsCased, ih,
      apply_toLower isCaseIgnorable (by decide +kernel), apply_toLower isCased (by decide +kernel)]

theorem lowerFrom_map_toLower (before cs : List Char) :
    lowerFrom (before.map Char.toLower) (cs.map Char.toLower) = lowerFrom before cs := by
  induction cs generalizing before with
  | nil => rfl
  | cons c cs ih =>
    have hdotted := apply_toLower (· = 'İ') (by decide +kernel) c
    have hsigma := apply_toLower (· = 'Σ') (by decide +kernel) c
    have hrest := ih (c :: before)
    rw [List.map_cons] at hrest
    rw [List.map_cons, lowerFrom, lowerFrom, hrest, startsCased_map_toLower,
      startsCased_map_toLower, apply_toLower lowerChar (by decide +kernel)]
    simp only [hdotted, hsigma]

theorem lowerKey_eq_of_sameValue {a b : String} (h : sameValue a b = true) :
    lowerKey a = lowerKey b := by
  have hkey (s : String) : lowerKey s = String.ofList (lowerChars (foldKey s)) := by
    rw [lowerKey, lowercase, trim, String.toList_ofList, foldKey, lowerChars, lowerChars]
    exact congrArg String.ofList (lowerFrom_map_toLower [] _).symm
  rw [hkey, hkey, sameValue_iff.1 h]

end IssueFlow.Text
