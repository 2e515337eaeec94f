import IssueFlow.Proofs.Text.Words
import IssueFlow.Text.Lowercase

/-!
# Texts in lower case

No image of the table of mappings is mapped again (`isLower_image`), and no blank is mapped or an
image (`lowerRuns_images`). So a text in lower case stays as it is, wherever a `Σ` has stood
(`lowerChars_lowerChars`), and lower-casing goes through a text of words and single spaces word by
word (`exists_lowerFrom_spaced`).
-/

namespace IssueFlow.Text

/-! ## The table of mappings -/

/-- Lower-casing leaves the character as it is, wherever it stands. -/
structure IsLower (c : Char) : Prop where
  ne_dotted : c ≠ 'İ'
  ne_sigma : c ≠ 'Σ'
  lowerChar_eq : lowerChar c = c

instance : DecidablePred IsLower := fun c =>
  decidable_of_iff (c ≠ 'İ' ∧ c ≠ 'Σ' ∧ lowerChar c = c)
    ⟨fun ⟨h, h', h''⟩ => ⟨h, h', h''⟩, fun ⟨h, h', h''⟩ => ⟨h, h', h''⟩⟩

/-- The run maps the character at this distance from its first one. -/
def MapsAt (run : Nat × Nat × Nat × Nat) (i : Nat) : Prop :=
  run.1 + i ≤ run.2.1 ∧ i % run.2.2.1 = 0

theorem mapRuns_eq_or (n : Nat) (runs : List (Nat × Nat × Nat × Nat)) :
    mapRuns n runs = n ∨
      ∃ run ∈ runs, ∃ i, MapsAt run i ∧ n = run.1 + i ∧ mapRuns n runs = run.2.2.2 + i := by
  induction runs with
  | nil => exact .inl rfl
  | cons run runs ih =>
    obtain ⟨first, last, step, target⟩ := run
    rw [mapRuns]
    split
    · exact .inl rfl
    · next hfirst =>
      have hsplit : first + (n - first) = n := Nat.add_sub_of_le (Nat.le_of_not_lt hfirst)
      split
      · next hlast =>
        split
        · next hstep =>
          exact .inr ⟨_, List.mem_cons_self, n - first, ⟨hsplit.trans_le hlast, hstep⟩,
            hsplit.symm, rfl⟩
        · exact .inl rfl
      · rcases ih with h | ⟨run, hrun, i, hi⟩
        · exact .inl h
        · exact .inr ⟨run, List.mem_cons_of_mem _ hrun, i, hi⟩

/-- No image of the first run is a character that the second one maps: the runs lie apart, or their
characters alternate. The kernel computes this for every two runs of the table. -/
def apart (run run' : Nat × Nat × Nat × Nat) : Bool :=
  bif Nat.blt (run.2.2.2 + (run.2.1 - run.1)) run'.1 then true
  else bif Nat.blt run'.2.1 run.2.2.2 then true
  else run'.2.2.1 == 2 && (run.2.2.1 == 2 || run.1 == run.2.1) && (run.2.2.2 + run'.1) % 2 == 1

theorem ne_of_apart {run run' : Nat × Nat × Nat × Nat} (h : apart run run' = true) {i j : Nat}
    (hi : MapsAt run i) (hj : MapsAt run' j) : run.2.2.2 + i ≠ run'.1 + j := by
  obtain ⟨first, last, step, target⟩ := run
  obtain ⟨first', last', step', target'⟩ := run'
  obtain ⟨hlast, hstep⟩ := hi
  obtain ⟨hlast', hstep'⟩ := hj
  simp only [apart, Bool.cond_eq_ite, Nat.blt_eq] at h hlast hstep hlast' hstep' ⊢
  split at h
  · omega
  · split at h
    · omega
    · simp only [Bool.and_eq_true, Bool.or_eq_true, beq_iff_eq] at h
      obtain ⟨⟨rfl, rfl | rfl⟩, hparity⟩ := h <;> omega

theorem apart_lowerRuns : (lowerRuns.all fun run => lowerRuns.all (apart run)) = true := by
  decide +kernel

theorem lowerRuns_images : ∀ run ∈ lowerRuns, ∀ i < run.2.1 - run.1 + 1, i % run.2.2.1 = 0 →
    isBlank (Char.ofNat (run.1 + i)) = false ∧ isBlank (Char.ofNat (run.2.2.2 + i)) = false ∧
      (run.2.2.2 + i).isValidChar ∧ run.2.2.2 + i ≠ 0x130 := by
  decide +kernel

section

variable {run : Nat × Nat × Nat × Nat} {i : Nat}

theorem images_of_mapsAt (hrun : run ∈ lowerRuns) (hi : MapsAt run i) :
    isBlank (Char.ofNat (run.1 + i)) = false ∧ isBlank (Char.ofNat (run.2.2.2 + i)) = false ∧
      (run.2.2.2 + i).isValidChar ∧ run.2.2.2 + i ≠ 0x130 :=
  lowerRuns_images run hrun i (by have := hi.1; omega) hi.2

theorem isLower_image (hrun : run ∈ lowerRuns) (hi : MapsAt run i) :
    IsLower (Char.ofNat (run.2.2.2 + i)) := by
  obtain ⟨-, -, hvalid, hdotted⟩ := images_of_mapsAt hrun hi
  have hcode : (Char.ofNat (run.2.2.2 + i)).toNat = run.2.2.2 + i := by
    rw [Char.ofNat, dif_pos hvalid]
    rfl
  have hself : lowerChar (Char.ofNat (run.2.2.2 + i)) = Char.ofNat (run.2.2.2 + i) := by
    rcases mapRuns_eq_or (run.2.2.2 + i) lowerRuns with h | ⟨run', hrun', j, hj, heq, -⟩
    · rw [lowerChar, hcode, h]
    · have hapart := List.all_eq_true.1 (List.all_eq_true.1 apart_lowerRuns run hrun) run' hrun'
      exact absurd heq (ne_of_apart hapart hi hj)
  refine ⟨fun h => hdotted ?_, fun h => ?_, hself⟩
  · rw [← hcode, h]
    rfl
  · rw [h] at hself
    exact absurd hself (by decide)

end

/-- A character that is mapped is no blank, nor is its image, which is in lower case. -/
theorem lowerChar_eq_or (c : Char) : lowerChar c = c ∨
    isBlank c = false ∧ IsLower (lowerChar c) ∧ isBlank (lowerChar c) = false := by
  rcases mapRuns_eq_or c.toNat lowerRuns with h | ⟨run, hrun, i, hi, hc, himage⟩
  · exact .inl (by rw [lowerChar, h, Char.ofNat_toNat])
  · obtain ⟨hblank, hblank', -, -⟩ := images_of_mapsAt hrun hi
    rw [← hc, Char.ofNat_toNat] at hblank
    rw [lowerChar, himage]
    exact .inr ⟨hblank, isLower_image hrun hi, hblank'⟩

theorem isBlank_lowerChar (c : Char) : isBlank (lowerChar c) = isBlank c := by
  rcases lowerChar_eq_or c with h | ⟨hc, -, himage⟩
  · rw [h]
  · rw [hc, himage]

theorem isLower_lowerChar {c : Char} (hdotted : c ≠ 'İ') (hsigma : c ≠ 'Σ') :
    IsLower (lowerChar c) := by
  rcases lowerChar_eq_or c with h | ⟨-, himage, -⟩
  · rw [h]
    exact ⟨hdotted, hsigma, h⟩
  · exact himage

/-! ## Lower-casing a text -/

/-- What a character becomes between the texts before and after it. -/
def lowerImage (before : List Char) (c : Char) (cs : List Char) : List Char :=
  if c = 'İ' then ['i', '\u0307']
  else if c = 'Σ' then [if startsCased before && !startsCased cs then 'ς' else 'σ']
  else [lowerChar c]

theorem lowerFrom_cons (before : List Char) (c : Char) (cs : List Char) :
    lowerFrom before (c :: cs) = lowerImage before c cs ++ lowerFrom (c :: before) cs := rfl

theorem lowerImage_spec (before : List Char) (c : Char) (cs : List Char) :
    lowerImage before c cs ≠ [] ∧
      ∀ d ∈ lowerImage before c cs, IsLower d ∧ isBlank d = isBlank c := by
  unfold lowerImage
  split
  · next hc =>
    subst hc
    refine ⟨List.cons_ne_nil _ _, fun d hd => ?_⟩
    rcases List.mem_pair.1 hd with rfl | rfl <;> decide +kernel
  · next hdotted =>
    split
    · next hc =>
      subst hc
      refine ⟨List.cons_ne_nil _ _, fun d hd => ?_⟩
      obtain rfl := List.mem_singleton.1 hd
      split <;> decide +kernel
    · next hsigma =>
      refine ⟨List.cons_ne_nil _ _, fun d hd => ?_⟩
      obtain rfl := List.mem_singleton.1 hd
      exact ⟨isLower_lowerChar hdotted hsigma, isBlank_lowerChar c⟩

theorem isLower_of_mem_lowerFrom {before cs : List Char} {d : Char}
    (h : d ∈ lowerFrom before cs) : IsLower d := by
  induction cs generalizing before with
  | nil => cases h
  | cons c cs ih =>
    rw [lowerFrom_cons] at h
    rcases List.mem_append.1 h with h | h
    · exact ((lowerImage_spec before c cs).2 d h).1
    · exact ih h

theorem lowerFrom_of_isLower {before cs : List Char} (h : ∀ c ∈ cs, IsLower c) :
    lowerFrom before cs = cs := by
  induction cs generalizing before with
  | nil => rfl
  | cons c cs ih =>
    obtain ⟨hc, hcs⟩ := List.forall_mem_cons.1 h
    rw [lowerFrom_cons, lowerImage, if_neg hc.ne_dotted, if_neg hc.ne_sigma, hc.lowerChar_eq,
      ih hcs]
    rfl

/-- Lower-casing a text that is in lower case changes nothing. -/
theorem lowerChars_lowerChars (cs : List Char) : lowerChars (lowerChars cs) = lowerChars cs :=
  lowerFrom_of_isLower fun _ => isLower_of_mem_lowerFrom

/-! ## Word by word -/

theorem exists_lowerFrom_append {w : List Char} (h : NoBlank w) (before cs : List Char) :
    ∃ w', NoBlank w' ∧ w.length ≤ w'.length ∧
      lowerFrom before (w ++ cs) = w' ++ lowerFrom (w.reverse ++ before) cs := by
  induction w generalizing before with
  | nil => exact ⟨[], h, Nat.le_refl _, rfl⟩
  | cons c w ih =>
    obtain ⟨hc, hw⟩ := noBlank_cons.1 h
    obtain ⟨w', hw', hlength, heq⟩ := ih hw (c :: before)
    obtain ⟨hne, himage⟩ := lowerImage_spec before c (w ++ cs)
    refine ⟨lowerImage before c (w ++ cs) ++ w', noBlank_append.2 ⟨fun d hd => ?_, hw'⟩, ?_, ?_⟩
    · rw [(himage d hd).2, hc]
    · have := List.length_pos_iff.2 hne
      rw [List.length_append, List.length_cons]
      omega
    · rw [List.cons_append, lowerFrom_cons, heq, List.reverse_cons, List.append_assoc,
        List.append_assoc]
      rfl

/-- Words and single spaces stay so in lower case. -/
theorem exists_lowerFrom_spaced {ws : List (List Char)} (h : ∀ w ∈ ws, IsWord w)
    (before : List Char) : ∃ ws', (∀ w ∈ ws', IsWord w) ∧ ws'.length = ws.length ∧
      lowerFrom before (spaced ws) = spaced ws' := by
  induction ws generalizing before with
  | nil => exact ⟨[], h, rfl, rfl⟩
  | cons w ws ih =>
    obtain ⟨hw, hws⟩ := List.forall_mem_cons.1 h
    have hword {w' : List Char} (hw' : NoBlank w') (hlength : w.length ≤ w'.length) : IsWord w' :=
      ⟨List.ne_nil_of_length_pos (Nat.lt_of_lt_of_le (List.length_pos_iff.2 hw.ne_nil) hlength),
        hw'⟩
    cases ws with
    | nil =>
      obtain ⟨w', hw', hlength, heq⟩ := exists_lowerFrom_append hw.noBlank before []
      refine ⟨[w'], List.forall_mem_singleton.2 (hword hw' hlength), rfl, ?_⟩
      simpa [lowerFrom] using heq
    | cons v ws =>
      obtain ⟨w', hw', hlength, heq⟩ :=
        exists_lowerFrom_append hw.noBlank before (' ' :: spaced (v :: ws))
      obtain ⟨_ | ⟨v', ws'⟩, hws', hlengths, hrest⟩ := ih hws (' ' :: (w.reverse ++ before))
      · cases hlengths
      · refine ⟨w' :: v' :: ws', List.forall_mem_cons.2 ⟨hword hw' hlength, hws'⟩,
          by simpa using hlengths, ?_⟩
        rw [spaced_cons_cons, spaced_cons_cons, heq, lowerFrom_cons, hrest]
        rfl

end IssueFlow.Text
