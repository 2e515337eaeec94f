import IssueFlow.Proofs.Text.Ascii
import IssueFlow.Proofs.Text.Trim
import Mathlib.Data.List.Chain

/-!
# Words and single spaces

The words of a text are its runs without a blank. Put together with single spaces, they make a text
whose words they are again (`words_spaced`) and whose blanks are single spaces between words
(`singleSpaced_spaced`). Blanks at either end make no difference to the words (`words_trimChars`).
-/

namespace IssueFlow.Text

/-- At least one character, and none of them a blank. -/
structure IsWord (w : List Char) : Prop where
  ne_nil : w ≠ []
  noBlank : NoBlank w

/-- Texts put together with single spaces between them. -/
def spaced (ws : List (List Char)) : List Char := (ws.intersperse [' ']).flatten

@[simp] theorem spaced_nil : spaced [] = [] := rfl

@[simp] theorem spaced_singleton (w : List Char) : spaced [w] = w := by
  simp [spaced]

@[simp] theorem spaced_cons_cons (w v : List Char) (ws : List (List Char)) :
    spaced (w :: v :: ws) = w ++ ' ' :: spaced (v :: ws) := by
  simp [spaced]

theorem map_spaced {f : Char → Char} (h : f ' ' = ' ') (ws : List (List Char)) :
    (spaced ws).map f = spaced (ws.map (List.map f)) := by
  induction ws with
  | nil => rfl
  | cons w ws ih =>
    cases ws with
    | nil => simp
    | cons v ws => simpa [h] using ih

/-! ## The words of a text -/

theorem words_eq (cs : List Char) : words cs =
    if (wordRuns cs).1 = [] then (wordRuns cs).2 else (wordRuns cs).1 :: (wordRuns cs).2 := by
  simp [words]

theorem wordRuns_cons_of_blank {c : Char} (h : isBlank c = true) (cs : List Char) :
    wordRuns (c :: cs) = ([], words cs) := by
  simp [wordRuns, words, h]

theorem wordRuns_cons_of_not_blank {c : Char} (h : isBlank c = false) (cs : List Char) :
    wordRuns (c :: cs) = (c :: (wordRuns cs).1, (wordRuns cs).2) := by
  simp [wordRuns, h]

theorem words_cons_of_blank {c : Char} (h : isBlank c = true) (cs : List Char) :
    words (c :: cs) = words cs := by
  simp [words_eq (c :: cs), wordRuns_cons_of_blank h]

theorem wordRuns_append {w : List Char} (h : NoBlank w) (cs : List Char) :
    wordRuns (w ++ cs) = (w ++ (wordRuns cs).1, (wordRuns cs).2) := by
  induction w with
  | nil => rfl
  | cons c w ih =>
    obtain ⟨hc, hw⟩ := noBlank_cons.1 h
    rw [List.cons_append, wordRuns_cons_of_not_blank hc, ih hw]
    rfl

theorem words_of_isWord {w : List Char} (h : IsWord w) : words w = [w] := by
  have hruns := wordRuns_append h.noBlank []
  rw [List.append_nil] at hruns
  simp [words_eq, hruns, wordRuns, h.ne_nil]

theorem words_append_cons {w : List Char} (h : IsWord w) {c : Char} (hc : isBlank c = true)
    (cs : List Char) : words (w ++ c :: cs) = w :: words cs := by
  simp [words_eq (w ++ c :: cs), wordRuns_append h.noBlank, wordRuns_cons_of_blank hc, h.ne_nil]

/-- The words of a text are words; what it starts with has no blank. -/
theorem isWord_of_mem_wordRuns (cs : List Char) :
    NoBlank (wordRuns cs).1 ∧ ∀ w ∈ (wordRuns cs).2, IsWord w := by
  induction cs with
  | nil => exact ⟨List.forall_mem_nil _, List.forall_mem_nil _⟩
  | cons c cs ih =>
    cases hc : isBlank c with
    | true =>
      rw [wordRuns_cons_of_blank hc, words_eq]
      refine ⟨List.forall_mem_nil _, ?_⟩
      split
      · exact ih.2
      · next hne => exact List.forall_mem_cons.2 ⟨⟨hne, ih.1⟩, ih.2⟩
    | false =>
      rw [wordRuns_cons_of_not_blank hc]
      exact ⟨noBlank_cons.2 ⟨hc, ih.1⟩, ih.2⟩

theorem isWord_of_mem_words {cs w : List Char} (h : w ∈ words cs) : IsWord w := by
  obtain ⟨hfirst, hrest⟩ := isWord_of_mem_wordRuns cs
  rw [words_eq] at h
  split at h
  · exact hrest w h
  · next hne =>
    rcases List.mem_cons.1 h with rfl | h
    · exact ⟨hne, hfirst⟩
    · exact hrest w h

theorem words_spaced {ws : List (List Char)} (h : ∀ w ∈ ws, IsWord w) : words (spaced ws) = ws := by
  induction ws with
  | nil => rfl
  | cons w ws ih =>
    obtain ⟨hw, hws⟩ := List.forall_mem_cons.1 h
    cases ws with
    | nil => rw [spaced_singleton, words_of_isWord hw]
    | cons v ws => rw [spaced_cons_cons, words_append_cons hw (by decide), ih hws]

theorem words_dropBlanks (cs : List Char) : words (dropBlanks cs) = words cs := by
  induction cs with
  | nil => rfl
  | cons c cs ih =>
    rw [dropBlanks, List.dropWhile_cons]
    split
    · next hc => exact ih.trans (words_cons_of_blank hc cs).symm
    · rfl

theorem wordRuns_append_blanks (cs : List Char) {bs : List Char}
    (h : ∀ c ∈ bs, isBlank c = true) : wordRuns (cs ++ bs) = wordRuns cs := by
  induction cs with
  | nil =>
    cases bs with
    | nil => rfl
    | cons b bs =>
      have hbs := List.forall_mem_cons.1 h
      have hnone := words_dropBlanks bs
      rw [dropBlanks, List.dropWhile_eq_nil_iff.2 hbs.2] at hnone
      rw [List.nil_append, wordRuns_cons_of_blank hbs.1, ← hnone]
      rfl
  | cons c cs ih => rw [List.cons_append, wordRuns, wordRuns, ih]

theorem words_trimChars (cs : List Char) : words (trimChars cs) = words cs := by
  obtain ⟨bs, hbs, hback⟩ := exists_blanks_append (dropBlanks cs).reverse
  have hcut : dropBlanks cs = trimChars cs ++ bs.reverse := by
    rw [trimChars, ← List.reverse_append, ← hback, List.reverse_reverse]
  have hruns := wordRuns_append_blanks (trimChars cs) fun c hc => hbs c (List.mem_reverse.1 hc)
  rw [← words_dropBlanks cs, hcut, words_eq, words_eq, hruns]

theorem words_map_toLower (cs : List Char) :
    words (cs.map Char.toLower) = (words cs).map (List.map Char.toLower) := by
  have hruns : wordRuns (cs.map Char.toLower) =
      ((wordRuns cs).1.map Char.toLower, (wordRuns cs).2.map (List.map Char.toLower)) := by
    induction cs with
    | nil => rfl
    | cons c cs ih =>
      have hblank := apply_toLower isBlank (by decide +kernel) c
      cases hc : isBlank c <;> simp [wordRuns, hblank, hc, ih, apply_ite]
  rw [words_eq, words_eq, hruns]
  simp [apply_ite]

/-! ## Single spaces -/

/-- The only blanks of a text are single spaces between other characters. -/
structure SingleSpaced (cs : List Char) : Prop where
  /-- It does not start with a blank. -/
  head (c : Char) : cs.head? = some c → isBlank c = false
  /-- It does not end with a blank. -/
  last (c : Char) : cs.getLast? = some c → isBlank c = false
  /-- Of two characters next to each other, one is no blank. -/
  chain : cs.IsChain fun c d => isBlank c = false ∨ isBlank d = false
  space (c : Char) : c ∈ cs → isBlank c = true → c = ' '

theorem IsWord.singleSpaced {w : List Char} (h : IsWord w) : SingleSpaced w where
  head c hc := h.noBlank c (List.mem_of_mem_head? hc)
  last c hc := h.noBlank c (List.mem_of_mem_getLast? hc)
  chain := by
    refine List.Pairwise.isChain (List.pairwise_of_forall_mem_list fun c hc d _ => ?_)
    exact .inl (h.noBlank c hc)
  space c hc hblank := by
    rw [h.noBlank c hc] at hblank
    cases hblank

theorem SingleSpaced.append {cs ds : List Char} (hcs : SingleSpaced cs) (hds : SingleSpaced ds)
    (hne : cs ≠ []) (hne' : ds ≠ []) : SingleSpaced (cs ++ ' ' :: ds) where
  head c hc := hcs.head c (by rwa [List.head?_append_of_ne_nil _ hne] at hc)
  last c hc := by
    rw [List.append_cons, List.getLast?_append_of_ne_nil _ hne'] at hc
    exact hds.last c hc
  chain := by
    rw [List.isChain_append, List.isChain_cons]
    exact ⟨hcs.chain, ⟨fun d hd => .inr (hds.head d hd), hds.chain⟩,
      fun c hc _ _ => .inl (hcs.last c hc)⟩
  space c hc hblank := by
    rcases List.mem_append.1 hc with hc | hc
    · exact hcs.space c hc hblank
    · rcases List.mem_cons.1 hc with hc | hc
      · exact hc
      · exact hds.space c hc hblank

theorem spaced_ne_nil {w : List Char} (h : IsWord w) (ws : List (List Char)) :
    spaced (w :: ws) ≠ [] := by
  cases ws <;> simp [h.ne_nil]

theorem singleSpaced_nil : SingleSpaced [] where
  head c hc := by cases hc
  last c hc := by cases hc
  chain := .nil
  space c hc := by cases hc

theorem singleSpaced_spaced {ws : List (List Char)} (h : ∀ w ∈ ws, IsWord w) :
    SingleSpaced (spaced ws) := by
  induction ws with
  | nil => exact singleSpaced_nil
  | cons w ws ih =>
    obtain ⟨hw, hws⟩ := List.forall_mem_cons.1 h
    cases ws with
    | nil => simpa using hw.singleSpaced
    | cons v ws =>
      rw [spaced_cons_cons]
      exact hw.singleSpaced.append (ih hws) hw.ne_nil
        (spaced_ne_nil (hws v List.mem_cons_self) ws)

end IssueFlow.Text
