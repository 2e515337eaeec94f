import IssueFlow.Proofs.Text.Lowercase
import IssueFlow.Quality.RootCause

/-!
# Canonical root causes

A canonical root cause is plain: words in lower case with single spaces between them. Plain text is
left as it is by each step that makes text plain (`IsPlain.plain_eq`), and the name of a synonym is
plain and its own name (`named_named`), so a second pass changes nothing. Two causes have one
canonical form if their plain texts are equal or both are synonyms (`canonicalRootCause_eq_iff`).

Main statement: `canonicalRootCause_normal`.
-/

namespace IssueFlow.Quality

open IssueFlow.Text

/-- The words of a text in lower case, with single spaces between them. -/
def plain (raw : String) : String := lowercase (singleSpaced raw)

/-- The common name of a synonym; any other cause is its own name. -/
def named (cause : String) : String :=
  match synonyms.find? fun entry => entry.1 = cause with
  | some (_, canonical) => canonical
  | none => cause

theorem canonicalRootCause_eq (raw : String) : canonicalRootCause raw = named (plain raw) := by
  unfold canonicalRootCause plain
  generalize lowercase (singleSpaced raw) = cause
  rfl

/-! ## Plain text -/

/-- Words with single spaces between them, in lower case. -/
structure IsPlain (s : String) : Prop where
  exists_words : ∃ ws, (∀ w ∈ ws, IsWord w) ∧ s.toList = spaced ws
  lowerChars_eq : lowerChars s.toList = s.toList

theorem toList_plain (raw : String) :
    (plain raw).toList = lowerChars (spaced (words raw.toList)) := by
  rw [plain, lowercase, singleSpaced, String.toList_ofList, String.toList_ofList]
  rfl

theorem isPlain_plain (raw : String) : IsPlain (plain raw) where
  exists_words := by
    have hwords : ∀ w ∈ words raw.toList, IsWord w := fun _ => isWord_of_mem_words
    obtain ⟨ws, hws, -, heq⟩ := exists_lowerFrom_spaced hwords []
    exact ⟨ws, hws, (toList_plain raw).trans heq⟩
  lowerChars_eq := by rw [toList_plain, lowerChars_lowerChars]

theorem IsPlain.plain_eq {s : String} (h : IsPlain s) : plain s = s := by
  obtain ⟨ws, hws, heq⟩ := h.exists_words
  rw [← String.toList_inj, toList_plain, heq, words_spaced hws, ← heq, h.lowerChars_eq]

/-- Texts that a tracker takes as one have the same words but for the case of ASCII letters. -/
theorem plain_eq_of_sameValue {a b : String} (h : sameValue a b = true) : plain a = plain b := by
  have hkey (s : String) : (plain s).toList = lowerChars (spaced (words (foldKey s))) := by
    rw [toList_plain, foldKey, words_map_toLower, words_trimChars, ← map_spaced (by decide),
      lowerChars, lowerChars]
    exact (lowerFrom_map_toLower [] _).symm
  rw [← String.toList_inj, hkey, hkey, sameValue_iff.1 h]

/-! ## Names -/

/-- The spellings that have a common name. -/
def spellings : List String := synonyms.map Prod.fst

theorem named_of_mem {cause : String} (h : cause ∈ spellings) : named cause = "code issue" := by
  have hall : ∀ spelling ∈ spellings, named spelling = "code issue" := by decide +kernel
  exact hall cause h

theorem named_of_notMem {cause : String} (h : cause ∉ spellings) : named cause = cause := by
  have hnone : synonyms.find? (fun entry => entry.1 = cause) = none := by
    rw [List.find?_eq_none]
    intro entry hentry heq
    exact h (List.mem_map.2 ⟨entry, hentry, of_decide_eq_true heq⟩)
  rw [named, hnone]

theorem named_named (cause : String) : named (named cause) = named cause := by
  by_cases h : cause ∈ spellings
  · rw [named_of_mem h]
    exact named_of_mem (by decide)
  · rw [named_of_notMem h, named_of_notMem h]

theorem IsPlain.named {s : String} (h : IsPlain s) : IsPlain (named s) := by
  by_cases hmem : s ∈ spellings
  · rw [named_of_mem hmem]
    refine ⟨⟨["code".toList, "issue".toList], ?_, by decide⟩, by decide +kernel⟩
    simp only [List.forall_mem_cons]
    exact ⟨⟨by decide, by decide⟩, ⟨by decide, by decide⟩, List.forall_mem_nil _⟩
  · rwa [named_of_notMem hmem]

theorem named_eq_iff {s t : String} :
    named s = named t ↔ s = t ∨ s ∈ spellings ∧ t ∈ spellings := by
  have hname : "code issue" ∈ spellings := by decide
  by_cases hs : s ∈ spellings <;> by_cases ht : t ∈ spellings
  · simp [named_of_mem hs, named_of_mem ht, hs, ht]
  · rw [named_of_mem hs, named_of_notMem ht]
    simp only [ht, and_false, or_false]
    exact ⟨fun h => absurd (h ▸ hname) ht, fun h => absurd (h ▸ hs) ht⟩
  · rw [named_of_notMem hs, named_of_mem ht]
    simp only [hs, false_and, or_false]
    exact ⟨fun h => absurd (h ▸ hname) hs, fun h => absurd (h ▸ ht) hs⟩
  · simp [named_of_notMem hs, named_of_notMem ht, hs]

/-! ## Canonical form -/

theorem canonicalRootCause_eq_iff {a b : String} :
    canonicalRootCause a = canonicalRootCause b ↔
      plain a = plain b ∨ plain a ∈ spellings ∧ plain b ∈ spellings := by
  rw [canonicalRootCause_eq, canonicalRootCause_eq, named_eq_iff]

/-- The canonical form of a cause is its own canonical form, has no blanks but single spaces between
its words, and is the same for causes that a tracker takes as one. Causes share it only if their
words in lower case are the same or both are synonyms. -/
theorem canonicalRootCause_normal :
    (∀ raw, canonicalRootCause (canonicalRootCause raw) = canonicalRootCause raw) ∧
      (∀ raw, SingleSpaced (canonicalRootCause raw).toList) ∧
      (∀ a b, sameValue a b = true → canonicalRootCause a = canonicalRootCause b) ∧
      ∀ a b, canonicalRootCause a = canonicalRootCause b ↔
        plain a = plain b ∨ plain a ∈ spellings ∧ plain b ∈ spellings := by
  refine ⟨fun raw => ?_, fun raw => ?_, fun a b h => ?_, fun a b => canonicalRootCause_eq_iff⟩
  · rw [canonicalRootCause_eq, canonicalRootCause_eq, (isPlain_plain raw).named.plain_eq,
      named_named]
  · obtain ⟨ws, hws, heq⟩ := (isPlain_plain raw).named.exists_words
    rw [canonicalRootCause_eq, heq]
    exact singleSpaced_spaced hws
  · exact canonicalRootCause_eq_iff.2 (.inl (plain_eq_of_sameValue h))

/-- Twice one cause to a tracker, with a no-break space before it and a tab after it, blanks of
three kinds within it, and a last `Σ` in its first word. -/
theorem canonicalRootCause_normal_finalSigma :
    sameValue "\u00a0ΟΔΟΣ \u2003\tIssue" "ΟΔΟΣ \u2003\tissue\t" = true ∧
      canonicalRootCause "\u00a0ΟΔΟΣ \u2003\tIssue" = canonicalRootCause "ΟΔΟΣ \u2003\tissue\t" ∧
      canonicalRootCause "ΟΔΟΣ \u2003\tissue\t" = "οδος issue" := by
  have hsame : sameValue "\u00a0ΟΔΟΣ \u2003\tIssue" "ΟΔΟΣ \u2003\tissue\t" = true := by
    decide +kernel
  obtain ⟨-, -, hcanonical, -⟩ := canonicalRootCause_normal
  exact ⟨hsame, hcanonical _ _ hsame, by decide +kernel⟩

end IssueFlow.Quality
