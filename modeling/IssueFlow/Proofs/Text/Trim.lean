import IssueFlow.Text.Blank
import Mathlib.Data.List.DropRight

/-!
# Trimmed text

Trimming leaves nothing of a text just if it is all blanks (`trimChars_eq_nil_iff`), all of a text
without blanks (`trimChars_eq_self`), and a trimmed text as it is (`trimChars_trimChars`); blanks
around a text change nothing (`trimChars_blanks_append`). So what looks at trimmed text only, such
as tracker equality, does not tell a text from its trimmed form (`foldKey_trim`).
-/

namespace IssueFlow.Text

/-- Every character is a blank. -/
def AllBlank (s : String) : Prop := ∀ c ∈ s.toList, isBlank c = true

instance (s : String) : Decidable (AllBlank s) :=
  decidable_of_iff (s.toList.all isBlank = true) List.all_eq_true

theorem trimChars_eq_rdropWhile (cs : List Char) :
    trimChars cs = (cs.dropWhile isBlank).rdropWhile isBlank := rfl

theorem trimChars_eq_nil_iff {cs : List Char} :
    trimChars cs = [] ↔ ∀ c ∈ cs, isBlank c = true := by
  rw [trimChars_eq_rdropWhile, List.rdropWhile_eq_nil_iff]
  constructor
  · intro h
    rw [← List.dropWhile_eq_nil_iff]
    by_contra hne
    have hhead := List.head_dropWhile_not isBlank hne
    rw [h _ (List.head_mem hne)] at hhead
    cases hhead
  · intro h c hc
    exact h c ((List.dropWhile_sublist isBlank).subset hc)

theorem trimChars_trimChars (cs : List Char) : trimChars (trimChars cs) = trimChars cs := by
  -- A trimmed text starts like the text without the blanks before it: with no blank.
  have hstart : (trimChars cs).dropWhile isBlank = trimChars cs := by
    rw [List.dropWhile_eq_self_iff, trimChars_eq_rdropWhile]
    intro hpos
    have hne := List.ne_nil_of_length_pos hpos
    have hprefix := List.rdropWhile_prefix isBlank (cs.dropWhile isBlank)
    rw [← List.head_eq_getElem_zero hne, hprefix.head hne, List.head_dropWhile_not isBlank]
    exact Bool.false_ne_true
  rw [trimChars_eq_rdropWhile (trimChars cs), hstart, trimChars_eq_rdropWhile,
    List.rdropWhile_idempotent]

theorem dropBlanks_blanks_append {bs : List Char} (h : ∀ c ∈ bs, isBlank c = true)
    (cs : List Char) : dropBlanks (bs ++ cs) = dropBlanks cs :=
  List.dropWhile_append_of_pos h

/-- Where the blanks end does not depend on how a text is cut. -/
theorem blanks_append_inj {bs bs' cs cs' : List Char} (h : ∀ c ∈ bs, isBlank c = true)
    (h' : ∀ c ∈ bs', isBlank c = true) (hcs : dropBlanks cs = cs) (hcs' : dropBlanks cs' = cs')
    (heq : bs ++ cs = bs' ++ cs') : bs = bs' ∧ cs = cs' := by
  have hdrop := congrArg dropBlanks heq
  rw [dropBlanks_blanks_append h, dropBlanks_blanks_append h', hcs, hcs'] at hdrop
  subst hdrop
  exact ⟨List.append_cancel_right heq, rfl⟩

/-- Blanks at either end make no difference to what is left. -/
theorem trimChars_blanks_append {bs cs bs' : List Char} (h : ∀ c ∈ bs, isBlank c = true)
    (h' : ∀ c ∈ bs', isBlank c = true) : trimChars (bs ++ cs ++ bs') = trimChars cs := by
  by_cases hcs : ∀ c ∈ cs, isBlank c = true
  · have hall : ∀ c ∈ bs ++ cs ++ bs', isBlank c = true :=
      List.forall_mem_append.2 ⟨List.forall_mem_append.2 ⟨h, hcs⟩, h'⟩
    rw [trimChars_eq_nil_iff.2 hall, trimChars_eq_nil_iff.2 hcs]
  · have hne : (cs.dropWhile isBlank).isEmpty = false := by
      rw [List.isEmpty_eq_false_iff, Ne, List.dropWhile_eq_nil_iff]
      exact hcs
    have hfront : (bs ++ cs ++ bs').dropWhile isBlank = cs.dropWhile isBlank ++ bs' := by
      rw [List.append_assoc, List.dropWhile_append_of_pos h, List.dropWhile_append, hne]
      rfl
    rw [trimChars, dropBlanks, dropBlanks, hfront, List.reverse_append,
      List.dropWhile_append_of_pos fun c hc => h' c (List.mem_reverse.1 hc)]
    rfl

theorem exists_blanks_append (cs : List Char) :
    ∃ bs, (∀ c ∈ bs, isBlank c = true) ∧ cs = bs ++ dropBlanks cs :=
  ⟨cs.takeWhile isBlank, fun _ hc => List.mem_takeWhile_imp hc,
    List.takeWhile_append_dropWhile.symm⟩

/-- No character is a blank. -/
def NoBlank (cs : List Char) : Prop := ∀ c ∈ cs, isBlank c = false

instance (cs : List Char) : Decidable (NoBlank cs) :=
  List.decidableBAll (fun c => isBlank c = false) cs

@[simp] theorem noBlank_cons {c : Char} {cs : List Char} :
    NoBlank (c :: cs) ↔ isBlank c = false ∧ NoBlank cs :=
  List.forall_mem_cons

@[simp] theorem noBlank_append {cs ds : List Char} :
    NoBlank (cs ++ ds) ↔ NoBlank cs ∧ NoBlank ds :=
  List.forall_mem_append

theorem trimChars_eq_self {cs : List Char} (h : NoBlank cs) : trimChars cs = cs := by
  rw [trimChars_eq_rdropWhile, List.dropWhile_eq_self_iff.2, List.rdropWhile_eq_self_iff]
  · intro hne
    simp [h _ (List.getLast_mem hne)]
  · intro hpos
    simp [h _ (List.getElem_mem hpos)]

theorem trimChars_toList_eq_nil_iff {s : String} : trimChars s.toList = [] ↔ AllBlank s :=
  trimChars_eq_nil_iff

theorem trim_trim (s : String) : trim (trim s) = trim s := by
  unfold trim
  rw [String.toList_ofList, trimChars_trimChars]

theorem foldKey_trim (s : String) : foldKey (trim s) = foldKey s := by
  unfold foldKey trim
  rw [String.toList_ofList, trimChars_trimChars]

theorem foldKey_eq_nil_iff {s : String} : foldKey s = [] ↔ AllBlank s := by
  rw [foldKey, List.map_eq_nil_iff, trimChars_toList_eq_nil_iff]

end IssueFlow.Text
