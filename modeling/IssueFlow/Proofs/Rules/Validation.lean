import IssueFlow.Proofs.Rules.Reading
import IssueFlow.Rules.File

/-!
# Accepted classifications

A set of classifications is valid if each of them is (`ClassificationSet.validate_eq_ok_iff`), and a
text is accepted just if it describes a valid set. So in every project of an accepted text the open
default is a value, and no closed one (`ClassificationSet.openDefault_of_parse`).
-/

namespace IssueFlow.Rules

open IssueFlow.Text

namespace ClassificationSet

variable {s : ClassificationSet} {text project : String} {c : Classification}

theorem firstInvalid?_eq_none_iff {entries : List (String × Classification)} :
    firstInvalid? entries = none ↔ ∀ entry ∈ entries, entry.2.validate = .ok () := by
  fun_induction firstInvalid? entries with
  | case1 => simp
  | case2 project c rest cause hc => simp [hc]
  | case3 project c rest hc ih => rw [ih, List.forall_mem_cons, and_iff_right hc]

theorem validate_eq_ok_iff : s.validate = .ok () ↔
    ∀ project c, s.get? project = some c → c.validate = .ok () := by
  have hnone : s.validate = .ok () ↔ firstInvalid? s.projects.toList = none := by
    unfold validate
    cases firstInvalid? s.projects.toList <;> simp
  rw [hnone, firstInvalid?_eq_none_iff, Prod.forall]
  simp only [Std.ExtTreeMap.mem_toList_iff_getElem?_eq_some]
  exact Iff.rfl

theorem parse_eq_ok_iff : parse text = .ok s ↔ ofToml? text = some s ∧ s.validate = .ok () := by
  unfold parse
  cases ofToml? text with
  | none => simp
  | some s' =>
    cases hvalid : s'.validate with
    | error fault =>
      simp only [hvalid, Option.some.injEq, reduceCtorEq, false_iff]
      rintro ⟨rfl, hs⟩
      rw [hvalid] at hs
      cases hs
    | ok _ =>
      simp only [hvalid, Except.ok.injEq, Option.some.injEq]
      exact ⟨fun heq => ⟨heq, heq ▸ hvalid⟩, And.left⟩

/-- What validation is for: the open default of a configured project is a value, and not closed. -/
theorem openDefault_of_parse (hparse : parse text = .ok s) (hc : s.get? project = some c) :
    ¬ AllBlank c.openDefault ∧ c.isClosed c.openDefault = false :=
  Classification.validate_eq_ok_iff.1
    (validate_eq_ok_iff.1 (parse_eq_ok_iff.1 hparse).2 project c hc)

end ClassificationSet

end IssueFlow.Rules
