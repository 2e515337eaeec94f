import IssueFlow.Text.Lowercase

/-!
# Root causes

Root causes are compared in a canonical form: lower case, single spaces between words, and one name
for the synonyms of a cause.
-/

namespace IssueFlow.Quality

open IssueFlow.Text

/-- Spellings of one cause, in lower case, and their canonical name. -/
def synonyms : List (String × String) :=
  [("code", "code issue"), ("coding", "code issue"), ("coding issue", "code issue"),
    ("code issue", "code issue")]

/-- The words of a text joined by single spaces. -/
def singleSpaced (s : String) : String :=
  String.ofList ((words s.toList).intersperse [' ']).flatten

/-- The canonical form of a root cause. -/
def canonicalRootCause (raw : String) : String :=
  let lowered := lowercase (singleSpaced raw)
  match synonyms.find? fun entry => entry.1 = lowered with
  | some (_, canonical) => canonical
  | none => lowered

end IssueFlow.Quality
