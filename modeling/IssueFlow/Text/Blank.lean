/-!
# Blanks, trimming and tracker equality

A blank is a character of the Unicode property `White_Space`. Text fields of a tracker are compared
after trimming blanks at both ends, and without regard to the case of ASCII letters (`sameValue`).
-/

namespace IssueFlow.Text

/-- The 25 characters of the property `White_Space`. -/
def isBlank (c : Char) : Bool :=
  let n := c.toNat
  (9 ≤ n && n ≤ 13) || n == 0x20 || n == 0x85 || n == 0xA0 || n == 0x1680 ||
    (0x2000 ≤ n && n ≤ 0x200A) || n == 0x2028 || n == 0x2029 || n == 0x202F || n == 0x205F ||
    n == 0x3000

/-- The text from its first character that is no blank. -/
def dropBlanks (cs : List Char) : List Char :=
  cs.dropWhile isBlank

/-- The text without the blanks at either end. -/
def trimChars (cs : List Char) : List Char :=
  (dropBlanks (dropBlanks cs).reverse).reverse

/-- The text without the blanks at either end. -/
def trim (s : String) : String :=
  String.ofList (trimChars s.toList)

/-- The first word, if the text starts with one, and the words after it. -/
def wordRuns : List Char → List Char × List (List Char)
  | [] => ([], [])
  | c :: cs =>
    let (word, rest) := wordRuns cs
    if isBlank c then ([], if word.isEmpty then rest else word :: rest) else (c :: word, rest)

/-- The words of a text: its longest runs without a blank, in order. -/
def words (cs : List Char) : List (List Char) :=
  let (word, rest) := wordRuns cs
  if word.isEmpty then rest else word :: rest

/-- A trimmed text with its ASCII letters in lower case: what tracker equality looks at. -/
def foldKey (s : String) : List Char :=
  (trimChars s.toList).map Char.toLower

/-- Tracker equality: equal after trimming, the case of ASCII letters apart. -/
def sameValue (a b : String) : Bool :=
  foldKey a == foldKey b

/-- Whether some member is the value under tracker equality. -/
def containsValue (members : List String) (value : String) : Bool :=
  members.any fun member => sameValue member value

theorem sameValue_iff {a b : String} : sameValue a b = true ↔ foldKey a = foldKey b := by
  simp [sameValue]

theorem sameValue_refl (a : String) : sameValue a a = true := by
  simp [sameValue]

theorem sameValue_comm (a b : String) : sameValue a b = sameValue b a := by
  rw [Bool.eq_iff_iff, sameValue_iff, sameValue_iff, eq_comm]

theorem sameValue_trans {a b c : String} (hab : sameValue a b = true)
    (hbc : sameValue b c = true) : sameValue a c = true :=
  sameValue_iff.2 ((sameValue_iff.1 hab).trans (sameValue_iff.1 hbc))

end IssueFlow.Text
