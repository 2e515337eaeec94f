import IssueFlow.Text.Blank
import IssueFlow.Text.CaseTable

/-!
# Lower case

Full Unicode lower-casing of a text. Every character maps by `lowerRuns`, with two exceptions: `İ`
becomes `i` and a combining dot above, and `Σ` becomes `ς` at the end of a word and `σ` elsewhere.
-/

namespace IssueFlow.Text

/-- The image of a code point under mapping runs in ascending order, itself if none holds it. -/
def mapRuns (n : Nat) : List (Nat × Nat × Nat × Nat) → Nat
  | [] => n
  | (first, last, step, target) :: runs =>
    if n < first then n
    else if n ≤ last then if (n - first) % step = 0 then target + (n - first) else n
    else mapRuns n runs

/-- Whether a code point lies in one of the ranges, which are in ascending order. -/
def inRanges (n : Nat) : List (Nat × Nat) → Bool
  | [] => false
  | (first, last) :: ranges =>
    if n < first then false else if n ≤ last then true else inRanges n ranges

/-- The lower-case mapping of a single character that has one of its own length. -/
def lowerChar (c : Char) : Char :=
  Char.ofNat (mapRuns c.toNat lowerRuns)

def isCased (c : Char) : Bool := inRanges c.toNat casedRanges

def isCaseIgnorable (c : Char) : Bool := inRanges c.toNat caseIgnorableRanges

/-- Whether the first character that is not case-ignorable is cased. -/
def startsCased : List Char → Bool
  | [] => false
  | c :: cs => if isCaseIgnorable c then startsCased cs else isCased c

/-- Lower-casing of a text whose characters before it, nearest first, are `before`. -/
def lowerFrom (before : List Char) : List Char → List Char
  | [] => []
  | c :: cs =>
    let image :=
      if c = 'İ' then ['i', '\u0307']
      else if c = 'Σ' then [if startsCased before && !startsCased cs then 'ς' else 'σ']
      else [lowerChar c]
    image ++ lowerFrom (c :: before) cs

def lowerChars (cs : List Char) : List Char := lowerFrom [] cs

/-- The text in lower case. -/
def lowercase (s : String) : String :=
  String.ofList (lowerChars s.toList)

/-- The trimmed text in lower case. -/
def lowerKey (s : String) : String :=
  lowercase (trim s)

end IssueFlow.Text
