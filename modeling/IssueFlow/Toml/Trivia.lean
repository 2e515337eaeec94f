/-!
# Blanks, comments and line ends

What may stand between the parts of a TOML document. A line ends with a line feed, which a carriage
return may precede, or with the document. A carriage return alone is no line end.
-/

namespace IssueFlow.Toml

/-- A space or a tab. -/
def isBlank (c : Char) : Bool := c = ' ' || c = '\t'

/-- A tab, or any character that is no control character. -/
def isPlain (c : Char) : Bool := c = '\t' || (0x20 ≤ c.toNat && c.toNat ≠ 0x7F)

/-- The text without the blanks in front. -/
def skipBlanks (cs : List Char) : List Char := cs.dropWhile isBlank

/-- The text after a line end, if it starts with one. -/
def lineBreak? : List Char → Option (List Char)
  | '\n' :: cs => some cs
  | '\r' :: '\n' :: cs => some cs
  | _ => none

/-- The text after a comment, if it starts with one; the line end is not part of it. -/
def skipComment : List Char → List Char
  | '#' :: cs => cs.dropWhile isPlain
  | cs => cs

/-- The text after the rest of a line that holds at most a comment. -/
def endOfLine? (cs : List Char) : Option (List Char) :=
  match skipComment (skipBlanks cs) with
  | [] => some []
  | cs => lineBreak? cs

/-- What a gap is reading. -/
inductive GapState where
  | outside
  | comment

/-- The text after blanks, line ends and comments; a comment must end with a line end. -/
def gapFrom? : GapState → List Char → Option (List Char)
  | .outside, [] => some []
  | .comment, [] => none
  | _, '\n' :: cs => gapFrom? .outside cs
  | _, '\r' :: '\n' :: cs => gapFrom? .outside cs
  | .outside, c :: cs =>
    if isBlank c then gapFrom? .outside cs
    else if c = '#' then gapFrom? .comment cs
    else if c = '\r' then none
    else some (c :: cs)
  | .comment, c :: cs => if isPlain c then gapFrom? .comment cs else none

/-- The text after blanks, line ends and comments. -/
def skipGap? (cs : List Char) : Option (List Char) := gapFrom? .outside cs

end IssueFlow.Toml
