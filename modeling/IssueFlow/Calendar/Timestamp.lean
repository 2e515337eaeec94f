import IssueFlow.Calendar.Layout

/-!
# Raw timestamps

Trackers export timestamps as free text. `Instant.ofRaw` trims the text and tries the four layouts
in order.
-/

namespace IssueFlow.Calendar

open IssueFlow.Text

/-- Why a raw timestamp names no instant. -/
inductive TimestampError where
  /-- The text is blank. -/
  | empty
  /-- No layout accepts the trimmed text. -/
  | unrecognised (text : String)
  deriving DecidableEq, Repr

def TimestampError.message : TimestampError → String
  | .empty => "timestamp is empty"
  | .unrecognised text => "unrecognised timestamp '" ++ text ++ "'"

/-- The instant that a trimmed text names in the first layout that accepts it. -/
def Instant.ofLayouts? (cs : List Char) : Option Instant :=
  withOffset? cs <|> joinedByT? cs <|> joinedByBlanks? cs <|> dateOnly? cs

/-- The instant that a raw timestamp names. -/
def Instant.ofRaw (raw : String) : Except TimestampError Instant :=
  let cs := trimChars raw.toList
  if cs.isEmpty then .error .empty
  else
    match Instant.ofLayouts? cs with
    | some t => .ok t
    | none => .error (.unrecognised (String.ofList cs))

end IssueFlow.Calendar
