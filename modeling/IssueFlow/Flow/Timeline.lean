import IssueFlow.Rules.Classification
import IssueFlow.Tracker.Issue

/-!
# Timelines

The value that an issue holds at the end of each day of a range, as segments of dates with one
value. A cursor goes through the events and notes the days from which values hold: events before the
range leave one value for its first day, and of several events on one day the last one counts.
Events after the range do not count. An empty log stands for one event: the open default at the
creation of the issue.
-/

namespace IssueFlow.Flow

open IssueFlow.Calendar IssueFlow.Rules IssueFlow.Tracker

/-- The dates from `first` to `last`, both included, and the value that they share. -/
structure Segment where
  first : Date
  last : Date
  value : String
  deriving DecidableEq

/-- The events of an issue; an empty log stands for one event at the creation. -/
def eventsOf (c : Classification) (h : ResolvedHistory) : List Event :=
  if h.events.isEmpty then [⟨"", c.openDefault, h.created⟩] else h.events

/-- The events up to the end of a day, and the values that they lead to. -/
def valuesUntil (c : Classification) (h : ResolvedHistory) (today : Date) :
    List (Date × String) :=
  ((eventsOf c h).takeWhile fun e => e.time.date ≤ today).map fun e =>
    (e.time.date, c.normalize e.new)

/-- What a walk through the events of an issue knows. -/
inductive Cursor where
  /-- No event has come yet. -/
  | unstarted
  /-- Only events before the range have come; the last one led to the value. -/
  | carried (value : String)
  /-- The value has held since the day. -/
  | active (day : Date) (value : String)
  deriving DecidableEq

/-- The cursor after an event, and the value that the event puts an end to, if it is on a later day,
with the day since which that value has held. -/
def Cursor.step (rangeStart : Date) (cursor : Cursor) (date : Date) (value : String) :
    Cursor × Option (Date × String) :=
  if date < rangeStart then (.carried value, none)
  else
    match cursor with
    | .unstarted => (.active date value, none)
    | .carried old =>
      if date = rangeStart then (.active date value, none)
      else (.active date value, some (rangeStart, old))
    | .active day old =>
      if date = day then (.active day value, none)
      else (.active date value, some (day, old))

/-- The value of a cursor, with the day since which it has held in the range. -/
def Cursor.start? (rangeStart : Date) : Cursor → Option (Date × String)
  | .unstarted => none
  | .carried value => some (rangeStart, value)
  | .active day value => some (day, value)

/-- The days from which values hold in a range, with the values. -/
def boundaries (rangeStart : Date) (cursor : Cursor) :
    List (Date × String) → List (Date × String)
  | [] => (cursor.start? rangeStart).toList
  | (date, value) :: rest =>
    let (next, ended) := cursor.step rangeStart date value
    ended.toList ++ boundaries rangeStart next rest

/-- Segments that start on the given dates; each ends the day before the next, the last today. -/
def closeSegments (today : Date) : List (Date × String) → List Segment
  | [] => []
  | [(first, value)] => [⟨first, today, value⟩]
  | (first, value) :: (next, value') :: rest =>
    ⟨first, next.pred?.getD today, value⟩ :: closeSegments today ((next, value') :: rest)

/-- The segments of an issue between two dates. -/
def segments (c : Classification) (rangeStart today : Date) (h : ResolvedHistory) :
    List Segment :=
  if today < rangeStart then []
  else
    closeSegments today (boundaries rangeStart .unstarted (valuesUntil c h today))

end IssueFlow.Flow
