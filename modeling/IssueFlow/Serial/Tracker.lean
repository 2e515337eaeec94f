import IssueFlow.Calendar.Layout
import IssueFlow.Serial.Data
import IssueFlow.Tracker.Defect
import IssueFlow.Tracker.Issue
import IssueFlow.Tracker.Sprint

/-!
# Serialised tracker records

Issues, histories, defects and sprint selections as data. Raw timestamps stay text; instants are
written in UTC and read with any offset.
-/

namespace IssueFlow.Calendar

open IssueFlow.Serial

def Instant.toData (t : Instant) : Data := .text t.text

def Instant.ofData? (d : Data) : Option Instant := d.text?.bind Instant.ofText?

def Window.toData (w : Window) : Data :=
  .record [("start", w.start.toData), ("end", w.stop.toData)]

def Window.ofData? (d : Data) : Option Window := do
  let fields ← d.fields? .refused ["start", "end"]
  return {
    start := ← fields.required "start" Instant.ofData?
    stop := ← fields.required "end" Instant.ofData? }

end IssueFlow.Calendar

namespace IssueFlow.Tracker

open IssueFlow.Calendar IssueFlow.Serial

def IssueRef.toData (r : IssueRef) : Data :=
  .record [("number", .text r.number), ("project", .text r.project)]

def IssueRef.ofData? (d : Data) : Option IssueRef := do
  let fields ← d.fields? .refused ["number", "project"]
  return {
    number := ← fields.required "number" Data.text?
    project := ← fields.required "project" Data.text? }

def StatusChange.toData (e : StatusChange) : Data :=
  .record [("from", .text e.old), ("to", .text e.new), ("timestamp", .text e.timestamp)]

def StatusChange.ofData? (d : Data) : Option StatusChange := do
  let fields ← d.fields? .refused ["from", "to", "timestamp"]
  return {
    old := ← fields.orElse "from" "" Data.text?
    new := ← fields.orElse "to" "" Data.text?
    timestamp := ← fields.required "timestamp" Data.text? }

def IssueHistory.toData (h : IssueHistory) : Data :=
  .record [("issue", h.issue.toData), ("log", .ofList StatusChange.toData h.log),
    ("created", .text h.created), ("priority", .ofOption .text h.priority),
    ("root_causes", .ofList .text h.rootCauses)]

def IssueHistory.ofData? (d : Data) : Option IssueHistory := do
  let fields ← d.fields? .refused ["issue", "log", "created", "priority", "root_causes"]
  return {
    issue := ← fields.required "issue" IssueRef.ofData?
    log := ← fields.orElse "log" [] (Data.list? StatusChange.ofData?)
    created := ← fields.required "created" Data.text?
    priority := ← fields.nullable "priority" Data.text?
    rootCauses := ← fields.orElse "root_causes" [] (Data.list? Data.text?) }

def Event.toData (e : Event) : Data :=
  .record [("from", .text e.old), ("to", .text e.new), ("at", e.time.toData)]

def Event.ofData? (d : Data) : Option Event := do
  let fields ← d.fields? .refused ["from", "to", "at"]
  return {
    old := ← fields.required "from" Data.text?
    new := ← fields.required "to" Data.text?
    time := ← fields.required "at" Instant.ofData? }

def ResolvedHistory.toData (h : ResolvedHistory) : Data :=
  .record [("issue", h.issue.toData), ("events", .ofList Event.toData h.events),
    ("created", h.created.toData), ("priority", .ofOption .text h.priority),
    ("root_causes", .ofList .text h.rootCauses)]

def ResolvedHistory.ofData? (d : Data) : Option ResolvedHistory := do
  let fields ← d.fields? .refused ["issue", "events", "created", "priority", "root_causes"]
  return {
    issue := ← fields.required "issue" IssueRef.ofData?
    events := ← fields.required "events" (Data.list? Event.ofData?)
    created := ← fields.required "created" Instant.ofData?
    priority := ← fields.nullable "priority" Data.text?
    rootCauses := ← fields.required "root_causes" (Data.list? Data.text?) }

def Defect.toData (d : Defect) : Data :=
  .record [("issue", d.issue.toData), ("priority", .ofOption .text d.priority),
    ("root_causes", .ofList .text d.rootCauses), ("status", .text d.status),
    ("resolution", .ofOption .text d.resolution),
    ("linked_stories", .ofList .text d.linkedStories)]

def Defect.ofData? (d : Data) : Option Defect := do
  let fields ← d.fields? .refused
    ["issue", "priority", "root_causes", "status", "resolution", "linked_stories"]
  return {
    issue := ← fields.required "issue" IssueRef.ofData?
    priority := ← fields.nullable "priority" Data.text?
    rootCauses := ← fields.orElse "root_causes" [] (Data.list? Data.text?)
    status := ← fields.orElse "status" "" Data.text?
    resolution := ← fields.nullable "resolution" Data.text?
    linkedStories := ← fields.orElse "linked_stories" [] (Data.list? Data.text?) }

def SprintSelection.toData (s : SprintSelection) : Data :=
  .record [("project", .text s.project), ("sprint", .text s.sprint),
    ("start", s.window.start.toData), ("end", s.window.stop.toData),
    ("issues", .ofList .text s.issues)]

def SprintSelection.ofData? (d : Data) : Option SprintSelection := do
  let fields ← d.fields? .refused ["project", "sprint", "start", "end", "issues"]
  return {
    project := ← fields.required "project" Data.text?
    sprint := ← fields.required "sprint" Data.text?
    window := {
      start := ← fields.required "start" Instant.ofData?
      stop := ← fields.required "end" Instant.ofData? }
    issues := ← fields.orElse "issues" [] (Data.list? Data.text?) }

end IssueFlow.Tracker
