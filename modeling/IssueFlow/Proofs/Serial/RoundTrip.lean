import IssueFlow.Proofs.Calendar.Relaxed
import IssueFlow.Proofs.Serial.Data
import IssueFlow.Serial.Result
import IssueFlow.Serial.Rules

/-!
# Serialised records

Each kind of record is read back as it was written, so what is read in any accepted form is written
in a form that stays (`RoundTrips`, `serialised_roundTrips`). The readers of dates and instants are
relaxed: they take more texts than are written, among them several for one date or instant.
-/

/-! ## Round trips -/

namespace IssueFlow.Serial

variable {α : Type} {write : α → Data} {read : Data → Option α}

/-- What is written is read back, and what is read in any form is written in a form that reading and
writing leave as it is. -/
structure RoundTrips (write : α → Data) (read : Data → Option α) : Prop where
  read_write (a : α) : read (write a) = some a
  stable (d : Data) (a : α) : read d = some a → (read (write a)).map write = some (write a)

theorem RoundTrips.of_read_write (h : ∀ a, read (write a) = some a) : RoundTrips write read where
  read_write := h
  stable _ a _ := by rw [h a, Option.map_some]

end IssueFlow.Serial

/-! ## Instants and windows -/

namespace IssueFlow.Calendar

open IssueFlow.Serial

@[simp] theorem Instant.ofData?_toData (t : Instant) : ofData? t.toData = some t := by
  rw [ofData?, toData, Data.text?_text, Option.bind_some, ofText?_text]

@[simp] theorem Window.ofData?_toData (w : Window) : ofData? w.toData = some w := by
  simp [ofData?, toData, Fields.required_cons]

end IssueFlow.Calendar

/-! ## Records of a tracker -/

namespace IssueFlow.Tracker

open IssueFlow.Calendar IssueFlow.Serial IssueFlow.Serial.Fields

@[simp] theorem IssueRef.ofData?_toData (r : IssueRef) : ofData? r.toData = some r := by
  simp [ofData?, toData, required_cons]

@[simp] theorem StatusChange.ofData?_toData (e : StatusChange) : ofData? e.toData = some e := by
  simp [ofData?, toData, required_cons, orElse_cons]

@[simp] theorem IssueHistory.ofData?_toData (h : IssueHistory) : ofData? h.toData = some h := by
  have hlog : (Data.ofList StatusChange.toData h.log).list? StatusChange.ofData? = some h.log :=
    Data.list?_ofList fun e _ => e.ofData?_toData
  simp [ofData?, toData, required_cons, orElse_cons, nullable_cons, hlog]

@[simp] theorem Event.ofData?_toData (e : Event) : ofData? e.toData = some e := by
  simp [ofData?, toData, required_cons]

@[simp] theorem ResolvedHistory.ofData?_toData (h : ResolvedHistory) :
    ofData? h.toData = some h := by
  have hevents : (Data.ofList Event.toData h.events).list? Event.ofData? = some h.events :=
    Data.list?_ofList fun e _ => e.ofData?_toData
  simp [ofData?, toData, required_cons, nullable_cons, hevents]

@[simp] theorem Defect.ofData?_toData (d : Defect) : ofData? d.toData = some d := by
  simp [ofData?, toData, required_cons, orElse_cons, nullable_cons]

@[simp] theorem SprintSelection.ofData?_toData (s : SprintSelection) :
    ofData? s.toData = some s := by
  simp [ofData?, toData, required_cons, orElse_cons]

end IssueFlow.Tracker

/-! ## Classifications and rules -/

namespace IssueFlow.Rules

open IssueFlow.Serial IssueFlow.Serial.Fields

variable (surplus : Surplus)

@[simp] theorem RejectionRule.ofData?_toData (r : RejectionRule) :
    ofData? surplus r.toData = some r := by
  simp [ofData?, toData, required_cons, orElse_cons]

@[simp] theorem map?_ofMap_ofWord (m : Std.ExtTreeMap String UInt32) :
    (Data.ofMap .ofWord m).map? Data.word? = some m :=
  Data.map?_ofMap fun entry _ => Data.word?_ofWord entry.2

@[simp] theorem map?_ofMap_ofTexts (m : Std.ExtTreeMap String TextSet) :
    (Data.ofMap .ofTexts m).map? Data.texts? = some m :=
  Data.map?_ofMap fun entry _ => Data.texts?_ofTexts entry.2

@[simp] theorem DefectRules.ofData?_toData (r : DefectRules) :
    ofData? surplus r.toData = some r := by
  have hrejection : (Data.ofOption RejectionRule.toData r.rejection).optional?
      (RejectionRule.ofData? surplus) = some r.rejection :=
    Data.optional?_ofOption (fun _ => by simp [RejectionRule.toData])
      fun rule _ => rule.ofData?_toData surplus
  simp [ofData?, toData, orElse_cons, nullable_cons, hrejection]

@[simp] theorem Classification.ofData?_toData (c : Classification) :
    ofData? surplus c.toData = some c := by
  simp [ofData?, toData, orElse_cons, nullable_cons]

@[simp] theorem ClassificationSet.ofData?_toData (s : ClassificationSet) :
    ofData? surplus s.toData = some s := by
  have hprojects : (Data.ofMap Classification.toData s.projects).map?
      (Classification.ofData? surplus) = some s.projects :=
    Data.map?_ofMap fun entry _ => entry.2.ofData?_toData surplus
  simp [ofData?, toData, orElse_cons, hprojects]

@[simp] theorem FilterRules.ofData?_toData (r : FilterRules) : ofData? r.toData = some r := by
  have hrules : (Data.ofMap RejectionRule.toData r.rejectionRules).map?
      (RejectionRule.ofData? .refused) = some r.rejectionRules :=
    Data.map?_ofMap fun entry _ => entry.2.ofData?_toData .refused
  have htolerance : (Data.ofMap (.ofMap .ofWord) r.priorityTolerance).map?
      (Data.map? Data.word?) = some r.priorityTolerance :=
    Data.map?_ofMap fun entry _ => map?_ofMap_ofWord entry.2
  simp [ofData?, toData, orElse_cons, hrules, htolerance]

end IssueFlow.Rules

/-! ## Results -/

namespace IssueFlow.Batch

open IssueFlow.Tracker IssueFlow.Serial IssueFlow.Serial.Fields

@[simp] theorem ErrorCode.ofData?_toData (c : ErrorCode) : ofData? c.toData = some c :=
  c.ofName?_name

@[simp] theorem Scope.ofData?_toData (s : Scope) : ofData? s.toData = some s := by
  cases s with
  | issue r => simp [ofData?, toData, ofKind?, required_cons]
  | project key => simp [ofData?, toData, ofKind?, required_cons]

@[simp] theorem Diagnostic.ofData?_toData (d : Diagnostic) : ofData? d.toData = some d := by
  simp [ofData?, toData, required_cons]

end IssueFlow.Batch

namespace IssueFlow.Flow

open IssueFlow.Calendar IssueFlow.Serial

@[simp] theorem FlowIndex.ofData?_toData (x : FlowIndex) : ofData? x.toData = some x := by
  have hcolumn (column : DateColumn) :
      (Data.ofMapBy Date.text .ofTexts column).mapBy? Date.ofText? Data.texts? = some column :=
    Data.mapBy?_ofMapBy Date.ofText?_text fun entry _ => Data.texts?_ofTexts entry.2
  rw [ofData?, toData, Data.map?_ofMap fun entry _ => hcolumn entry.2, Option.map_some]

end IssueFlow.Flow

namespace IssueFlow.Delivery

open IssueFlow.Calendar IssueFlow.Serial

@[simp] theorem CompletionCycles.ofData?_toData (c : CompletionCycles) :
    ofData? c.toData = some c := by
  have hread : (Data.ofMap (.ofMap (.ofList Instant.toData)) c.byProject).map?
      (Data.map? (Data.list? Instant.ofData?)) = some c.byProject := by
    refine Data.map?_ofMap fun project _ => Data.map?_ofMap fun entry _ => ?_
    exact Data.list?_ofList fun t _ => t.ofData?_toData
  rw [ofData?, toData, hread, Option.map_some]

end IssueFlow.Delivery

/-! ## All records -/

namespace IssueFlow.Serial

open IssueFlow.Calendar IssueFlow.Tracker IssueFlow.Rules IssueFlow.Batch IssueFlow.Flow
  IssueFlow.Delivery

theorem serialised_roundTrips :
    RoundTrips IssueRef.toData IssueRef.ofData? ∧
      RoundTrips StatusChange.toData StatusChange.ofData? ∧
      RoundTrips IssueHistory.toData IssueHistory.ofData? ∧
      RoundTrips ResolvedHistory.toData ResolvedHistory.ofData? ∧
      RoundTrips Defect.toData Defect.ofData? ∧
      (∀ surplus, RoundTrips RejectionRule.toData (RejectionRule.ofData? surplus)) ∧
      (∀ surplus, RoundTrips Classification.toData (Classification.ofData? surplus)) ∧
      (∀ surplus, RoundTrips ClassificationSet.toData (ClassificationSet.ofData? surplus)) ∧
      RoundTrips FilterRules.toData FilterRules.ofData? ∧
      RoundTrips SprintSelection.toData SprintSelection.ofData? ∧
      RoundTrips CompletionCycles.toData CompletionCycles.ofData? ∧
      RoundTrips FlowIndex.toData FlowIndex.ofData? ∧
      RoundTrips Window.toData Window.ofData? ∧
      RoundTrips Diagnostic.toData Diagnostic.ofData? := by
  refine ⟨?_, ?_, ?_, ?_, ?_, ?_, ?_, ?_, ?_, ?_, ?_, ?_, ?_, ?_⟩
  · exact .of_read_write IssueRef.ofData?_toData
  · exact .of_read_write StatusChange.ofData?_toData
  · exact .of_read_write IssueHistory.ofData?_toData
  · exact .of_read_write ResolvedHistory.ofData?_toData
  · exact .of_read_write Defect.ofData?_toData
  · exact fun surplus => .of_read_write (RejectionRule.ofData?_toData surplus)
  · exact fun surplus => .of_read_write (Classification.ofData?_toData surplus)
  · exact fun surplus => .of_read_write (ClassificationSet.ofData?_toData surplus)
  · exact .of_read_write FilterRules.ofData?_toData
  · exact .of_read_write SprintSelection.ofData?_toData
  · exact .of_read_write CompletionCycles.ofData?_toData
  · exact .of_read_write FlowIndex.ofData?_toData
  · exact .of_read_write Window.ofData?_toData
  · exact .of_read_write Diagnostic.ofData?_toData

/-- A window from elsewhere: the ends the other way round, on clocks ahead of UTC, in two forms that
are not written. -/
def foreignWindow : Data :=
  .record [("end", .text " 2017-1-1 5:30:00.0 +0530 "), ("note", .null),
    ("start", .text "2017-01-01t05:29:60.0500+05:30")]

/-- The window in UTC: from the leap second at the end of 2016 to midnight. -/
def intoNewYear : Window := ⟨.leapOf2016, .startOf ⟨17167, by decide, by decide⟩⟩

/-- A classification with a repeated member, and the other fields missing. -/
def sparseClassification : Data := .record [("closed", .list [.text "Done", .text "Done"])]

/-- One date as a key in two forms that are not written, both before the year 0. -/
def foreignIndex : Data :=
  .record [("Open", .record [("-1-12-31", .list [.text "A/T-1"]),
    (" -0001 - 12 - 31", .list [.text "A/T-2"])])]

/-- A placement on the last day before the year 0. -/
def beforeYearZero : FlowIndex :=
  FlowIndex.insert {} "Open" ⟨-719529, by decide, by decide⟩ "A/T-2"

/-- Of the two forms of one key the last one stays. -/
theorem serialised_roundTrips_foreign :
    (Window.ofData? foreignWindow = some intoNewYear ∧
      intoNewYear.start.text = "2016-12-31T23:59:60.050Z" ∧
      (Window.ofData? intoNewYear.toData).map Window.toData = some intoNewYear.toData) ∧
    (∃ c, Classification.ofData? .refused sparseClassification = some c ∧
      c.closed.toList = ["Done"] ∧
      (Classification.ofData? .refused c.toData).map Classification.toData = some c.toData) ∧
    FlowIndex.ofData? foreignIndex = some beforeYearZero ∧
      (FlowIndex.ofData? beforeYearZero.toData).map FlowIndex.toData =
        some beforeYearZero.toData := by
  obtain ⟨-, -, -, -, -, -, hclassification, -, -, -, -, hindex, hwindow, -⟩ :=
    serialised_roundTrips
  have hread : Window.ofData? foreignWindow = some intoNewYear := by decide +kernel
  have hsparse : Classification.ofData? .refused sparseClassification =
      some { closed := .ofList ["Done"] } := by
    decide +kernel
  have hforeign : FlowIndex.ofData? foreignIndex = some beforeYearZero := by decide +kernel
  refine ⟨⟨hread, by decide +kernel, ?_⟩, ⟨_, hsparse, by decide +kernel, ?_⟩, hforeign, ?_⟩
  · exact hwindow.stable _ _ hread
  · exact (hclassification .refused).stable _ _ hsparse
  · exact hindex.stable _ _ hforeign

end IssueFlow.Serial
