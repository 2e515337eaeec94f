import IssueFlow.Delivery.Cycle
import IssueFlow.Flow.Timeline
import IssueFlow.Proofs.Calendar.Instant
import IssueFlow.Proofs.Text.Trim
import IssueFlow.Quality.Reopen

/-!
# How the components read a status

The replay puts an issue under the normalized status of an event. The scan for reopens and the cut
of cycles match the raw status instead. For a status that is not blank this makes no difference:
they compare trimmed text, and what they make of a log without blank statuses is what they make of
it with every status normalized.

A blank status is the open default to the replay and no value at all to the others. All components
read it the same way just if the classification tells neither from the other (`BlanksAgree`). So
under a valid classification they read every status the same way, but for the blank ones where it
does not (`readAlike_iff`).
-/

namespace IssueFlow.Rules

open IssueFlow.Text IssueFlow.Calendar IssueFlow.Tracker IssueFlow.Quality IssueFlow.Delivery

/-! ## Normalized statuses -/

theorem TextSet.holds_congr {s : TextSet} {a b : String} (h : foldKey a = foldKey b) :
    s.holds a = s.holds b := by
  simp only [holds, containsValue, sameValue, h]

namespace Classification

variable {c : Classification} {a b status : String}

theorem isClosed_congr (h : foldKey a = foldKey b) : c.isClosed a = c.isClosed b :=
  TextSet.holds_congr h

theorem isCompletion_congr (h : foldKey a = foldKey b) : c.isCompletion a = c.isCompletion b := by
  rw [isCompletion, isCompletion, isClosed_congr h, TextSet.holds_congr h]

theorem isReopen_congr (h : foldKey a = foldKey b) : c.isReopen a = c.isReopen b := by
  simp only [isReopen, sameValue, h]

theorem normalize_of_allBlank (h : AllBlank status) : c.normalize status = c.openDefault := by
  rw [normalize, trimChars_toList_eq_nil_iff.2 h]
  rfl

theorem normalize_of_not_allBlank (h : ¬ AllBlank status) : c.normalize status = trim status := by
  rw [← trimChars_toList_eq_nil_iff] at h
  exact if_neg (by rwa [List.isEmpty_iff])

theorem foldKey_normalize (h : ¬ AllBlank status) :
    foldKey (c.normalize status) = foldKey status := by
  rw [normalize_of_not_allBlank h, foldKey_trim]

theorem lowerKey_normalize (h : ¬ AllBlank status) :
    lowerKey (c.normalize status) = lowerKey status := by
  rw [normalize_of_not_allBlank h, lowerKey, lowerKey, trim_trim]

theorem validate_eq_ok_iff : c.validate = .ok () ↔
    ¬ AllBlank c.openDefault ∧ c.isClosed c.openDefault = false := by
  unfold validate
  simp only [List.isEmpty_iff, trimChars_toList_eq_nil_iff]
  rw [← isClosed]
  split
  · next h => simp [h]
  · next h => cases c.isClosed c.openDefault <;> simp [h]

end Classification

/-! ## Readings -/

/-- What the scan for reopens looks for in a project, if it has a reopen status. -/
def Classification.reopenQuery? (c : Classification) (window : Window) : Option ReopenQuery :=
  c.reopen.map fun reopen => ⟨window, c.closed, reopen⟩

theorem detectIssue_of_resolve {s : ClassificationSet} {c : Classification} {window : Window}
    {raw : IssueHistory} {h : ResolvedHistory} (hs : s.get? raw.issue.project = some c)
    (hraw : raw.resolve = .ok h) : detectIssue s window raw =
      .ok (((c.reopenQuery? window).map fun q => detectReopens q h).getD []) := by
  unfold detectIssue Classification.reopenQuery?
  simp only [hs, hraw]
  cases c.reopen <;> rfl

/-- The scan for reopens takes the status as an entry into a closed value or as a reopen, and the
cut of cycles takes it as a completion, just if the value of the replay is one. -/
structure ReadAlike (c : Classification) (window : Window) (status : String) : Prop where
  closure : ∀ q, c.reopenQuery? window = some q →
    (q.closedValue? status ≠ none ↔ c.isClosed (c.normalize status) = true)
  reopen : ∀ q, c.reopenQuery? window = some q →
    (q.closedValue? status = none ∧ sameValue status q.reopen = true ↔
      c.isClosed (c.normalize status) = false ∧ c.isReopen (c.normalize status) = true)
  completion : c.isCompletion status = c.isCompletion (c.normalize status)

/-- The classification makes the same of a blank status and of the open default: neither is a
reopen, the blank one is not closed where reopens are looked for, and if one is a completion both
are. -/
structure BlanksAgree (c : Classification) : Prop where
  closed : c.reopen ≠ none → c.isClosed "" = false
  blankReopen : c.isReopen "" = false
  openReopen : c.isReopen c.openDefault = false
  completion : c.isCompletion "" = c.isCompletion c.openDefault

section

variable {c : Classification} {q : ReopenQuery} {window : Window} {status : String}

theorem exists_reopenQuery? (h : c.reopen ≠ none) : ∃ q, c.reopenQuery? window = some q := by
  obtain ⟨reopen, hreopen⟩ := Option.ne_none_iff_exists'.1 h
  exact ⟨_, congrArg (Option.map _) hreopen⟩

theorem ne_none_of_reopenQuery? (hq : c.reopenQuery? window = some q) : c.reopen ≠ none := by
  obtain ⟨reopen, hreopen, -⟩ := Option.map_eq_some_iff.1 hq
  exact Option.ne_none_iff_exists'.2 ⟨reopen, hreopen⟩

theorem closedValue?_eq_none_iff (hq : c.reopenQuery? window = some q) :
    q.closedValue? status = none ↔ c.isClosed status = false := by
  obtain ⟨reopen, -, rfl⟩ := Option.map_eq_some_iff.1 hq
  simp [ReopenQuery.closedValue?, Classification.isClosed, TextSet.holds, containsValue]

theorem closedValue?_ne_none_iff (hq : c.reopenQuery? window = some q) :
    q.closedValue? status ≠ none ↔ c.isClosed status = true := by
  rw [Ne, closedValue?_eq_none_iff hq, Bool.not_eq_false]

theorem sameValue_reopen (hq : c.reopenQuery? window = some q) :
    sameValue status q.reopen = c.isReopen status := by
  obtain ⟨reopen, hreopen, rfl⟩ := Option.map_eq_some_iff.1 hq
  rw [Classification.isReopen, hreopen, Option.any_some, sameValue_comm]

theorem readAlike_of_not_allBlank (h : ¬ AllBlank status) : ReadAlike c window status := by
  have hkey : foldKey (c.normalize status) = foldKey status := c.foldKey_normalize h
  refine ⟨fun q hq => ?_, fun q hq => ?_, ?_⟩
  · rw [closedValue?_ne_none_iff hq, c.isClosed_congr hkey]
  · rw [closedValue?_eq_none_iff hq, sameValue_reopen hq, c.isClosed_congr hkey,
      c.isReopen_congr hkey]
  · exact c.isCompletion_congr hkey.symm

/-- No reopen status is both blank and the open default. -/
theorem isReopen_openDefault_of_blank (hopen : ¬ AllBlank c.openDefault)
    (h : c.isReopen "" = true) : c.isReopen c.openDefault = false := by
  unfold Classification.isReopen at *
  cases hreopen : c.reopen with
  | none => rfl
  | some reopen =>
    rw [hreopen, Option.any_some, sameValue_iff] at h
    rw [Option.any_some, Bool.eq_false_iff, Ne, sameValue_iff, h]
    exact fun hdefault => hopen (foldKey_eq_nil_iff.1 hdefault.symm)

theorem isReopen_of_reopen_eq_none (h : c.reopen = none) : c.isReopen status = false := by
  rw [Classification.isReopen, h, Option.any_none]

theorem BlanksAgree.readAlike (hagree : BlanksAgree c) (hvalid : c.validate = .ok ())
    (h : AllBlank status) : ReadAlike c window status := by
  obtain ⟨-, hclosed⟩ := Classification.validate_eq_ok_iff.1 hvalid
  have hkey : foldKey status = foldKey "" := foldKey_eq_nil_iff.2 h
  have hnormal : c.normalize status = c.openDefault := c.normalize_of_allBlank h
  refine ⟨fun q hq => ?_, fun q hq => ?_, ?_⟩
  · rw [closedValue?_ne_none_iff hq, hnormal, hclosed, c.isClosed_congr hkey,
      hagree.closed (ne_none_of_reopenQuery? hq)]
  · rw [closedValue?_eq_none_iff hq, sameValue_reopen hq, hnormal, c.isReopen_congr hkey,
      hagree.blankReopen, hagree.openReopen]
    simp
  · rw [hnormal, c.isCompletion_congr hkey]
    exact hagree.completion

theorem ReadAlike.blanksAgree (halike : ReadAlike c window status) (hvalid : c.validate = .ok ())
    (h : AllBlank status) : BlanksAgree c := by
  obtain ⟨hopen, hclosed⟩ := Classification.validate_eq_ok_iff.1 hvalid
  have hkey : foldKey status = foldKey "" := foldKey_eq_nil_iff.2 h
  have hnormal : c.normalize status = c.openDefault := c.normalize_of_allBlank h
  have hcompletion := halike.completion
  rw [hnormal, c.isCompletion_congr hkey] at hcompletion
  by_cases hreopen : c.reopen = none
  · exact ⟨fun hne => absurd hreopen hne, isReopen_of_reopen_eq_none hreopen,
      isReopen_of_reopen_eq_none hreopen, hcompletion⟩
  · obtain ⟨q, hq⟩ := @exists_reopenQuery? c window hreopen
    have hclosure := halike.closure q hq
    rw [closedValue?_ne_none_iff hq, hnormal, hclosed, c.isClosed_congr hkey] at hclosure
    have hblank : c.isClosed "" = false :=
      Bool.eq_false_iff.2 fun h => Bool.false_ne_true (hclosure.1 h)
    -- Neither value is closed, so the readings agree only if both are reopens or neither is.
    have hopens := halike.reopen q hq
    rw [closedValue?_eq_none_iff hq, sameValue_reopen hq, hnormal, hclosed,
      c.isClosed_congr hkey, c.isReopen_congr hkey, hblank] at hopens
    simp only [true_and] at hopens
    have hblankReopen : c.isReopen "" = false := by
      rw [Bool.eq_false_iff]
      intro h
      have hdefault := isReopen_openDefault_of_blank hopen h
      rw [hopens.1 h] at hdefault
      cases hdefault
    rw [hblankReopen] at hopens
    have hopenReopen : c.isReopen c.openDefault = false :=
      Bool.eq_false_iff.2 fun h => Bool.false_ne_true (hopens.2 h)
    exact ⟨fun _ => hblank, hblankReopen, hopenReopen, hcompletion⟩

end

end IssueFlow.Rules

/-! ## Logs without blank statuses -/

namespace IssueFlow.Quality

open IssueFlow.Tracker

variable {q : ReopenQuery} {issue : IssueRef} {f : Event → Event} {events : List Event}

/-- The scan looks at the time of an event, its closed value and whether it is the reopen value. -/
theorem scanReopens_map (entered : Std.ExtTreeMap String Calendar.Instant)
    (h : ∀ e ∈ events, (f e).time = e.time ∧ q.closedValue? (f e).new = q.closedValue? e.new ∧
      q.isReopen (f e) = q.isReopen e) :
    scanReopens issue q entered (events.map f) = scanReopens issue q entered events := by
  induction events generalizing entered with
  | nil => rfl
  | cons e events ih =>
    obtain ⟨⟨htime, hclosed, hreopen⟩, hrest⟩ := List.forall_mem_cons.1 h
    rw [List.map_cons, scanReopens, scanReopens, htime, hclosed, hreopen]
    simp only [transition?, htime, fun entered => ih entered hrest]

end IssueFlow.Quality

namespace IssueFlow.Delivery

open IssueFlow.Tracker IssueFlow.Text

variable {f : Event → Event} {events : List Event}

/-- The cut of cycles looks at the time of an event and the lower-case key of its status. -/
theorem cutCycles_map (open_ : Std.ExtTreeMap String Calendar.Instant)
    (h : ∀ e ∈ events, (f e).time = e.time ∧ lowerKey (f e).new = lowerKey e.new) :
    cutCycles open_ (events.map f) = cutCycles open_ events := by
  induction events generalizing open_ with
  | nil => rfl
  | cons e events ih =>
    obtain ⟨⟨htime, hkey⟩, hrest⟩ := List.forall_mem_cons.1 h
    rw [List.map_cons, cutCycles, cutCycles]
    simp only [htime, hkey, fun open_ => ih open_ hrest]

end IssueFlow.Delivery

namespace IssueFlow.Rules

open IssueFlow.Text IssueFlow.Calendar IssueFlow.Tracker IssueFlow.Quality IssueFlow.Delivery

/-- The history with every status of its log as the replay reads it. -/
def Classification.readLog (c : Classification) (h : ResolvedHistory) : ResolvedHistory :=
  { h with events := h.events.map fun e => { e with new := c.normalize e.new } }

section

variable {c : Classification} {q : ReopenQuery} {window : Window} {h : ResolvedHistory}

theorem detectReopens_readLog (hblank : ∀ e ∈ h.events, ¬ AllBlank e.new) :
    detectReopens q (c.readLog h) = detectReopens q h := by
  apply scanReopens_map
  intro e he
  have hkey := c.foldKey_normalize (hblank e he)
  refine ⟨rfl, ?_, ?_⟩
  · simp only [ReopenQuery.closedValue?, sameValue, hkey]
  · simp only [ReopenQuery.isReopen, sameValue, hkey]

theorem cycleMinimums_readLog (hblank : ∀ e ∈ h.events, ¬ AllBlank e.new) :
    cycleMinimums c (c.readLog h) = cycleMinimums c h := by
  have hcompletions : (c.readLog h).events.filter (fun e => c.isCompletion e.new) =
      (h.events.filter fun e => c.isCompletion e.new).map
        fun e => { e with new := c.normalize e.new } := by
    rw [Classification.readLog, List.filter_map]
    refine congrArg (List.map _) (List.filter_congr fun e he => ?_)
    show c.isCompletion (c.normalize e.new) = c.isCompletion e.new
    exact c.isCompletion_congr (c.foldKey_normalize (hblank e he))
  unfold cycleMinimums
  rw [hcompletions]
  apply cutCycles_map
  intro e he
  exact ⟨rfl, c.lowerKey_normalize (hblank e (List.mem_filter.1 he).1)⟩

end

theorem readAlike_iff {c : Classification} (hvalid : c.validate = .ok ()) (window : Window) :
    (∀ status, ReadAlike c window status ↔ (AllBlank status → BlanksAgree c)) ∧
    ∀ (s : ClassificationSet) (raw : IssueHistory) (h : ResolvedHistory),
      s.get? raw.issue.project = some c → raw.resolve = .ok h →
      (∀ e ∈ h.events, ¬ AllBlank e.new) →
      detectIssue s window raw =
          .ok (((c.reopenQuery? window).map fun q => detectReopens q (c.readLog h)).getD []) ∧
        cycleMinimums c h = cycleMinimums c (c.readLog h) := by
  refine ⟨fun status => ?_, fun s raw h hs hraw hblank => ⟨?_, ?_⟩⟩
  · by_cases h : AllBlank status
    · exact ⟨fun halike _ => halike.blanksAgree hvalid h,
        fun hagree => (hagree h).readAlike hvalid h⟩
    · exact ⟨fun _ h' => absurd h' h, fun _ => readAlike_of_not_allBlank h⟩
  · rw [detectIssue_of_resolve hs hraw]
    simp only [detectReopens_readLog hblank]
  · exact (cycleMinimums_readLog hblank).symm

/-- A project whose issues are reopened by the entry into the open default. -/
def opensAgain : Classification where
  closed := .ofList ["Closed"]
  reopen := some "Open"

def opensAgainSet : ClassificationSet := ClassificationSet.insert {} "A" opensAgain

def wholeMonth : Window := ⟨midnight 1, midnight 31⟩

/-- A defect that is closed and then enters the status. -/
def closedThen (status : String) : IssueHistory where
  issue := ⟨"D-1", "A"⟩
  created := "2024-01-01"
  log := [⟨"Open", "Closed", "2024-01-02"⟩, ⟨"Closed", status, "2024-01-03"⟩]

def closedThenResolved (status : String) : ResolvedHistory where
  issue := ⟨"D-1", "A"⟩
  events := [⟨"Open", "Closed", midnight 2⟩, ⟨"Closed", status, midnight 3⟩]
  created := midnight 1
  priority := none
  rootCauses := []

theorem readAlike_iff_padded :
    opensAgain.validate = .ok () ∧
      (∀ status, ReadAlike opensAgain wholeMonth status ↔
        (AllBlank status → BlanksAgree opensAgain)) ∧
      (closedThen " open ").resolve = .ok (closedThenResolved " open ") ∧
      (∀ e ∈ (closedThenResolved " open ").events, ¬ AllBlank e.new) ∧
      opensAgain.readLog (closedThenResolved " open ") = closedThenResolved "open" ∧
      detectIssue opensAgainSet wholeMonth (closedThen " open ") =
        .ok (detectReopens ⟨wholeMonth, opensAgain.closed, "Open"⟩ (closedThenResolved "open")) ∧
      cycleMinimums opensAgain (closedThenResolved " open ") =
        cycleMinimums opensAgain (closedThenResolved "open") := by
  have hvalid : opensAgain.validate = .ok () := by decide +kernel
  have hresolve : (closedThen " open ").resolve = .ok (closedThenResolved " open ") := by
    decide +kernel
  have hblank : ∀ e ∈ (closedThenResolved " open ").events, ¬ AllBlank e.new := by decide +kernel
  have hread : opensAgain.readLog (closedThenResolved " open ") = closedThenResolved "open" := by
    decide +kernel
  have hs : opensAgainSet.get? (closedThen " open ").issue.project = some opensAgain := by
    decide +kernel
  obtain ⟨halike, hlog⟩ := readAlike_iff hvalid wholeMonth
  obtain ⟨hreopens, hcycles⟩ := hlog opensAgainSet _ _ hs hresolve hblank
  rw [hread] at hreopens hcycles
  exact ⟨hvalid, halike, hresolve, hblank, hread, hreopens, hcycles⟩

/-- A blank status is a reopen to the replay, which puts the issue back under the open default, but
not to the scan for reopens. -/
theorem not_readAlike_blank :
    opensAgain.validate = .ok () ∧ opensAgain.normalize "" = "Open" ∧
      opensAgain.isClosed "Open" = false ∧ opensAgain.isReopen "Open" = true ∧
      ¬ ReadAlike opensAgain wholeMonth "" ∧
      (closedThen "").resolve = .ok (closedThenResolved "") ∧
      (Flow.segments opensAgain (midnight 1).date (midnight 3).date
          (closedThenResolved "")).map Flow.Segment.value = ["Closed", "Open"] ∧
      (detectAll opensAgainSet wholeMonth {} [closedThen ""]).transitions.length = 0 ∧
      (detectAll opensAgainSet wholeMonth {} [closedThen "Open"]).transitions.map
        ReopenTransition.reopenedAt = [midnight 3] := by
  have hvalid : opensAgain.validate = .ok () := by decide +kernel
  refine ⟨hvalid, by decide +kernel, by decide +kernel, by decide +kernel, fun halike => ?_,
    by decide +kernel, by decide +kernel, by decide +kernel, by decide +kernel⟩
  have hagree := halike.blanksAgree hvalid (by decide)
  have hreopen : opensAgain.isReopen opensAgain.openDefault = true := by decide +kernel
  rw [hagree.openReopen] at hreopen
  cases hreopen

end IssueFlow.Rules
