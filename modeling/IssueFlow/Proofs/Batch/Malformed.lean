import IssueFlow.Proofs.Delivery.Accounting
import IssueFlow.Proofs.Flow.Failures
import IssueFlow.Quality.Reopen

/-!
# Unreadable timestamps

A record that does not resolve is reported by whatever reads it, once, and leaves no other trace
(`malformed_reported`). The search for reopens does not read the records of a project that names no
reopen status: there the record is passed over (`not_reported_of_no_reopen`).
-/

namespace IssueFlow.Batch

open IssueFlow.Calendar IssueFlow.Tracker IssueFlow.Rules IssueFlow.Quality IssueFlow.Delivery
  IssueFlow.Flow

/-- All that is reported on the issue, and on its project, is that a timestamp does not parse. -/
def ReportsMalformed (x : IssueRef) (e : ResolveError) (ds : List Diagnostic) : Prop :=
  ds.filter (Diagnostic.covers x) = [⟨.issue x, .malformedTimestamp, e.message⟩]

instance {x : IssueRef} {e : ResolveError} {ds : List Diagnostic} :
    Decidable (ReportsMalformed x e ds) :=
  inferInstanceAs (Decidable (_ = _))

section

variable {s : ClassificationSet} {c : Classification} {raw : IssueHistory} {e : ResolveError}

/-! ## Replay -/

section

variable {scope : Option (List Defect × FilterRules)} {issues : List IssueHistory}
  {request : ReplayRequest} {grouping : Grouping} {rangeStart today : Date}

theorem reportsMalformed_replay (hstart : request.rangeStart = some rangeStart)
    (htoday : request.today = some today) (ho : request.options = {})
    (he : FailsWith request.defectScope issues raw.issue e)
    (hc : s.get? raw.issue.project = some c) :
    ReportsMalformed raw.issue e (replay s request grouping issues).diagnostics := by
  rw [ReportsMalformed, ← List.perm_singleton,
    List.perm_ext_iff_of_nodup ((nodup_diagnostics ho).filter _) (List.nodup_singleton _)]
  intro d
  rw [List.mem_filter, List.mem_singleton, mem_diagnostics_replay_iff hstart htoday ho]
  constructor
  · rintro ⟨⟨issue, e', he', rfl⟩ | ⟨project, hproject, rfl⟩, hcovers⟩
    · have hissue : issue = raw.issue := by
        simpa [Diagnostic.covers, Diagnostic.malformed, he'.issue_eq] using hcovers
      subst hissue
      rw [he'.unique he, Diagnostic.malformed, he.issue_eq]
    · have hkey : project = raw.issue.project := by
        simpa [Diagnostic.covers, unclassified] using hcovers
      rw [hkey] at hproject
      exact absurd (hproject.1.symm.trans hc) (by simp)
  · rintro rfl
    refine ⟨.inl ⟨raw.issue, e, he, ?_⟩, decide_eq_true (.inl rfl)⟩
    rw [Diagnostic.malformed, he.issue_eq]

/-- A failed issue adds nothing to the index. -/
theorem index_replay_without (hstart : request.rangeStart = some rangeStart)
    (htoday : request.today = some today) (ho : request.options = {})
    (he : FailsWith request.defectScope issues raw.issue e) :
    (replay s request grouping (issues.filter fun x => x.issue ≠ raw.issue)).index =
      (replay s request grouping issues).index := by
  have hissue (x y : IssueHistory) (hxy : x.issue = y.issue) :
      decide (x.issue ≠ raw.issue) = decide (y.issue ≠ raw.issue) := by
    rw [hxy]
  rw [replay_eq_gather ho, replay_eq_gather ho, unitOutputs_eq_map hstart htoday,
    unitOutputs_eq_map hstart htoday, admitted_filter hissue]
  refine index_gather_filter fun x hx hok => decide_eq_true fun hsame => ?_
  -- The record of the issue that would be replayed is the one that does not resolve.
  have hfirst := (mem_admitted_iff.1 hx).2
  obtain ⟨-, first, hfound, hfail⟩ := he
  rw [hsame, hfound] at hfirst
  cases hfirst
  rw [hfail] at hok
  cases hok

end

/-! ## Reopens -/

/-- The units of a batch are searched for reopens one by one. -/
theorem detectAll_append (s : ClassificationSet) (window : Window) (xs ys : List IssueHistory) :
    detectAll s window {} (xs ++ ys) =
      ⟨(detectAll s window {} xs).transitions ++ (detectAll s window {} ys).transitions,
        (detectAll s window {} xs).diagnostics ++ (detectAll s window {} ys).diagnostics⟩ := by
  simp only [detectAll, zipWith_fanOut_unlimited, List.map_append, List.flatMap_append]

theorem detectAll_cons (s : ClassificationSet) (window : Window) (raw : IssueHistory)
    (ys : List IssueHistory) : detectAll s window {} (raw :: ys) =
      let first := reopenUnit raw (.ok (detectIssue s window raw))
      ⟨first.transitions ++ (detectAll s window {} ys).transitions,
        first.diagnostics ++ (detectAll s window {} ys).diagnostics⟩ := by
  simp only [detectAll, zipWith_fanOut_unlimited, List.map_cons, List.flatMap_cons]

theorem detectIssue_of_error {window : Window} (he : raw.resolve = .error e)
    (hc : s.get? raw.issue.project = some c) : detectIssue s window raw =
      if c.reopen = none then .ok []
      else .error ⟨.issue raw.issue, .malformedTimestamp, e.message⟩ := by
  have hissue := IssueHistory.issue_of_resolve_error he
  unfold detectIssue
  rw [hc]
  cases hreopen : c.reopen with
  | none => simp [hreopen]
  | some value => simp [hreopen, he, Diagnostic.malformed, hissue]

/-! ## Cycles -/

theorem reportsMalformed_resolveCycles {lookup : HistoryLookup} {duplicates : DuplicateSet}
    {x : IssueRef} (he : raw.resolve = .error e) (hx : Listed duplicates x)
    (hlookup : lookup x = some raw) (hc : s.get? x.project ≠ none) :
    (resolveCycles lookup s {} duplicates).cycles.get? x.project x.number = none ∧
      ReportsMalformed x e (resolveCycles lookup s {} duplicates).diagnostics := by
  have haccounts : Accounts lookup s x _ _ := accounts_of_listed hx
  unfold ReportsMalformed
  generalize (resolveCycles lookup s {} duplicates).cycles.get? x.project x.number = entry
    at haccounts ⊢
  generalize (resolveCycles lookup s {} duplicates).diagnostics.filter (Diagnostic.covers x) =
    reports at haccounts ⊢
  cases haccounts with
  | unclassified hnone => exact absurd hnone hc
  | missing c _ hnone =>
    rw [hlookup] at hnone
    cases hnone
  | malformed c raw' e' _ hsome hfail =>
    rw [hlookup] at hsome
    cases hsome
    rw [he] at hfail
    cases hfail
    exact ⟨rfl, rfl⟩
  | resolved c raw' h _ hsome hok =>
    rw [hlookup] at hsome
    cases hsome
    rw [he] at hok
    cases hok

end

/-! ## All batches -/

theorem malformed_reported (s : ClassificationSet) {raw : IssueHistory} {e : ResolveError}
    {c : Classification} (he : raw.resolve = .error e) (hc : s.get? raw.issue.project = some c) :
    (∀ rangeStart today scope cycles grouping issues, InScope scope raw.issue →
      issues.find? (fun x => x.issue = raw.issue) = some raw →
      let request : ReplayRequest :=
        { rangeStart := some rangeStart, today := some today, defectScope := scope, cycles }
      let out := replay s request grouping issues
      let others := issues.filter fun x => x.issue ≠ raw.issue
      out.index = (replay s request grouping others).index ∧
        ReportsMalformed raw.issue e out.diagnostics) ∧
    (∀ window before after,
      let out := detectAll s window {} (before ++ raw :: after)
      let first := detectAll s window {} before
      let last := detectAll s window {} after
      out.transitions = first.transitions ++ last.transitions ∧
        (c.reopen ≠ none → out.diagnostics = first.diagnostics ++
          ⟨.issue raw.issue, .malformedTimestamp, e.message⟩ :: last.diagnostics) ∧
        (c.reopen = none → out.diagnostics = first.diagnostics ++ last.diagnostics)) ∧
    ∀ lookup duplicates x, Listed duplicates x → lookup x = some raw → s.get? x.project ≠ none →
      let out := resolveCycles lookup s {} duplicates
      out.cycles.get? x.project x.number = none ∧ ReportsMalformed x e out.diagnostics := by
  refine ⟨?_, ?_, ?_⟩
  · intro rangeStart today scope cycles grouping issues hscope hfirst request
    have hfails : FailsWith request.defectScope issues raw.issue e := ⟨hscope, raw, hfirst, he⟩
    exact ⟨(index_replay_without rfl rfl rfl hfails).symm,
      reportsMalformed_replay rfl rfl rfl hfails hc⟩
  · intro window before after
    simp only [detectAll_append, detectAll_cons, detectIssue_of_error he hc]
    by_cases hreopen : c.reopen = none
    · simp [hreopen, reopenUnit]
    · simp [hreopen, reopenUnit]
  · intro lookup duplicates x hx hlookup hproject
    exact reportsMalformed_resolveCycles he hx hlookup hproject

/-- The project of the unreadable issue names a reopen status. -/
def namesReopen : ClassificationSet :=
  ClassificationSet.insert {} "B" { reopen := some "Reopened" }

/-- The unreadable issue is a duplicate. -/
def listsUnreadable : DuplicateSet := .ofList [("B", Std.ExtTreeSet.ofList ["T-1"])]

theorem malformed_reported_unreadable :
    ∃ e c, unreadable.resolve = .error e ∧ namesReopen.get? unreadable.issue.project = some c ∧
      c.reopen ≠ none ∧ e.message = "B/T-1: created: unrecognised timestamp 'yesterday'" ∧
      ReportsMalformed ⟨"T-1", "B"⟩ e
        (replay namesReopen twoDays .byStatus [inReview, unreadable, unreadableAgain]).diagnostics ∧
      (detectAll namesReopen ⟨midnight 1, midnight 31⟩ {} [inReview, unreadable]).diagnostics =
        (detectAll namesReopen ⟨midnight 1, midnight 31⟩ {} [inReview]).diagnostics ++
          [⟨.issue ⟨"T-1", "B"⟩, .malformedTimestamp, e.message⟩] ∧
      ReportsMalformed ⟨"T-1", "B"⟩ e (resolveCycles (lookupFirst [unreadable, unreadableAgain])
        namesReopen {} listsUnreadable).diagnostics := by
  have he : unreadable.resolve = .error ⟨⟨"T-1", "B"⟩, .created, .unrecognised "yesterday"⟩ := by
    decide +kernel
  have hc : namesReopen.get? unreadable.issue.project = some { reopen := some "Reopened" } := by
    decide +kernel
  have hlisted : Listed listsUnreadable ⟨"T-1", "B"⟩ := by
    unfold Listed
    decide +kernel
  have hreopen : ({ reopen := some "Reopened" } : Classification).reopen ≠ none := by decide
  obtain ⟨hreplay, hdetect, hcycles⟩ := malformed_reported namesReopen he hc
  refine ⟨_, _, he, hc, hreopen, by decide +kernel, ?_, ?_, ?_⟩
  · exact (hreplay (january 1) (january 2) none none .byStatus
      [inReview, unreadable, unreadableAgain] (by decide +kernel) (by decide +kernel)).2
  · exact (hdetect ⟨midnight 1, midnight 31⟩ [inReview] []).2.1 hreopen
  · exact (hcycles (lookupFirst [unreadable, unreadableAgain]) listsUnreadable ⟨"T-1", "B"⟩ hlisted
      (by decide +kernel) (by decide +kernel)).2

/-- Without a reopen status the record is not read, and without a range there is no replay. -/
theorem not_reported_of_no_reopen :
    unreadable.resolve.isOk = false ∧
      (ClassificationSet.insert {} "B" {}).get? unreadable.issue.project = some {} ∧
      (detectAll (ClassificationSet.insert {} "B" {}) ⟨midnight 1, midnight 31⟩ {}
        [unreadable]).diagnostics = [] ∧
      unreadable ∈ admitted none [unreadable] ∧
      (replay (ClassificationSet.insert {} "B" {}) {} .byStatus [unreadable]).diagnostics = [] := by
  decide +kernel

end IssueFlow.Batch
