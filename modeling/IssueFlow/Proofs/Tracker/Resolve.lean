import IssueFlow.Proofs.Order.Selection
import IssueFlow.Tracker.Issue
import Mathlib.Data.List.Forall2

/-!
# Resolved histories

A history resolves if its creation and every entry of its log can be read, and to one history only:
the events read from the log, sorted by time (`resolve_eq_ok_iff`). One more entry in the log leaves
the other events in their order (`resolve_insert`), and entries at the end that are no earlier than
the log come behind it (`resolve_append`).
-/

namespace IssueFlow.Tracker

open IssueFlow.Calendar IssueFlow.Order

/-- The event that a log entry stands for. -/
def StatusChange.Reads (entry : StatusChange) (e : Event) : Prop :=
  Instant.ofRaw entry.timestamp = .ok e.time ∧ e.old = entry.old ∧ e.new = entry.new

/-- The events come in the order of time. -/
def ResolvedHistory.Ascending (h : ResolvedHistory) : Prop :=
  h.events.Pairwise fun a b => a.time ≤ b.time

namespace IssueHistory

theorem eventsFrom_eq_ok_iff {index : Nat} {log : List StatusChange} {events : List Event} :
    eventsFrom index log = .ok events ↔ List.Forall₂ StatusChange.Reads log events := by
  induction log generalizing index events with
  | nil =>
    rw [eventsFrom, List.forall₂_nil_left_iff]
    exact ⟨fun h => (Except.ok.inj h).symm, fun h => by rw [h]⟩
  | cons entry log ih =>
    rw [eventsFrom, List.forall₂_cons_left_iff]
    cases ht : Instant.ofRaw entry.timestamp with
    | error cause =>
      constructor
      · intro h
        cases h
      · rintro ⟨e, -, he, -, -⟩
        rw [he.1] at ht
        cases ht
    | ok time =>
      simp only [← @ih (index + 1)]
      cases hlog : eventsFrom (index + 1) log with
      | error fault =>
        constructor
        · intro h
          cases h
        · rintro ⟨e, es, -, hes, -⟩
          cases hes
      | ok rest =>
        constructor
        · intro h
          cases h
          exact ⟨_, rest, ⟨ht, rfl, rfl⟩, rfl, rfl⟩
        · rintro ⟨⟨old, new, time'⟩, es, ⟨he, rfl, rfl⟩, hes, rfl⟩
          rw [ht] at he
          cases he
          cases hes
          rfl

theorem notLater_trans (a b c : Event) (hab : notLater a b = true) (hbc : notLater b c = true) :
    notLater a c = true := by
  simp only [notLater, decide_eq_true_eq, Instant.le_def] at *
  omega

theorem notLater_total (a b : Event) (h : notLater a b = false) : notLater b a = true := by
  simp only [notLater, decide_eq_true_eq, decide_eq_false_iff_not, Instant.le_def] at *
  omega

variable {raw : IssueHistory} {h : ResolvedHistory}

theorem resolve_eq_ok_iff : raw.resolve = .ok h ↔
    ∃ created events, Instant.ofRaw raw.created = .ok created ∧
      List.Forall₂ StatusChange.Reads raw.log events ∧
      h = ⟨raw.issue, sortBy notLater events, created, raw.priority, raw.rootCauses⟩ := by
  simp only [← @eventsFrom_eq_ok_iff 0]
  rw [resolve]
  cases Instant.ofRaw raw.created with
  | error cause => simp
  | ok created =>
    cases eventsFrom 0 raw.log with
    | error fault => simp
    | ok events => simp [eq_comm]

theorem issue_of_resolve (hr : raw.resolve = .ok h) : h.issue = raw.issue := by
  obtain ⟨created, events, -, -, rfl⟩ := resolve_eq_ok_iff.1 hr
  rfl

/-- A failure to resolve names the issue that it is about. -/
theorem issue_of_resolve_error {e : ResolveError} (hr : raw.resolve = .error e) :
    e.issue = raw.issue := by
  unfold resolve at hr
  split at hr
  · cases hr
    rfl
  · split at hr
    · cases hr
      rfl
    · cases hr

theorem ascending_of_resolve (hr : raw.resolve = .ok h) : h.Ascending := by
  obtain ⟨created, events, -, -, rfl⟩ := resolve_eq_ok_iff.1 hr
  exact (pairwise_sortBy notLater_trans notLater_total events).imp fun hab => of_decide_eq_true hab

/-- What is computed from a resolved history is known of one. -/
theorem exists_of_map_resolve {α : Type} {f : ResolvedHistory → α} {x : α}
    (hmap : raw.resolve.map f = .ok x) : ∃ h, raw.resolve = .ok h ∧ f h = x := by
  cases hr : raw.resolve with
  | error e =>
    rw [hr] at hmap
    cases hmap
  | ok h =>
    rw [hr] at hmap
    exact ⟨h, rfl, Except.ok.inj hmap⟩

theorem events_eq_nil_iff (hr : raw.resolve = .ok h) : h.events = [] ↔ raw.log = [] := by
  obtain ⟨created, events, -, hreads, rfl⟩ := resolve_eq_ok_iff.1 hr
  have hlength := hreads.length_eq.trans (sortBy_perm notLater events).length_eq.symm
  rw [← List.length_eq_zero_iff, ← List.length_eq_zero_iff, hlength]

/-- Every event is read from an entry of the log. -/
theorem exists_reads_of_mem_events (hr : raw.resolve = .ok h) {e : Event} (he : e ∈ h.events) :
    ∃ entry ∈ raw.log, entry.Reads e := by
  obtain ⟨created, events, -, hreads, rfl⟩ := resolve_eq_ok_iff.1 hr
  obtain ⟨i, hi, rfl⟩ := List.getElem_of_mem ((sortBy_perm notLater events).mem_iff.1 he)
  have hlog : i < raw.log.length := hreads.length_eq ▸ hi
  exact ⟨raw.log[i], List.getElem_mem hlog, hreads.get hlog hi⟩

/-! ## Growth -/

theorem reads_insert {pre post : List StatusChange} {entry : StatusChange} {e : Event}
    {events : List Event} (h : List.Forall₂ StatusChange.Reads (pre ++ post) events)
    (he : entry.Reads e) : ∃ a b, events = a ++ b ∧
      List.Forall₂ StatusChange.Reads (pre ++ entry :: post) (a ++ e :: b) := by
  refine ⟨events.take pre.length, events.drop pre.length, (List.take_append_drop _ _).symm, ?_⟩
  have hpre := List.forall₂_take pre.length h
  have hpost := List.forall₂_drop pre.length h
  rw [List.take_left] at hpre
  rw [List.drop_left] at hpost
  exact List.rel_append hpre (.cons he hpost)

/-- A log with one more entry resolves too, and among the events that another one is not, nothing
changes. -/
theorem resolve_insert {pre post : List StatusChange} {entry : StatusChange} {t : Instant}
    (hlog : raw.log = pre ++ post) (hr : raw.resolve = .ok h)
    (ht : Instant.ofRaw entry.timestamp = .ok t) :
    ∃ events, { raw with log := pre ++ entry :: post }.resolve = .ok { h with events } ∧
      events ≠ [] ∧ ∀ p : Event → Bool, p ⟨entry.old, entry.new, t⟩ = false →
        events.filter p = h.events.filter p := by
  obtain ⟨created, events, hc, hreads, rfl⟩ := resolve_eq_ok_iff.1 hr
  rw [hlog] at hreads
  obtain ⟨a, b, rfl, hgrown⟩ :=
    reads_insert (e := ⟨entry.old, entry.new, t⟩) hreads ⟨ht, rfl, rfl⟩
  refine ⟨_, resolve_eq_ok_iff.2 ⟨created, _, hc, hgrown, rfl⟩, fun hnil => ?_, fun p hp => ?_⟩
  · have hperm := (sortBy_perm notLater (a ++ ⟨entry.old, entry.new, t⟩ :: b)).length_eq
    rw [hnil] at hperm
    simp at hperm
  · rw [filter_sortBy notLater_trans notLater_total, filter_sortBy notLater_trans notLater_total,
      List.filter_append, List.filter_cons_of_neg (by simp [hp]), ← List.filter_append]

theorem exists_reads {entries : List StatusChange} {p : Instant → Prop}
    (h : ∀ entry ∈ entries, ∃ t, Instant.ofRaw entry.timestamp = .ok t ∧ p t) :
    ∃ events, List.Forall₂ StatusChange.Reads entries events ∧ ∀ e ∈ events, p e.time := by
  induction entries with
  | nil => exact ⟨[], .nil, List.forall_mem_nil _⟩
  | cons entry entries ih =>
    obtain ⟨⟨t, ht, hp⟩, hrest⟩ := List.forall_mem_cons.1 h
    obtain ⟨events, hreads, hevents⟩ := ih hrest
    exact ⟨⟨entry.old, entry.new, t⟩ :: events, .cons ⟨ht, rfl, rfl⟩ hreads,
      List.forall_mem_cons.2 ⟨hp, hevents⟩⟩

/-- Entries that are no earlier than the events of a log come behind them when they are put at its
end. -/
theorem resolve_append {entries : List StatusChange} (hr : raw.resolve = .ok h)
    (hlater : ∀ entry ∈ entries, ∃ t, Instant.ofRaw entry.timestamp = .ok t ∧
      ∀ e ∈ h.events, e.time ≤ t) :
    ∃ more, { raw with log := raw.log ++ entries }.resolve =
        .ok { h with events := h.events ++ more } ∧
      ∀ e ∈ h.events, ∀ f ∈ more, e.time ≤ f.time := by
  obtain ⟨created, events, hc, hreads, rfl⟩ := resolve_eq_ok_iff.1 hr
  obtain ⟨added, hadded, hle⟩ := exists_reads hlater
  have hsorted : ∀ e ∈ events, ∀ f ∈ added, notLater e f = true := fun e he f hf =>
    decide_eq_true (hle f hf e ((sortBy_perm notLater events).mem_iff.2 he))
  refine ⟨sortBy notLater added, resolve_eq_ok_iff.2 ⟨created, events ++ added, hc,
    List.rel_append hreads hadded, ?_⟩, fun e he f hf => ?_⟩
  · rw [sortBy_append hsorted]
  · exact hle f ((sortBy_perm notLater added).mem_iff.1 hf) e he

end IssueHistory

end IssueFlow.Tracker
