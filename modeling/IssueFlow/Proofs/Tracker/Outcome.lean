import IssueFlow.Proofs.Calendar.Instant
import IssueFlow.Proofs.Tracker.Resolve

/-!
# The outcome of resolving

Resolving gives a history just if every timestamp can be read. Its events are then the entries of
the log with their times, each one once, in the order of time and at one time in the order of the
log (`Arranges`). Otherwise it names the first timestamp that cannot be read, the creation before
the log, and why (`FirstFault`). `resolve_outcome` puts both together.
-/

namespace IssueFlow.Tracker

open IssueFlow.Calendar IssueFlow.Order

/-- The raw timestamp names an instant. -/
def Readable (timestamp : String) : Prop := ∃ t, Instant.ofRaw timestamp = .ok t

/-- Events beside the places in a log of the entries that they are read from: every place occurs
once, and the events come in the order of time and then of place. -/
structure Arranges (log : List StatusChange) (placed : List (Event × Nat)) : Prop where
  places : (placed.map Prod.snd).Perm (List.range log.length)
  reads : ∀ p ∈ placed, ∃ entry, log[p.2]? = some entry ∧ entry.Reads p.1
  ordered : placed.Pairwise fun p q =>
    p.1.time < q.1.time ∨ p.1.time = q.1.time ∧ p.2 < q.2

/-- The first timestamp of a history that cannot be read, by name, and why it cannot. -/
inductive FirstFault (raw : IssueHistory) : String → TimestampError → Prop where
  | created {cause : TimestampError} (unread : Instant.ofRaw raw.created = .error cause) :
    FirstFault raw "created" cause
  | log {i : Nat} {entry : StatusChange} {cause : TimestampError} (created : Readable raw.created)
    (placed : raw.log[i]? = some entry) (unread : Instant.ofRaw entry.timestamp = .error cause)
    (first : ∀ x ∈ raw.log.take i, Readable x.timestamp) :
    FirstFault raw ("log[" ++ toString i ++ "]") cause

namespace IssueHistory

variable {raw : IssueHistory} {h : ResolvedHistory} {log : List StatusChange}
  {events : List Event}

/-! ## Success -/

theorem readable_of_reads {entry : StatusChange} {e : Event} (h : entry.Reads e) :
    Readable entry.timestamp :=
  ⟨e.time, h.1⟩

theorem exists_reads_iff : (∃ events, List.Forall₂ StatusChange.Reads log events) ↔
    ∀ entry ∈ log, Readable entry.timestamp := by
  constructor
  · rintro ⟨events, hreads⟩ entry hentry
    obtain ⟨i, hi, rfl⟩ := List.getElem_of_mem hentry
    exact readable_of_reads (hreads.get hi (hreads.length_eq ▸ hi))
  · intro hall
    obtain ⟨events, hreads, -⟩ := exists_reads (p := fun _ => True) fun entry hentry => by
      obtain ⟨t, ht⟩ := hall entry hentry
      exact ⟨t, ht, trivial⟩
    exact ⟨events, hreads⟩

theorem exists_resolve_iff : (∃ h, raw.resolve = .ok h) ↔
    Readable raw.created ∧ ∀ entry ∈ raw.log, Readable entry.timestamp := by
  rw [← exists_reads_iff]
  constructor
  · rintro ⟨h, hr⟩
    obtain ⟨created, events, hc, hreads, -⟩ := resolve_eq_ok_iff.1 hr
    exact ⟨⟨created, hc⟩, events, hreads⟩
  · rintro ⟨⟨created, hc⟩, events, hreads⟩
    exact ⟨_, resolve_eq_ok_iff.2 ⟨created, events, hc, hreads, rfl⟩⟩

theorem getElem?_of_reads {e : Event} {i : Nat}
    (hreads : List.Forall₂ StatusChange.Reads log events) (he : events[i]? = some e) :
    ∃ entry, log[i]? = some entry ∧ entry.Reads e := by
  obtain ⟨hi, rfl⟩ := List.getElem?_eq_some_iff.1 he
  have hlog : i < log.length := hreads.length_eq ▸ hi
  exact ⟨log[i], List.getElem?_eq_getElem hlog, hreads.get hlog hi⟩

/-- The sorted events, each beside its place before sorting. -/
theorem arranges_sortBy (hreads : List.Forall₂ StatusChange.Reads log events) :
    Arranges log (sortBy (fun p q => notLater p.1 q.1) events.zipIdx) := by
  have hperm := sortBy_perm (fun p q : Event × Nat => notLater p.1 q.1) events.zipIdx
  refine ⟨?_, fun p hp => ?_, ?_⟩
  · refine (hperm.map Prod.snd).trans ?_
    rw [List.zipIdx_map_snd, hreads.length_eq, List.range_eq_range']
  · exact getElem?_of_reads hreads (List.mem_zipIdx_iff_getElem?.1 (hperm.mem_iff.1 hp))
  · have hstable := pairwise_sortBy_stable (fun p q : Event × Nat => notLater p.1 q.1)
      (fun a b c => notLater_trans a.1 b.1 c.1) (fun a b => notLater_total a.1 b.1)
      (pairwise_zipIdx events)
    refine hstable.imp fun {p q} hpq => ?_
    have hle : p.1.time ≤ q.1.time := of_decide_eq_true hpq.1
    rcases Int.lt_or_eq_of_le hle with hlt | heq
    · exact .inl hlt
    · have heq := Instant.rank_inj heq
      exact .inr ⟨heq, hpq.2 (decide_eq_true (heq ▸ Instant.le_refl _))⟩

theorem exists_arranges (hr : raw.resolve = .ok h) :
    ∃ placed, placed.map Prod.fst = h.events ∧ Arranges raw.log placed := by
  obtain ⟨created, events, -, hreads, rfl⟩ := resolve_eq_ok_iff.1 hr
  refine ⟨_, ?_, arranges_sortBy hreads⟩
  rw [map_sortBy notLater fun _ _ => rfl, List.zipIdx_map_fst]

/-! ## Failure -/

/-- A log that cannot be read fails with its first entry that cannot. -/
theorem eventsFrom_eq_error_iff {index : Nat} {field : TimestampField} {cause : TimestampError} :
    eventsFrom index log = .error (field, cause) ↔
      ∃ i entry, field = .log (index + i) ∧ log[i]? = some entry ∧
        Instant.ofRaw entry.timestamp = .error cause ∧
        ∀ x ∈ log.take i, Readable x.timestamp := by
  induction log generalizing index with
  | nil => simp [eventsFrom]
  | cons entry log ih =>
    rw [eventsFrom]
    cases ht : Instant.ofRaw entry.timestamp with
    | error cause' =>
      constructor
      · rintro ⟨⟩
        exact ⟨0, entry, rfl, rfl, ht, List.forall_mem_nil _⟩
      · rintro ⟨_ | i, x, rfl, hx, hcause, hfirst⟩
        · obtain rfl := Option.some.inj hx
          rw [ht] at hcause
          cases hcause
          rfl
        · obtain ⟨t, hread⟩ := hfirst entry List.mem_cons_self
          rw [ht] at hread
          cases hread
    | ok time =>
      have htail : (eventsFrom (index + 1) log).map (⟨entry.old, entry.new, time⟩ :: ·) =
          .error (field, cause) ↔ eventsFrom (index + 1) log = .error (field, cause) := by
        cases eventsFrom (index + 1) log <;> simp [Except.map]
      rw [htail, ih]
      constructor
      · rintro ⟨i, x, rfl, hx, hcause, hfirst⟩
        refine ⟨i + 1, x, by rw [Nat.add_right_comm, Nat.add_assoc], hx, hcause, ?_⟩
        exact List.forall_mem_cons.2 ⟨⟨time, ht⟩, hfirst⟩
      · rintro ⟨_ | i, x, rfl, hx, hcause, hfirst⟩
        · obtain rfl := Option.some.inj hx
          rw [ht] at hcause
          cases hcause
        · refine ⟨i, x, by rw [Nat.add_right_comm, Nat.add_assoc], hx, hcause, ?_⟩
          exact (List.forall_mem_cons.1 hfirst).2

theorem firstFault_of_resolve {e : ResolveError} (hr : raw.resolve = .error e) :
    FirstFault raw e.field.name e.cause := by
  unfold resolve at hr
  cases hc : Instant.ofRaw raw.created with
  | error cause =>
    rw [hc] at hr
    cases hr
    exact .created hc
  | ok created =>
    rw [hc] at hr
    cases hlog : eventsFrom 0 raw.log with
    | ok events =>
      rw [hlog] at hr
      cases hr
    | error fault =>
      rw [hlog] at hr
      cases hr
      obtain ⟨i, entry, hfield, hentry, hcause, hfirst⟩ := eventsFrom_eq_error_iff.1 hlog
      rw [hfield, Nat.zero_add]
      exact .log ⟨created, hc⟩ hentry hcause hfirst

/-! ## Both outcomes -/

theorem resolve_outcome (raw : IssueHistory) :
    ((∃ h, raw.resolve = .ok h) ↔
        Readable raw.created ∧ ∀ entry ∈ raw.log, Readable entry.timestamp) ∧
      (∀ h, raw.resolve = .ok h →
        (∃ placed, placed.map Prod.fst = h.events ∧ Arranges raw.log placed) ∧
          Instant.ofRaw raw.created = .ok h.created ∧ h.issue = raw.issue ∧
          h.priority = raw.priority ∧ h.rootCauses = raw.rootCauses) ∧
      ∀ e, raw.resolve = .error e →
        e.issue = raw.issue ∧ FirstFault raw e.field.name e.cause := by
  refine ⟨exists_resolve_iff, fun h hr => ⟨exists_arranges hr, ?_⟩, fun e he =>
    ⟨issue_of_resolve_error he, firstFault_of_resolve he⟩⟩
  obtain ⟨created, events, hc, -, rfl⟩ := resolve_eq_ok_iff.1 hr
  exact ⟨hc, rfl, rfl, rfl⟩

/-- A log with two entries at one instant, written with an offset and without, and an earlier entry
between them. -/
def writtenTwice : IssueHistory where
  issue := ⟨"T-1", "A"⟩
  log := [⟨"Open", "Review", "2024-01-03T01:00:00+02:00"⟩, ⟨"", "Open", " 2024-01-01"⟩,
    ⟨"Review", "Done", "2024-01-02 23:00:00"⟩]
  created := "2024-01-01"

/-- The same log with two more entries, neither of which can be read. -/
def writtenInWords : IssueHistory :=
  { writtenTwice with
    log := writtenTwice.log ++ [⟨"Done", "Open", "yesterday"⟩, ⟨"Open", "Done", ""⟩] }

theorem resolve_outcome_writtenTwice :
    (∃ h, writtenTwice.resolve = .ok h ∧ h.events.map Event.new = ["Open", "Review", "Done"] ∧
        ∃ placed, placed.map Prod.fst = h.events ∧ Arranges writtenTwice.log placed) ∧
      ∃ e, writtenInWords.resolve = .error e ∧
        e.message = "A/T-1: log[3]: unrecognised timestamp 'yesterday'" ∧
        FirstFault writtenInWords e.field.name e.cause := by
  have hok : writtenTwice.resolve.map (fun h => h.events.map Event.new) =
      .ok ["Open", "Review", "Done"] := by
    decide +kernel
  have herror : writtenInWords.resolve =
      .error ⟨⟨"T-1", "A"⟩, .log 3, .unrecognised "yesterday"⟩ := by
    decide +kernel
  refine ⟨?_, _, herror, by decide +kernel, ?_⟩
  · obtain ⟨h, hr, hevents⟩ := exists_of_map_resolve hok
    exact ⟨h, hr, hevents, ((resolve_outcome writtenTwice).2.1 h hr).1⟩
  · exact ((resolve_outcome writtenInWords).2.2 _ herror).2

end IssueHistory

end IssueFlow.Tracker
