import IssueFlow.Delivery.Cycle
import IssueFlow.Proofs.Calendar.Instant
import IssueFlow.Proofs.Tracker.Resolve
import Mathlib.Data.List.Induction
import Mathlib.Data.List.Nodup

/-!
# Cycles as blocks of a log

The cycles of an issue are the blocks that its completion events are cut into: from left to right
the longest ones in which no status comes twice (`CutsInto`). There is one such cut, `blocksOf`. The
earliest time in the working set of a cycle is that of its first event, whatever enters the cycle
later, so each cycle is dated by its first event (`cycleMinimums_blocks`).

The dates of the cycles stay as they are while the log grows at its end, also that of the last
cycle, which later completions may enter (`isPrefix_cycleMinimums`).
-/

namespace IssueFlow.Delivery

open IssueFlow.Text IssueFlow.Calendar IssueFlow.Tracker IssueFlow.Rules

/-! ## Working sets -/

/-- The statuses that the events enter, trimmed and in lower case. -/
def statuses (events : List Event) : List String := events.map fun e => lowerKey e.new

/-- The statuses that the events of an open cycle have entered, each with its time. -/
def workingSet (events : List Event) : Std.ExtTreeMap String Instant :=
  events.foldl (fun open_ e => open_.insert (lowerKey e.new) e.time) ∅

section

variable {open_ : Std.ExtTreeMap String Instant} {key : String} {m t : Instant}
  {events more : List Event} {e : Event}

theorem statuses_append : statuses (events ++ more) = statuses events ++ statuses more :=
  List.map_append

theorem statuses_concat : statuses (events ++ [e]) = statuses events ++ [lowerKey e.new] :=
  statuses_append

theorem workingSet_concat :
    workingSet (events ++ [e]) = (workingSet events).insert (lowerKey e.new) e.time := by
  rw [workingSet, List.foldl_concat]
  rfl

theorem contains_workingSet_iff :
    (workingSet events).contains key = true ↔ key ∈ statuses events := by
  induction events using List.reverseRecOn with
  | nil => simp [workingSet, statuses]
  | append_singleton events e ih =>
    rw [workingSet_concat, Std.ExtTreeMap.contains_insert, Bool.or_eq_true, ih, statuses_concat,
      List.mem_append, List.mem_singleton, beq_iff_eq, Std.LawfulEqOrd.compare_eq_iff_eq,
      eq_comm, or_comm]

theorem contains_workingSet_eq_false_iff :
    (workingSet events).contains key = false ↔ key ∉ statuses events := by
  rw [Bool.eq_false_iff, Ne, contains_workingSet_iff]

/-- A status that enters an open cycle later leaves the earliest time as it is. -/
theorem min?_values_insert (hm : open_.values.min? = some m) (hle : m ≤ t)
    (hnew : open_.contains key = false) : (open_.insert key t).values.min? = some m := by
  obtain ⟨⟨k, hk⟩, hfirst⟩ := min?_values_eq_some_iff.1 hm
  have hne : key ≠ k := by
    rintro rfl
    rw [Std.ExtTreeMap.getElem?_eq_none_of_contains_eq_false hnew] at hk
    cases hk
  rw [min?_values_eq_some_iff]
  refine ⟨⟨k, ?_⟩, fun k' u hu => ?_⟩
  · rw [Std.ExtTreeMap.getElem?_insert, if_neg (by simpa using hne), hk]
  · rw [Std.ExtTreeMap.getElem?_insert] at hu
    split at hu
    · exact Option.some.inj hu ▸ hle
    · exact hfirst k' u hu

/-- The earliest time in the working set of different statuses is that of the first event. -/
theorem min?_workingSet (asc : (e :: events).Pairwise fun x y => x.time ≤ y.time)
    (hdistinct : (statuses (e :: events)).Nodup) :
    (workingSet (e :: events)).values.min? = some e.time := by
  induction events using List.reverseRecOn with
  | nil =>
    rw [min?_values_eq_some_iff]
    simp [workingSet, Std.ExtTreeMap.getElem?_insert]
  | append_singleton events f ih =>
    rw [← List.cons_append] at *
    rw [statuses_concat, List.nodup_append] at hdistinct
    obtain ⟨hrest, -, hnew⟩ := hdistinct
    obtain ⟨hasc, -, hlater⟩ := List.pairwise_append.1 asc
    rw [workingSet_concat]
    apply min?_values_insert (ih hasc hrest)
    · exact hlater e List.mem_cons_self f (List.mem_singleton_self f)
    · rw [contains_workingSet_eq_false_iff]
      exact fun hmem => hnew _ hmem _ (List.mem_singleton_self _) rfl

end

/-! ## Blocks -/

/-- A run of events that starts with one. -/
structure Block where
  first : Event
  later : List Event

def Block.events (b : Block) : List Event := b.first :: b.later

/-- The block with more events at its end. -/
def Block.append (b : Block) (more : List Event) : Block := ⟨b.first, b.later ++ more⟩

/-- The events are cut, from left to right, into the longest blocks in which no status comes twice:
each block ends at the end of the events or in front of a status that it has entered. -/
structure CutsInto (events : List Event) (blocks : List Block) : Prop where
  flatMap_eq : blocks.flatMap Block.events = events
  distinct : ∀ b ∈ blocks, (statuses b.events).Nodup
  maximal : blocks.IsChain fun a b => lowerKey b.first.new ∈ statuses a.events

/-- The blocks of an open block and the events after it. -/
def blocksFrom (open_ : Block) : List Event → List Block
  | [] => [open_]
  | e :: events =>
    if lowerKey e.new ∈ statuses open_.events then open_ :: blocksFrom ⟨e, []⟩ events
    else blocksFrom (open_.append [e]) events

/-- The blocks of the events. -/
def blocksOf : List Event → List Block
  | [] => []
  | e :: events => blocksFrom ⟨e, []⟩ events

section

variable {open_ : Block} {events more : List Event} {blocks : List Block}

theorem Block.events_append (b : Block) (more : List Event) :
    (b.append more).events = b.events ++ more := rfl

theorem exists_blocksFrom (open_ : Block) (events : List Event) :
    ∃ b rest, blocksFrom open_ events = b :: rest ∧ b.first = open_.first := by
  induction events generalizing open_ with
  | nil => exact ⟨open_, [], rfl, rfl⟩
  | cons e events ih =>
    rw [blocksFrom]
    split
    · exact ⟨open_, _, rfl, rfl⟩
    · exact ih (open_.append [e])

theorem cutsInto_blocksFrom (h : (statuses open_.events).Nodup) :
    CutsInto (open_.events ++ events) (blocksFrom open_ events) := by
  induction events generalizing open_ with
  | nil => exact ⟨by simp [blocksFrom], by simpa [blocksFrom] using h, .singleton open_⟩
  | cons e events ih =>
    rw [blocksFrom]
    split
    · next hrepeat =>
      obtain ⟨hflat, hdistinct, hmaximal⟩ := @ih ⟨e, []⟩ (List.nodup_singleton _)
      refine ⟨?_, List.forall_mem_cons.2 ⟨h, hdistinct⟩, ?_⟩
      · rw [List.flatMap_cons, hflat]
        rfl
      · obtain ⟨b, rest, hb, hfirst⟩ := exists_blocksFrom ⟨e, []⟩ events
        rw [hb] at hmaximal ⊢
        exact List.isChain_cons_cons.2 ⟨hfirst ▸ hrepeat, hmaximal⟩
    · next hnew =>
      have hopen : (statuses (open_.append [e]).events).Nodup := by
        rw [Block.events_append, statuses_concat, ← List.concat_eq_append]
        exact h.concat hnew
      have hcut := ih hopen
      rwa [Block.events_append, List.append_assoc, List.singleton_append] at hcut

theorem cutsInto_blocksOf (events : List Event) : CutsInto events (blocksOf events) := by
  cases events with
  | nil => exact ⟨rfl, List.forall_mem_nil _, .nil⟩
  | cons e events => exact @cutsInto_blocksFrom ⟨e, []⟩ events (List.nodup_singleton _)

/-- Events go into the open block as long as their statuses are new to it. -/
theorem blocksFrom_append (h : (statuses (open_.append more).events).Nodup) :
    blocksFrom open_ (more ++ events) = blocksFrom (open_.append more) events := by
  induction more generalizing open_ with
  | nil => rw [Block.append, List.append_nil, List.nil_append]
  | cons e more ih =>
    have hsplit : open_.append (e :: more) = (open_.append [e]).append more := by
      simp only [Block.append, List.append_assoc, List.singleton_append]
    have hnew : lowerKey e.new ∉ statuses open_.events := by
      rw [Block.events_append, statuses_append, List.nodup_append] at h
      exact fun hmem => h.2.2 _ hmem _ List.mem_cons_self rfl
    rw [hsplit] at h ⊢
    rw [List.cons_append, blocksFrom, if_neg hnew, ih h]

theorem CutsInto.eq_blocksOf (h : CutsInto events blocks) : blocks = blocksOf events := by
  obtain ⟨rfl, hdistinct, hmaximal⟩ := h
  induction blocks with
  | nil => rfl
  | cons b rest ih =>
    obtain ⟨hb, hrest⟩ := List.forall_mem_cons.1 hdistinct
    have hopen : blocksOf ((b :: rest).flatMap Block.events) =
        blocksFrom b (rest.flatMap Block.events) :=
      @blocksFrom_append ⟨b.first, []⟩ _ b.later hb
    rw [hopen]
    -- The event behind the first block repeats one of its statuses, so it opens the next block.
    cases rest with
    | nil => rfl
    | cons c rest =>
      obtain ⟨hrepeat, hmaximal⟩ := List.isChain_cons_cons.1 hmaximal
      have hnext : blocksFrom b ((c :: rest).flatMap Block.events) =
          b :: blocksOf ((c :: rest).flatMap Block.events) := if_pos hrepeat
      rw [hnext, ← ih hrest hmaximal]

end

/-! ## The cycles of a log -/

section

variable {b : Block} {events : List Event} {blocks : List Block} {c : Classification}
  {h : ResolvedHistory}

/-- The events that complete the issue. -/
def completions (c : Classification) (h : ResolvedHistory) : List Event :=
  h.events.filter fun e => c.isCompletion e.new

/-- The scan dates each block by the earliest time in its working set. -/
theorem cutCycles_workingSet (open_ : Block) (events : List Event) :
    cutCycles (workingSet open_.events) events =
      (blocksFrom open_ events).flatMap fun b => cycleDate (workingSet b.events) := by
  induction events generalizing open_ with
  | nil => simp [cutCycles, blocksFrom]
  | cons e events ih =>
    have hnext := ih ⟨e, []⟩
    have hlonger := ih (open_.append [e])
    rw [Block.events_append, workingSet_concat] at hlonger
    rw [cutCycles, blocksFrom]
    simp only [contains_workingSet_iff]
    split
    · rw [List.flatMap_cons, ← hnext]
      rfl
    · exact hlonger

theorem cycleMinimums_eq_flatMap (c : Classification) (h : ResolvedHistory) :
    cycleMinimums c h =
      (blocksOf (completions c h)).flatMap fun b => cycleDate (workingSet b.events) := by
  show cutCycles ∅ (completions c h) = _
  cases completions c h with
  | nil => rfl
  | cons e events =>
    rw [cutCycles, if_neg (by simp)]
    exact cutCycles_workingSet ⟨e, []⟩ events

theorem sublist_firsts (blocks : List Block) :
    (blocks.map Block.first).Sublist (blocks.flatMap Block.events) := by
  induction blocks with
  | nil => exact .slnil
  | cons b rest ih =>
    have hrest : (rest.map Block.first).Sublist (b.later ++ rest.flatMap Block.events) :=
      ih.trans (List.sublist_append_right _ _)
    exact hrest.cons_cons b.first

namespace CutsInto

theorem sublist (hcut : CutsInto (completions c h) blocks) (hb : b ∈ blocks) :
    b.events.Sublist h.events := by
  have hblock : b.events.Sublist (completions c h) := by
    rw [← hcut.flatMap_eq, List.flatMap_def]
    exact List.sublist_flatten_of_mem (List.mem_map_of_mem hb)
  exact hblock.trans List.filter_sublist

/-- The earliest time in the working set of a cycle is at all times that of its first event. -/
theorem min?_workingSet (hcut : CutsInto (completions c h) blocks) (asc : h.Ascending)
    (hb : b ∈ blocks) {entered : List Event} (hne : entered ≠ []) (hstart : entered <+: b.events) :
    (workingSet entered).values.min? = some b.first.time := by
  obtain ⟨e, entered, rfl⟩ := List.exists_cons_of_ne_nil hne
  obtain ⟨rfl, -⟩ := List.cons_prefix_cons.1 hstart
  apply Delivery.min?_workingSet
  · exact (List.Pairwise.sublist (hcut.sublist hb) asc).sublist hstart.sublist
  · exact (hcut.distinct b hb).sublist (hstart.sublist.map _)

theorem cycleMinimums_eq (hcut : CutsInto (completions c h) blocks) (asc : h.Ascending) :
    cycleMinimums c h = blocks.map fun b => b.first.time := by
  rw [cycleMinimums_eq_flatMap, ← hcut.eq_blocksOf, List.map_eq_flatMap]
  refine List.flatMap_congr fun b hb => ?_
  have hne : b.events ≠ [] := List.cons_ne_nil _ _
  rw [cycleDate, hcut.min?_workingSet asc hb hne List.prefix_rfl]
  rfl

theorem pairwise_firsts (hcut : CutsInto (completions c h) blocks) (asc : h.Ascending) :
    (blocks.map fun b => b.first.time).Pairwise (· ≤ ·) := by
  have hfirsts := sublist_firsts blocks
  rw [hcut.flatMap_eq] at hfirsts
  have hevents : (blocks.map Block.first).Pairwise fun x y => x.time ≤ y.time :=
    List.Pairwise.sublist (hfirsts.trans List.filter_sublist) asc
  rw [List.pairwise_map] at hevents ⊢
  exact hevents

end CutsInto

/-- A cycle is dated by an event of the log. -/
theorem exists_event_of_mem_cycleMinimums (asc : h.Ascending) {t : Instant}
    (ht : t ∈ cycleMinimums c h) : ∃ e ∈ h.events, e.time = t := by
  have hcut := cutsInto_blocksOf (completions c h)
  rw [hcut.cycleMinimums_eq asc] at ht
  obtain ⟨b, hb, rfl⟩ := List.mem_map.1 ht
  exact ⟨b.first, (hcut.sublist hb).mem List.mem_cons_self, rfl⟩

theorem blocksOf_eq_nil_iff : blocksOf events = [] ↔ events = [] := by
  cases events with
  | nil => simp [blocksOf]
  | cons e events =>
    obtain ⟨b, rest, hblocks, -⟩ := exists_blocksFrom ⟨e, []⟩ events
    simp [blocksOf, hblocks]

end

theorem cycleMinimums_blocks (c : Classification) {h : ResolvedHistory} (asc : h.Ascending) :
    (∃! blocks, CutsInto (completions c h) blocks) ∧
    (∀ blocks, CutsInto (completions c h) blocks →
      cycleMinimums c h = blocks.map (fun b => b.first.time) ∧
      ∀ b ∈ blocks, ∀ entered : List Event, entered ≠ [] → entered <+: b.events →
        (workingSet entered).values.min? = some b.first.time) ∧
    (cycleMinimums c h).Pairwise (· ≤ ·) ∧
    (cycleMinimums c h = [] ↔ ∀ e ∈ h.events, c.isCompletion e.new = false) := by
  have hcut := cutsInto_blocksOf (completions c h)
  refine ⟨⟨_, hcut, fun blocks hblocks => hblocks.eq_blocksOf⟩, fun blocks hblocks => ?_, ?_, ?_⟩
  · exact ⟨hblocks.cycleMinimums_eq asc, fun b hb entered hne hstart =>
      hblocks.min?_workingSet asc hb hne hstart⟩
  · rw [hcut.cycleMinimums_eq asc]
    exact hcut.pairwise_firsts asc
  · rw [hcut.cycleMinimums_eq asc, List.map_eq_nil_iff, blocksOf_eq_nil_iff, completions,
      List.filter_eq_nil_iff]
    simp only [Bool.not_eq_true]

/-- A project whose issues are completed by two statuses. -/
def doneOrAccepted : Classification := { completion := .ofList ["Done", "Accepted"] }

/-- The first cycle of `completedAgain`. -/
def firstCycle : Block := ⟨⟨"Open", "Done", midnight 5⟩, [⟨"Done", "Accepted", midnight 5⟩]⟩

/-- The second cycle of `completedAgain`. -/
def secondCycle : Block := ⟨⟨"Review", " done", midnight 8⟩, [⟨" done", "ACCEPTED", midnight 9⟩]⟩

/-- A story that is done and accepted, reviewed again, done and accepted. -/
def completedAgain : ResolvedHistory where
  issue := ⟨"S-1", "A"⟩
  events := firstCycle.events ++ ⟨"Accepted", "Review", midnight 7⟩ :: secondCycle.events
  created := midnight 1
  priority := none
  rootCauses := []

theorem cycleMinimums_blocks_completedAgain :
    completedAgain.Ascending ∧
      CutsInto (completions doneOrAccepted completedAgain) [firstCycle, secondCycle] ∧
      (∃! blocks, CutsInto (completions doneOrAccepted completedAgain) blocks) ∧
      cycleMinimums doneOrAccepted completedAgain = [midnight 5, midnight 8] ∧
      (∀ b ∈ [firstCycle, secondCycle], ∀ entered : List Event, entered ≠ [] →
        entered <+: b.events → (workingSet entered).values.min? = some b.first.time) ∧
      (cycleMinimums doneOrAccepted completedAgain).Pairwise (· ≤ ·) := by
  have asc : completedAgain.Ascending := by
    unfold ResolvedHistory.Ascending
    decide +kernel
  have hcut : CutsInto (completions doneOrAccepted completedAgain) [firstCycle, secondCycle] :=
    ⟨by decide +kernel, by decide +kernel, .cons_cons (by decide +kernel) (.singleton _)⟩
  obtain ⟨hunique, hdates, hascending, -⟩ := cycleMinimums_blocks doneOrAccepted asc
  obtain ⟨hdates, hfirst⟩ := hdates _ hcut
  exact ⟨asc, hcut, hunique, hdates, hfirst, hascending⟩

/-! ## Growth -/

section

variable {open_ : Std.ExtTreeMap String Instant} {key : String} {m t : Instant}
  {events more : List Event}

/-- What enters an open cycle later leaves its date as it is. -/
theorem isPrefix_cutCycles (hm : open_.values.min? = some m) (hlater : ∀ f ∈ more, m ≤ f.time) :
    [m] <+: cutCycles open_ more := by
  induction more generalizing open_ with
  | nil =>
    rw [cutCycles, cycleDate, hm]
    exact List.prefix_rfl
  | cons f more ih =>
    obtain ⟨hf, hlater⟩ := List.forall_mem_cons.1 hlater
    rw [cutCycles]
    split
    · rw [cycleDate, hm]
      exact List.prefix_append _ _
    · next hnew => exact ih (min?_values_insert hm hf (Bool.eq_false_iff.2 hnew)) hlater

/-- No entry into the open cycle is later than any of the events. -/
def NoneLater (open_ : Std.ExtTreeMap String Instant) (more : List Event) : Prop :=
  ∀ (key : String) t, open_[key]? = some t → ∀ f ∈ more, t ≤ f.time

theorem noneLater_empty : NoneLater ∅ more := by
  simp [NoneLater]

theorem NoneLater.insert (h : NoneLater open_ more) (ht : ∀ f ∈ more, t ≤ f.time) :
    NoneLater (open_.insert key t) more := by
  intro key' u hu
  rw [Std.ExtTreeMap.getElem?_insert] at hu
  split at hu
  · exact Option.some.inj hu ▸ ht
  · exact h key' u hu

/-- The scan of a log that grows at its end starts with the dates that it had. -/
theorem isPrefix_cutCycles_append (hopen : NoneLater open_ more)
    (hevents : ∀ e ∈ events, ∀ f ∈ more, e.time ≤ f.time) :
    cutCycles open_ events <+: cutCycles open_ (events ++ more) := by
  induction events generalizing open_ with
  | nil =>
    rw [cutCycles, cycleDate]
    cases hm : open_.values.min? with
    | none => exact List.nil_prefix
    | some m =>
      obtain ⟨⟨key, hkey⟩, -⟩ := min?_values_eq_some_iff.1 hm
      exact isPrefix_cutCycles hm (hopen key m hkey)
  | cons e events ih =>
    obtain ⟨he, hevents⟩ := List.forall_mem_cons.1 hevents
    rw [List.cons_append, cutCycles, cutCycles]
    split
    · rw [List.prefix_append_right_inj]
      exact ih (noneLater_empty.insert he) hevents
    · exact ih (hopen.insert he) hevents

end

theorem isPrefix_cycleMinimums (c : Classification) :
    (∀ (h : ResolvedHistory) (more : List Event),
      (∀ e ∈ h.events, ∀ f ∈ more, e.time ≤ f.time) →
      cycleMinimums c h <+: cycleMinimums c { h with events := h.events ++ more }) ∧
    ∀ (raw : IssueHistory) (h : ResolvedHistory) (entries : List StatusChange),
      raw.resolve = .ok h →
      (∀ entry ∈ entries, ∃ t, Instant.ofRaw entry.timestamp = .ok t ∧
        ∀ e ∈ h.events, e.time ≤ t) →
      ∃ more, { raw with log := raw.log ++ entries }.resolve =
          .ok { h with events := h.events ++ more } ∧
        cycleMinimums c h <+: cycleMinimums c { h with events := h.events ++ more } := by
  have hgrowth (h : ResolvedHistory) (more : List Event)
      (hlater : ∀ e ∈ h.events, ∀ f ∈ more, e.time ≤ f.time) :
      cycleMinimums c h <+: cycleMinimums c { h with events := h.events ++ more } := by
    unfold cycleMinimums
    rw [List.filter_append]
    refine isPrefix_cutCycles_append noneLater_empty fun e he f hf => ?_
    exact hlater e (List.mem_filter.1 he).1 f (List.mem_filter.1 hf).1
  refine ⟨hgrowth, fun raw h entries hr hlater => ?_⟩
  obtain ⟨more, hresolve, hmore⟩ := IssueHistory.resolve_append hr hlater
  exact ⟨more, hresolve, hgrowth h more hmore⟩

/-- A story that is done. -/
def doneOnce : IssueHistory where
  issue := ⟨"S-1", "A"⟩
  log := [⟨"Open", "Done", "2024-01-05"⟩]
  created := "2024-01-01"

def doneOnceResolved : ResolvedHistory where
  issue := ⟨"S-1", "A"⟩
  events := [⟨"Open", "Done", midnight 5⟩]
  created := midnight 1
  priority := none
  rootCauses := []

/-- The story is accepted when it is done, and done again later. -/
def doneLater : List StatusChange :=
  [⟨"Review", "Done", "2024-01-09"⟩, ⟨"Done", "Accepted", "2024-01-05"⟩]

def doneLaterEvents : List Event :=
  [⟨"Done", "Accepted", midnight 5⟩, ⟨"Review", "Done", midnight 9⟩]

theorem isPrefix_cycleMinimums_doneOnce :
    doneOnce.resolve = .ok doneOnceResolved ∧
      (∀ entry ∈ doneLater, ∃ t, Instant.ofRaw entry.timestamp = .ok t ∧
        ∀ e ∈ doneOnceResolved.events, e.time ≤ t) ∧
      (∃ more, { doneOnce with log := doneOnce.log ++ doneLater }.resolve =
          .ok { doneOnceResolved with events := doneOnceResolved.events ++ more } ∧
        cycleMinimums doneOrAccepted doneOnceResolved <+: cycleMinimums doneOrAccepted
          { doneOnceResolved with events := doneOnceResolved.events ++ more }) ∧
      (∀ e ∈ doneOnceResolved.events, ∀ f ∈ doneLaterEvents, e.time ≤ f.time) ∧
      cycleMinimums doneOrAccepted doneOnceResolved <+: cycleMinimums doneOrAccepted
        { doneOnceResolved with events := doneOnceResolved.events ++ doneLaterEvents } := by
  have hr : doneOnce.resolve = .ok doneOnceResolved := by decide +kernel
  have hninth : Instant.ofRaw "2024-01-09" = .ok (midnight 9) := by decide +kernel
  have hfifth : Instant.ofRaw "2024-01-05" = .ok (midnight 5) := by decide +kernel
  have hentries : ∀ entry ∈ doneLater, ∃ t, Instant.ofRaw entry.timestamp = .ok t ∧
      ∀ e ∈ doneOnceResolved.events, e.time ≤ t := by
    refine List.forall_mem_cons.2 ⟨⟨midnight 9, hninth, by decide +kernel⟩, ?_⟩
    exact List.forall_mem_singleton.2 ⟨midnight 5, hfifth, by decide +kernel⟩
  have hevents : ∀ e ∈ doneOnceResolved.events, ∀ f ∈ doneLaterEvents, e.time ≤ f.time := by
    decide +kernel
  have hgrowth := isPrefix_cycleMinimums doneOrAccepted
  exact ⟨hr, hentries, hgrowth.2 doneOnce doneOnceResolved doneLater hr hentries, hevents,
    hgrowth.1 doneOnceResolved doneLaterEvents hevents⟩

end IssueFlow.Delivery
