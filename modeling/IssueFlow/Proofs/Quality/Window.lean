import IssueFlow.Proofs.Quality.Reopen

/-!
# Reopens in parts of a window

A closure counts wherever it lies, before the window or in it, so what a reopen is dated back to
does not hang on the window. Reopens over a smaller window are those of the larger one that lie in
it, and a period that is cut into consecutive windows has the reopens of its parts, one part after
the other (`detectReopens_windows`).
-/

namespace IssueFlow.Calendar

/-- The window lies in the other one. -/
def Window.Within (v w : Window) : Prop := w.start ≤ v.start ∧ v.stop ≤ w.stop

theorem Window.Within.contains {v w : Window} {t : Instant} (h : v.Within w)
    (ht : v.contains t = true) : w.contains t = true := by
  rw [Window.contains_iff] at *
  exact ⟨Instant.le_trans h.1 ht.1, Instant.le_trans ht.2 h.2⟩

end IssueFlow.Calendar

namespace IssueFlow.Quality

open IssueFlow.Text IssueFlow.Calendar IssueFlow.Tracker

section

variable {q : ReopenQuery} {w : Window} {issue : IssueRef} {before events : List Event} {e : Event}
  {h : ResolvedHistory}

/-- What a log records of closures does not hang on the window. -/
theorem closures_window : { q with window := w }.closures before = q.closures before := rfl

theorem transitionAfter?_within (hw : w.Within q.window) :
    { q with window := w }.transitionAfter? issue before e =
      (q.transitionAfter? issue before e).filter fun t => w.contains t.reopenedAt := by
  ext a
  rw [Option.filter_eq_some_iff, transitionAfter?_eq_some_iff, transitionAfter?_eq_some_iff,
    closures_window]
  show (q.closedValue? e.new = none ∧ (sameValue e.new q.reopen && w.contains e.time) = true ∧ _) ↔
    (q.closedValue? e.new = none ∧ (sameValue e.new q.reopen && q.window.contains e.time) = true ∧
      _) ∧ _
  rw [Bool.and_eq_true, Bool.and_eq_true]
  constructor
  · rintro ⟨hclosed, ⟨hreopen, hin⟩, hmin, hlt, ha⟩
    have htime : a.reopenedAt = e.time := congrArg ReopenTransition.reopenedAt ha
    exact ⟨⟨hclosed, ⟨hreopen, hw.contains hin⟩, hmin, hlt, ha⟩, htime ▸ hin⟩
  · rintro ⟨⟨hclosed, ⟨hreopen, -⟩, hmin, hlt, ha⟩, hin⟩
    have htime : a.reopenedAt = e.time := congrArg ReopenTransition.reopenedAt ha
    exact ⟨hclosed, ⟨hreopen, htime ▸ hin⟩, hmin, hlt, ha⟩

theorem detectReopens_within (asc : h.Ascending) (hw : w.Within q.window) :
    detectReopens { q with window := w } h =
      (detectReopens q h).filter fun t => w.contains t.reopenedAt := by
  rw [detectReopens_eq_filterMap asc, detectReopens_eq_filterMap asc, List.filter_filterMap]
  refine List.filterMap_congr fun m _ => ?_
  exact transitionAfter?_within hw

theorem map_snd_moments (before events : List Event) :
    (moments before events).map Prod.snd = events := by
  induction events generalizing before with
  | nil => rfl
  | cons e events ih => rw [moments, List.map_cons, ih]

/-- The reopens of a log come in the order of time. -/
theorem pairwise_reopenedAt (q : ReopenQuery) (asc : h.Ascending) :
    (detectReopens q h).Pairwise fun a b => a.reopenedAt.rank ≤ b.reopenedAt.rank := by
  have htimes : (moments [] h.events).Pairwise fun x y => x.2.time ≤ y.2.time := by
    rw [← List.pairwise_map (f := Prod.snd) (R := fun a b : Event => a.time ≤ b.time),
      map_snd_moments]
    exact asc
  rw [detectReopens_eq_filterMap asc, List.pairwise_filterMap]
  refine htimes.imp fun {x y} hxy a ha b hb => ?_
  rw [(reopenedAt_of_transitionAfter? ha).2, (reopenedAt_of_transitionAfter? hb).2]
  exact hxy

end

theorem detectReopens_windows (q : ReopenQuery) {h : ResolvedHistory} (asc : h.Ascending) :
    (∀ w : Window, w.Within q.window →
      detectReopens { q with window := w } h =
        (detectReopens q h).filter fun t => w.contains t.reopenedAt) ∧
    ∀ ws : List Window, (∀ w ∈ ws, w.Within q.window) →
      (ws.Pairwise fun v w => v.stop < w.start) →
      (∀ t ∈ detectReopens q h, ∃ w ∈ ws, w.contains t.reopenedAt = true) →
      (ws.flatMap fun w => detectReopens { q with window := w } h) = detectReopens q h := by
  refine ⟨fun w hw => detectReopens_within asc hw, fun ws hin hapart hcover => ?_⟩
  rw [List.flatMap_congr fun w hw => detectReopens_within asc (hin w hw)]
  apply Order.flatMap_filter_eq_self _ (pairwise_reopenedAt q asc) hcover
  refine hapart.imp fun {v w} hvw a b ha hb => ?_
  rw [Window.contains_iff] at ha hb
  have hav := ha.2
  have hbw := hb.1
  rw [Instant.lt_def] at hvw
  rw [Instant.le_def] at hav hbw
  omega

/-- January up to the second closure, and the rest of it from the reopen on. -/
def januaryParts : List Window := [⟨midnight 1, midnight 4⟩, ⟨midnight 5, midnight 31⟩]

theorem detectReopens_windows_closedTwice :
    closedTwice.Ascending ∧ (∀ w ∈ januaryParts, w.Within wholeJanuary.window) ∧
      (januaryParts.Pairwise fun v w => v.stop < w.start) ∧
      (∀ w ∈ januaryParts, detectReopens { wholeJanuary with window := w } closedTwice =
        (detectReopens wholeJanuary closedTwice).filter fun t => w.contains t.reopenedAt) ∧
      (januaryParts.flatMap fun w => detectReopens { wholeJanuary with window := w } closedTwice) =
        detectReopens wholeJanuary closedTwice ∧
      (detectReopens wholeJanuary closedTwice).map ReopenTransition.reopenedAt =
        [midnight 3, midnight 5] := by
  have asc : closedTwice.Ascending := by
    unfold ResolvedHistory.Ascending
    decide +kernel
  have hin : ∀ w ∈ januaryParts, w.Within wholeJanuary.window := by
    unfold Window.Within
    decide +kernel
  have hapart : januaryParts.Pairwise fun v w => v.stop < w.start := by decide +kernel
  have hreopens : (detectReopens wholeJanuary closedTwice).map ReopenTransition.reopenedAt =
      [midnight 3, midnight 5] := by
    decide +kernel
  have hcover : ∀ t ∈ detectReopens wholeJanuary closedTwice,
      ∃ w ∈ januaryParts, w.contains t.reopenedAt = true := by
    intro t ht
    have hall : ∀ time ∈ [midnight 3, midnight 5], ∃ w ∈ januaryParts, w.contains time = true := by
      decide +kernel
    exact hall t.reopenedAt (hreopens ▸ List.mem_map_of_mem ht)
  have hwindows := detectReopens_windows wholeJanuary asc
  exact ⟨asc, hin, hapart, fun w hw => hwindows.1 w (hin w hw),
    hwindows.2 januaryParts hin hapart hcover, hreopens⟩

end IssueFlow.Quality
