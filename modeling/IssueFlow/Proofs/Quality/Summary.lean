import Mathlib
import IssueFlow.Proofs.Calendar.Instant
import IssueFlow.Proofs.Order.Selection
import IssueFlow.Quality.Reopen

/-!
# Summaries do not depend on the order

Floats do not add up to the same sum in every order. A summary puts the dwell times in the total
order first, which tells any two patterns of bits apart (`patternKey_inj`), signed zeros and NaNs
included, so that a list has one ascending rearrangement (`sortBy_patternLe_perm`) and every sum, mean
and median runs over the same floats in the same order. The rest of a summary only counts, or adds
up in 32 bits, where the order does not matter.

`Float` has a single NaN. So that nothing hangs on this, the same is said of dwell times given as
patterns of 64 bits, of which many are NaNs that sort to different places.

Main statement: `ofTransitions_perm`.
-/

namespace IssueFlow.Quality

/-! ## Ascending dwell times -/

/-- The place of a pattern of 64 bits in the total order of IEEE 754. -/
def patternKey (w : UInt64) : Int :=
  let n : Int := w.toNat
  if n < 0x8000000000000000 then n else 0x7FFFFFFFFFFFFFFF - n

def patternLe (v w : UInt64) : Bool := patternKey v ≤ patternKey w

def dwellLe (x y : Float) : Bool := totalOrderKey x ≤ totalOrderKey y

theorem patternKey_inj {v w : UInt64} (h : patternKey v = patternKey w) : v = w := by
  have hv := v.toNat_lt
  have hw := w.toNat_lt
  refine UInt64.toNat_inj.1 ?_
  unfold patternKey at h
  dsimp only at h
  split at h <;> split at h <;> omega

theorem totalOrderKey_eq (x : Float) : totalOrderKey x = patternKey x.toBits := by
  unfold totalOrderKey patternKey
  rfl

theorem dwellLe_eq (x y : Float) : dwellLe x y = patternLe x.toBits y.toBits := by
  rw [dwellLe, patternLe, totalOrderKey_eq, totalOrderKey_eq]

/-- A list has one ascending rearrangement if no two of its elements share a place. -/
theorem sortBy_patternLe_perm {ws ws' : List UInt64} (h : ws.Perm ws') :
    Order.sortBy patternLe ws = Order.sortBy patternLe ws' := by
  have trans : ∀ u v w, patternLe u v = true → patternLe v w = true → patternLe u w = true := by
    simp only [patternLe, decide_eq_true_eq]
    omega
  have total : ∀ v w, patternLe v w = false → patternLe w v = true := by
    simp only [patternLe, decide_eq_true_eq, decide_eq_false_iff_not]
    omega
  refine List.Perm.eq_of_pairwise (fun v w _ _ hvw hwv => ?_)
    (Order.pairwise_sortBy trans total ws) (Order.pairwise_sortBy trans total ws') ?_
  · simp only [patternLe, decide_eq_true_eq] at hvw hwv
    exact patternKey_inj (Int.le_antisymm hvw hwv)
  · exact (Order.sortBy_perm _ ws).trans (h.trans (Order.sortBy_perm _ ws').symm)

/-! ## Counts -/

/-- The working days of all transitions, added up in 32 bits. -/
def workingDaySum (ts : List ReopenTransition) : UInt32 :=
  (ts.map ReopenTransition.workingDays).foldl (· + ·) 0

section

variable {ts ts' : List ReopenTransition}

theorem distinctIssues_perm (h : ts.Perm ts') : distinctIssues ts = distinctIssues ts' := by
  have hset : Std.ExtTreeSet.ofList (ts.map ReopenTransition.issue) =
      Std.ExtTreeSet.ofList (ts'.map ReopenTransition.issue) := by
    refine Std.ExtTreeSet.ext_mem fun issue => ?_
    rw [Std.ExtTreeSet.mem_ofList, Std.ExtTreeSet.mem_ofList, List.contains_iff_mem,
      List.contains_iff_mem, (h.map _).mem_iff]
  rw [distinctIssues, distinctIssues, hset]

theorem workingDaySum_perm (h : ts.Perm ts') : workingDaySum ts = workingDaySum ts' :=
  (h.map _).foldl_eq 0

/-! ## Summaries -/

/-- The summary of transitions whose dwell times, in ascending order, are as given. -/
def ReopenSummary.ofAscending (ts : List ReopenTransition) (dwell : List Float) : ReopenSummary :=
  let total := dwell.foldl (· + ·) (-0.0)
  let mean (sum : Float) : Option Float :=
    if ts.isEmpty then none else some (sum / Float.ofNat ts.length)
  { transitions := ts.length
    reopenedIssues := distinctIssues ts
    totalDwellHours := total
    meanDwellHours := mean total
    medianDwellHours := median dwell
    maxDwellHours := dwell.getLast?
    meanDwellWorkingDays := mean (Float.ofNat (workingDaySum ts).toNat) }

theorem ofTransitions_eq_ofAscending (ts : List ReopenTransition) :
    ReopenSummary.ofTransitions ts =
      .ofAscending ts (Order.sortBy dwellLe (ts.map ReopenTransition.dwellHours)) := rfl

theorem ofAscending_perm (h : ts.Perm ts') (dwell : List Float) :
    ReopenSummary.ofAscending ts dwell = .ofAscending ts' dwell := by
  have hempty : ts.isEmpty = ts'.isEmpty := by
    rw [Bool.eq_iff_iff, List.isEmpty_iff, List.isEmpty_iff]
    exact ⟨fun hts => (hts ▸ h).nil_eq.symm, fun hts => (hts ▸ h).eq_nil⟩
  simp only [ReopenSummary.ofAscending, hempty, h.length_eq, distinctIssues_perm h,
    workingDaySum_perm h]

/-- The summary of transitions with their dwell times as patterns of 64 bits, in place of the ones
that they carry. -/
def ReopenSummary.ofPatterns (ps : List (ReopenTransition × UInt64)) : ReopenSummary :=
  .ofAscending (ps.map Prod.fst) ((Order.sortBy patternLe (ps.map Prod.snd)).map Float.ofBits)

theorem ofPatterns_perm {ps ps' : List (ReopenTransition × UInt64)} (h : ps.Perm ps') :
    ReopenSummary.ofPatterns ps = .ofPatterns ps' := by
  rw [ReopenSummary.ofPatterns, ReopenSummary.ofPatterns, sortBy_patternLe_perm (h.map _),
    ofAscending_perm (h.map _)]

theorem ofPatterns_toBits (ts : List ReopenTransition) :
    ReopenSummary.ofPatterns (ts.map fun t => (t, t.dwellHours.toBits)) = .ofTransitions ts := by
  have hbits : (ts.map ReopenTransition.dwellHours).map Float.toBits =
      (ts.map fun t => (t, t.dwellHours.toBits)).map Prod.snd := by
    rw [List.map_map, List.map_map]
    rfl
  rw [ofTransitions_eq_ofAscending, ReopenSummary.ofPatterns, ← hbits,
    ← Order.map_sortBy (f := Float.toBits) patternLe (fun x y => (dwellLe_eq x y).symm),
    List.map_map, List.map_map]
  simp only [Function.comp_def, Float.ofBits_toBits, List.map_id']

/-- The dwell times are compared as patterns, so that two zeros of different sign, and two NaNs, do
not count as one. -/
theorem ofTransitions_eq_of_perm (h : ts.Perm ts') :
    ReopenSummary.ofTransitions ts = .ofTransitions ts' := by
  rw [← ofPatterns_toBits, ← ofPatterns_toBits, ofPatterns_perm (h.map _)]

end

/-- A summary is the same for every order of the transitions, in every bit. Of the patterns of a
NaN this is said of each, and a list of floats is one of patterns. -/
theorem ofTransitions_perm :
    (∀ ts ts' : List ReopenTransition, ts.Perm ts' →
      ReopenSummary.ofTransitions ts = .ofTransitions ts') ∧
    (∀ ps ps' : List (ReopenTransition × UInt64), ps.Perm ps' →
      ReopenSummary.ofPatterns ps = .ofPatterns ps') ∧
    ∀ ts : List ReopenTransition,
      ReopenSummary.ofPatterns (ts.map fun t => (t, t.dwellHours.toBits)) = .ofTransitions ts := by
  exact ⟨fun ts ts' => ofTransitions_eq_of_perm, fun ps ps' => ofPatterns_perm, ofPatterns_toBits⟩

/-- A reopen one day after the closure, with any dwell time. -/
def dwelling (number : String) (dwellHours : Float) : ReopenTransition :=
  ⟨⟨number, "A"⟩, Calendar.midnight 2, Calendar.midnight 3, dwellHours⟩

/-- Dwell times with another sum when they are added up from the last to the first. -/
def unevenDwells : List ReopenTransition :=
  [dwelling "D-1" 1, dwelling "D-2" 1, dwelling "D-1" 9007199254740992]

/-- A positive NaN, a negative zero, a negative NaN and a positive zero. -/
def nanPatterns : List (ReopenTransition × UInt64) :=
  [0x7FF8000000000001, 0x8000000000000000, 0xFFF8000000000000, 0].map (dwelling "D-1" 0, ·)

theorem ofTransitions_perm_unevenDwells :
    unevenDwells.Perm unevenDwells.reverse ∧
      (unevenDwells.map ReopenTransition.dwellHours).foldl (· + ·) (-0.0) ≠
        (unevenDwells.reverse.map ReopenTransition.dwellHours).foldl (· + ·) (-0.0) ∧
      ReopenSummary.ofTransitions unevenDwells = .ofTransitions unevenDwells.reverse ∧
      nanPatterns.Perm nanPatterns.reverse ∧
      Order.sortBy patternLe (nanPatterns.map Prod.snd) =
        [0xFFF8000000000000, 0x8000000000000000, 0, 0x7FF8000000000001] ∧
      ReopenSummary.ofPatterns nanPatterns = .ofPatterns nanPatterns.reverse := by
  have huneven : unevenDwells.Perm unevenDwells.reverse := (List.reverse_perm _).symm
  have hnans : nanPatterns.Perm nanPatterns.reverse := (List.reverse_perm _).symm
  obtain ⟨hfloats, hpatterns, -⟩ := ofTransitions_perm
  exact ⟨huneven, by decide +kernel, hfloats _ _ huneven, hnans, by decide +kernel,
    hpatterns _ _ hnans⟩

end IssueFlow.Quality
