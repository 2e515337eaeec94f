import IssueFlow.Proofs.Delivery.Cycle
import IssueFlow.Proofs.Text.Ascii
import Mathlib.Data.List.Chain

/-!
# Repeated completions

The cut of cycles compares statuses by their lower-case keys. A status that is entered again, as a
tracker compares statuses, always starts a new cycle. The converse is a matter of the project: two
of its completion values may differ to a tracker and have one key, and then an issue that enters
one after the other starts a new cycle without any repeat. Cycles start on repeats only just if the
project has no such values (`startsOnRepeat_iff`). Values in ASCII are never such ones
(`keysAgree_of_isAscii`).
-/

namespace IssueFlow.Rules

open IssueFlow.Text

/-- The values that complete a cycle. -/
def Classification.completionValues (c : Classification) : TextSet :=
  if c.completion.isEmpty then c.closed else c.completion

theorem Classification.isCompletion_iff {c : Classification} {status : String} :
    c.isCompletion status = true ↔ ∃ v ∈ c.completionValues, sameValue v status = true := by
  unfold isCompletion completionValues
  split <;> simp [isClosed, TextSet.holds, containsValue]

/-- Completion values with one lower-case key are equal to a tracker. -/
def Classification.KeysAgree (c : Classification) : Prop :=
  ∀ v ∈ c.completionValues, ∀ w ∈ c.completionValues, lowerKey v = lowerKey w →
    sameValue v w = true

/-- Where the keys of the values agree, so do those of the statuses that match them. -/
theorem Classification.KeysAgree.sameValue {c : Classification} {a b : String} (h : c.KeysAgree)
    (ha : c.isCompletion a = true) (hb : c.isCompletion b = true) (hkey : lowerKey a = lowerKey b) :
    sameValue a b = true := by
  obtain ⟨v, hv, hva⟩ := isCompletion_iff.1 ha
  obtain ⟨w, hw, hwb⟩ := isCompletion_iff.1 hb
  have hkeys : lowerKey v = lowerKey w := by
    rw [lowerKey_eq_of_sameValue hva, lowerKey_eq_of_sameValue hwb, hkey]
  rw [sameValue_comm] at hva
  exact sameValue_trans (sameValue_trans hva (h v hv w hw hkeys)) hwb

theorem Classification.keysAgree_of_isAscii {c : Classification}
    (h : ∀ v ∈ c.completionValues, IsAscii v.toList) : c.KeysAgree :=
  fun v hv w hw hkey => (sameValue_iff_lowerKey_eq (h v hv) (h w hw)).2 hkey

end IssueFlow.Rules

namespace IssueFlow.Delivery

open IssueFlow.Text IssueFlow.Calendar IssueFlow.Tracker IssueFlow.Rules

/-- Every cycle but the first starts with a status that the cycle before it has entered, as a
tracker compares statuses. -/
def StartsOnRepeat (c : Classification) (h : ResolvedHistory) : Prop :=
  ∀ blocks, CutsInto (completions c h) blocks →
    blocks.IsChain fun a b => ∃ e ∈ a.events, sameValue e.new b.first.new = true

/-- No completion repeats the status of an earlier one, as a tracker compares statuses. -/
def NoneRepeated (c : Classification) (h : ResolvedHistory) : Prop :=
  (completions c h).Pairwise fun e f => sameValue e.new f.new = false

section

variable {c : Classification} {h : ResolvedHistory} {events : List Event} {blocks : List Block}
  {b : Block}

theorem CutsInto.isCompletion_of_mem {e : Event} (hcut : CutsInto (completions c h) blocks)
    (hb : b ∈ blocks) (he : e ∈ b.events) : c.isCompletion e.new = true := by
  have hmem : e ∈ completions c h := hcut.flatMap_eq ▸ List.mem_flatMap_of_mem hb he
  exact (List.mem_filter.1 hmem).2

/-- A cycle enters no status again. -/
theorem CutsInto.pairwise_events (hcut : CutsInto events blocks) (hb : b ∈ blocks) :
    b.events.Pairwise fun e f => sameValue e.new f.new = false := by
  have hdistinct := hcut.distinct b hb
  rw [statuses, List.nodup_iff_pairwise_ne, List.pairwise_map] at hdistinct
  exact hdistinct.imp fun hne => Bool.eq_false_iff.2 fun hsame =>
    hne (lowerKey_eq_of_sameValue hsame)

theorem startsOnRepeat_of_keysAgree (hkeys : c.KeysAgree) : StartsOnRepeat c h := by
  intro blocks hcut
  refine hcut.maximal.imp_of_mem_imp fun a b ha hb hrepeat => ?_
  obtain ⟨e, he, hkey⟩ := List.mem_map.1 hrepeat
  have hfirst := hcut.isCompletion_of_mem hb List.mem_cons_self
  exact ⟨e, he, hkeys.sameValue (hcut.isCompletion_of_mem ha he) hfirst hkey⟩

theorem StartsOnRepeat.length_cycleMinimums_le (hstart : StartsOnRepeat c h) (asc : h.Ascending)
    (hnone : NoneRepeated c h) : (cycleMinimums c h).length ≤ 1 := by
  have hcut := cutsInto_blocksOf (completions c h)
  have hrepeats := hstart _ hcut
  rw [hcut.cycleMinimums_eq asc, List.length_map]
  cases hblocks : blocksOf (completions c h) with
  | nil => exact Nat.zero_le 1
  | cons a rest =>
    cases rest with
    | nil => exact Nat.le_refl 1
    | cons b rest =>
      rw [hblocks] at hrepeats
      obtain ⟨e, he, hsame⟩ := (List.isChain_cons_cons.1 hrepeats).1
      have hfirst : b.first ∈ (b :: rest).flatMap Block.events := List.mem_cons_self
      rw [NoneRepeated, ← hcut.flatMap_eq, hblocks, List.flatMap_cons,
        List.pairwise_append] at hnone
      rw [hnone.2.2 e he b.first hfirst] at hsame
      cases hsame

end

/-- An issue that enters two statuses one after the other, at one instant. -/
def enteredBoth (v w : String) : ResolvedHistory where
  issue := ⟨"S-1", "A"⟩
  events := [⟨"", v, midnight 2⟩, ⟨v, w, midnight 2⟩]
  created := midnight 1
  priority := none
  rootCauses := []

theorem ascending_enteredBoth (v w : String) : (enteredBoth v w).Ascending := by
  simp [ResolvedHistory.Ascending, enteredBoth]

/-- Two completions whose statuses share a key make two cycles. -/
theorem length_cycleMinimums_enteredBoth {c : Classification} {v w : String}
    (hv : c.isCompletion v = true) (hw : c.isCompletion w = true) (hkey : lowerKey v = lowerKey w) :
    completions c (enteredBoth v w) = (enteredBoth v w).events ∧
      (cycleMinimums c (enteredBoth v w)).length = 2 := by
  have hall : completions c (enteredBoth v w) = (enteredBoth v w).events := by
    simp [completions, enteredBoth, hv, hw]
  have hcut : CutsInto (completions c (enteredBoth v w))
      [⟨⟨"", v, midnight 2⟩, []⟩, ⟨⟨v, w, midnight 2⟩, []⟩] := by
    rw [hall]
    refine ⟨rfl, by simp [statuses, Block.events], ?_⟩
    exact .cons_cons (List.mem_singleton.2 hkey.symm) (.singleton _)
  rw [hcut.cycleMinimums_eq (ascending_enteredBoth v w)]
  exact ⟨hall, rfl⟩

theorem startsOnRepeat_iff (c : Classification) :
    (∀ h : ResolvedHistory, ∀ blocks, CutsInto (completions c h) blocks →
      ∀ b ∈ blocks, b.events.Pairwise fun e f => sameValue e.new f.new = false) ∧
    ((∀ h : ResolvedHistory, h.Ascending → StartsOnRepeat c h) ↔ c.KeysAgree) ∧
    ((∀ h : ResolvedHistory, h.Ascending → NoneRepeated c h → (cycleMinimums c h).length ≤ 1) ↔
      c.KeysAgree) := by
  have hsingle (hone : ∀ h : ResolvedHistory, h.Ascending → NoneRepeated c h →
      (cycleMinimums c h).length ≤ 1) : c.KeysAgree := by
    intro v hv w hw hkey
    by_contra hdiffer
    obtain ⟨hall, htwo⟩ := length_cycleMinimums_enteredBoth
      (Classification.isCompletion_iff.2 ⟨v, hv, sameValue_refl v⟩)
      (Classification.isCompletion_iff.2 ⟨w, hw, sameValue_refl w⟩) hkey
    have hnone : NoneRepeated c (enteredBoth v w) := by
      rw [NoneRepeated, hall]
      exact List.pairwise_pair.2 (Bool.eq_false_iff.2 hdiffer)
    have hle := hone _ (ascending_enteredBoth v w) hnone
    omega
  refine ⟨fun h blocks hcut b hb => hcut.pairwise_events hb,
    ⟨fun hstart => ?_, fun hkeys h _ => ?_⟩, ⟨hsingle, fun hkeys h asc hnone => ?_⟩⟩
  · exact hsingle fun h asc hnone => (hstart h asc).length_cycleMinimums_le asc hnone
  · exact startsOnRepeat_of_keysAgree hkeys
  · exact (startsOnRepeat_of_keysAgree hkeys).length_cycleMinimums_le asc hnone

/-- Two completion values that differ in the case of a letter that is not ASCII. -/
def handedOver : Classification := { completion := .ofList ["Übergeben", "übergeben"] }

/-- A story that is handed over, in two writings of the status. -/
def handedOverTwice : ResolvedHistory where
  issue := ⟨"S-1", "A"⟩
  events := [⟨"Open", "Übergeben", midnight 2⟩, ⟨"Übergeben", "übergeben", midnight 3⟩]
  created := midnight 1
  priority := none
  rootCauses := []

theorem cycleMinimums_handedOverTwice :
    handedOverTwice.Ascending ∧ completions handedOver handedOverTwice = handedOverTwice.events ∧
      NoneRepeated handedOver handedOverTwice ∧
      cycleMinimums handedOver handedOverTwice = [midnight 2, midnight 3] := by
  unfold ResolvedHistory.Ascending NoneRepeated
  decide +kernel

end IssueFlow.Delivery
