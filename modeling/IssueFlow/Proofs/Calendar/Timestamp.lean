import IssueFlow.Calendar.Timestamp
import IssueFlow.Proofs.Calendar.Layout

/-!
# Accepted timestamps

A raw timestamp names an instant just if its trimmed text has a spelling that names it, in one of
the four layouts (`Instant.ofLayouts?_eq_some_iff`). The loose layouts accept more than the shapes
for which they stand (`Spelling.Documented`): `Instant.ofRaw_spelled` says what is accepted and what
is refused, and that the shapes decide it just for the texts that are not loosely written. No text
is read in two layouts, so they may be tried in any order (`Instant.ofRawIn`).
-/

namespace IssueFlow.Calendar

open IssueFlow.Text

variable {cs : List Char} {raw : String} {t : Instant}

namespace Instant

theorem ofLayouts?_eq_findSome? (cs : List Char) :
    ofLayouts? cs = Layout.all.findSome? fun l => l.read cs := by
  show (withOffset? cs <|> joinedByT? cs <|> joinedByBlanks? cs <|> dateOnly? cs) = _
  simp only [Layout.all, List.findSome?_cons, List.findSome?_nil, Layout.read]
  cases withOffset? cs <;> cases joinedByT? cs <;> cases joinedByBlanks? cs <;>
    cases dateOnly? cs <;> rfl

theorem ofLayouts?_eq_some_iff_exists_read :
    ofLayouts? cs = some t ↔ ∃ l : Layout, l.read cs = some t := by
  rw [ofLayouts?_eq_findSome?]
  refine ⟨fun h => ?_, fun ⟨l, hl⟩ => ?_⟩
  · obtain ⟨l, -, hl⟩ := List.exists_of_findSome?_eq_some h
    exact ⟨l, hl⟩
  · -- Some layout before or at `l` answers, and no other one does.
    cases hfind : Layout.all.findSome? fun l => l.read cs with
    | none =>
      rw [List.findSome?_eq_none_iff] at hfind
      rw [hfind l l.mem_all] at hl
      cases hl
    | some u =>
      obtain ⟨l', -, hl'⟩ := List.exists_of_findSome?_eq_some hfind
      rw [← hl', Layout.eq_of_read hl' hl, hl]

theorem ofLayouts?_eq_some_iff :
    ofLayouts? cs = some t ↔ ∃ s : Spelling, s.chars = cs ∧ s.time? = some t := by
  simp only [ofLayouts?_eq_some_iff_exists_read, Layout.read_eq_some_iff]
  refine ⟨fun ⟨_, s, _, hs⟩ => ⟨s, hs⟩, fun ⟨s, hs⟩ => ⟨_, s, rfl, hs⟩⟩

end Instant

/-! ## Names of instants -/

namespace Spelling

/-- The spelling of a raw timestamp, blanks around it apart, and the instant that it names. -/
def Names (s : Spelling) (raw : String) (t : Instant) : Prop :=
  s.chars = trimChars raw.toList ∧ s.time? = some t

theorem Names.unique {s s' : Spelling} {u : Instant} (h : s.Names raw t) (h' : s'.Names raw u) :
    s = s' :=
  chars_inj (h.1.trans h'.1.symm)

end Spelling

/-- The text names an instant, but in none of the documented shapes. -/
def LooselyWritten (raw : String) : Prop :=
  ∃ (s : Spelling) (t : Instant), s.Names raw t ∧ ¬ s.Documented

namespace Instant

theorem ofRaw_eq_empty_iff : ofRaw raw = .error .empty ↔ AllBlank raw := by
  rw [← trimChars_toList_eq_nil_iff]
  unfold ofRaw
  cases trimChars raw.toList with
  | nil => simp
  | cons c cs =>
    simp only [List.isEmpty_cons, Bool.false_eq_true, if_false]
    split <;> simp

theorem ofRaw_eq_ok_iff_ofLayouts? :
    ofRaw raw = .ok t ↔ ofLayouts? (trimChars raw.toList) = some t := by
  unfold ofRaw
  cases trimChars raw.toList with
  | nil => exact iff_of_false nofun nofun
  | cons c cs =>
    simp only [List.isEmpty_cons, Bool.false_eq_true, if_false]
    split <;> simp [*]

theorem ofRaw_eq_ok_iff_exists_read :
    ofRaw raw = .ok t ↔ ∃ l : Layout, l.read (trimChars raw.toList) = some t :=
  ofRaw_eq_ok_iff_ofLayouts?.trans ofLayouts?_eq_some_iff_exists_read

theorem ofRaw_eq_ok_iff : ofRaw raw = .ok t ↔ ∃ s : Spelling, s.Names raw t :=
  ofRaw_eq_ok_iff_ofLayouts?.trans ofLayouts?_eq_some_iff

theorem ofRaw_eq_unrecognised_iff {text : String} :
    ofRaw raw = .error (.unrecognised text) ↔
      ¬ AllBlank raw ∧ (∀ (s : Spelling) (t : Instant), ¬ s.Names raw t) ∧ text = trim raw := by
  have hnone : (∀ (s : Spelling) (t : Instant), ¬ s.Names raw t) ↔
      ofLayouts? (trimChars raw.toList) = none := by
    simp only [Option.eq_none_iff_forall_ne_some, ne_eq, ofLayouts?_eq_some_iff, not_exists]
    exact forall_comm
  rw [hnone, ← trimChars_toList_eq_nil_iff]
  unfold ofRaw trim
  cases trimChars raw.toList with
  | nil => simp
  | cons c cs =>
    simp only [List.isEmpty_cons, Bool.false_eq_true, if_false]
    split <;> simp [*, eq_comm]

/-- The raw timestamp is treated as documented: it is accepted just if it names an instant in one of
the documented shapes, and any other text that is not blank is handed back trimmed. -/
structure AsDocumented (raw : String) : Prop where
  accepted : (∃ t, ofRaw raw = .ok t) ↔
    ∃ (s : Spelling) (t : Instant), s.Documented ∧ s.Names raw t
  refused : ¬ AllBlank raw →
    (∀ (s : Spelling) (t : Instant), s.Documented → ¬ s.Names raw t) →
    ofRaw raw = .error (.unrecognised (trim raw))

theorem not_asDocumented_of_looselyWritten (h : LooselyWritten raw) : ¬ AsDocumented raw := by
  obtain ⟨s, t, hnames, hloose⟩ := h
  intro hdocumented
  obtain ⟨s', u, hshape, hnames'⟩ := hdocumented.accepted.1 ⟨t, ofRaw_eq_ok_iff.2 ⟨s, hnames⟩⟩
  exact hloose (hnames.unique hnames' ▸ hshape)

theorem asDocumented_of_not_looselyWritten (h : ¬ LooselyWritten raw) : AsDocumented raw := by
  have hshape {s : Spelling} {t : Instant} (hnames : s.Names raw t) : s.Documented := by
    by_contra hloose
    exact h ⟨s, t, hnames, hloose⟩
  refine ⟨⟨fun ⟨t, ht⟩ => ?_, fun ⟨s, t, _, hnames⟩ => ?_⟩, fun hblank hnone => ?_⟩
  · obtain ⟨s, hnames⟩ := ofRaw_eq_ok_iff.1 ht
    exact ⟨s, t, hshape hnames, hnames⟩
  · exact ⟨t, ofRaw_eq_ok_iff.2 ⟨s, hnames⟩⟩
  · rw [ofRaw_eq_unrecognised_iff]
    exact ⟨hblank, fun s t hnames => hnone s t (hshape hnames) hnames, rfl⟩

/-- What is accepted, what is refused and how, and which texts the documented shapes decide. -/
theorem ofRaw_spelled (raw : String) :
    (∀ t, ofRaw raw = .ok t ↔ ∃ s : Spelling, s.Names raw t) ∧
      (∀ text, ofRaw raw = .error (.unrecognised text) ↔ ¬ AllBlank raw ∧
        (∀ (s : Spelling) (t : Instant), ¬ s.Names raw t) ∧ text = trim raw) ∧
      (ofRaw raw = .error .empty ↔ AllBlank raw) ∧
      (AsDocumented raw ↔ ¬ LooselyWritten raw) := by
  refine ⟨fun t => ofRaw_eq_ok_iff, fun text => ofRaw_eq_unrecognised_iff, ofRaw_eq_empty_iff, ?_⟩
  exact ⟨fun h hloose => not_asDocumented_of_looselyWritten hloose h,
    asDocumented_of_not_looselyWritten⟩

/-- Two digits of a year are taken for all of it. -/
theorem not_asDocumented_shortYear :
    (ofRaw "24-01-03").map Instant.text = .ok "0024-01-03T00:00:00Z" ∧
      ¬ AsDocumented "24-01-03" := by
  have hread : (ofRaw "24-01-03").map Instant.text = .ok "0024-01-03T00:00:00Z" := by
    decide +kernel
  refine ⟨hread, fun hdocumented => ?_⟩
  cases hraw : ofRaw "24-01-03" with
  | error e =>
    rw [hraw] at hread
    cases hread
  | ok t =>
    obtain ⟨s, u, hshape, hchars, -⟩ := hdocumented.accepted.1 ⟨t, hraw⟩
    have hlength : (trimChars "24-01-03".toList).length = 8 := by decide
    have hlong := hshape.ten_le_length
    rw [hchars] at hlong
    omega

/-! ## The order of the layouts -/

/-- The instant that a raw timestamp names if its layouts are tried in the given order. -/
def ofRawIn (order : List Layout) (raw : String) : Except TimestampError Instant :=
  let cs := trimChars raw.toList
  if cs.isEmpty then .error .empty
  else
    match order.findSome? fun l => l.read cs with
    | some t => .ok t
    | none => .error (.unrecognised (String.ofList cs))

/-- The layouts may be tried in any order in which each of them has its turn. -/
theorem findSome?_read_eq_ofLayouts? {order : List Layout} (h : ∀ l, l ∈ order) :
    (order.findSome? fun l => l.read cs) = ofLayouts? cs := by
  cases hfind : order.findSome? fun l => l.read cs with
  | none =>
    rw [List.findSome?_eq_none_iff] at hfind
    refine (Option.eq_none_iff_forall_ne_some.2 fun t ht => ?_).symm
    obtain ⟨l, hl⟩ := ofLayouts?_eq_some_iff_exists_read.1 ht
    rw [hfind l (h l)] at hl
    cases hl
  | some t =>
    obtain ⟨l, -, hl⟩ := List.exists_of_findSome?_eq_some hfind
    exact (ofLayouts?_eq_some_iff_exists_read.2 ⟨l, hl⟩).symm

theorem ofRawIn_eq_ofRaw {order : List Layout} (h : ∀ l, l ∈ order) :
    ofRawIn order raw = ofRaw raw := by
  unfold ofRawIn
  simp only [findSome?_read_eq_ofLayouts? h]
  rfl

theorem ofRaw_blanks_append {before after : String} (hbefore : AllBlank before)
    (hafter : AllBlank after) : ofRaw (before ++ raw ++ after) = ofRaw raw := by
  have htrim : trimChars (before ++ raw ++ after).toList = trimChars raw.toList := by
    rw [String.toList_append, String.toList_append, trimChars_blanks_append hbefore hafter]
  unfold ofRaw
  rw [htrim]

/-- A raw timestamp is accepted by the one layout that reads it, so neither the order of the layouts
nor the blanks around the text make a difference. -/
theorem ofRaw_anyOrder (raw : String) :
    (∀ l l' : Layout, (l.read (trimChars raw.toList)).isSome →
        (l'.read (trimChars raw.toList)).isSome → l = l') ∧
      (∀ t, ofRaw raw = .ok t ↔ ∃ l : Layout, l.read (trimChars raw.toList) = some t ∧
        ∀ l' : Layout, l' ≠ l → l'.read (trimChars raw.toList) = none) ∧
      (∀ order : List Layout, (∀ l, l ∈ order) → ofRawIn order raw = ofRaw raw) ∧
      ∀ before after, AllBlank before → AllBlank after →
        ofRaw (before ++ raw ++ after) = ofRaw raw := by
  have hone (l l' : Layout) (hl : (l.read (trimChars raw.toList)).isSome)
      (hl' : (l'.read (trimChars raw.toList)).isSome) : l = l' := by
    obtain ⟨t, ht⟩ := Option.isSome_iff_exists.1 hl
    obtain ⟨u, hu⟩ := Option.isSome_iff_exists.1 hl'
    exact Layout.eq_of_read ht hu
  refine ⟨hone, fun t => ?_, fun order h => ofRawIn_eq_ofRaw h, fun before after hbefore hafter =>
    ofRaw_blanks_append hbefore hafter⟩
  rw [ofRaw_eq_ok_iff_exists_read]
  refine ⟨fun ⟨l, hl⟩ => ⟨l, hl, fun l' hne => ?_⟩, fun ⟨l, hl, _⟩ => ⟨l, hl⟩⟩
  by_contra hread
  have hl' := Option.isSome_iff_ne_none.2 hread
  exact hne (hone l' l hl' (hl ▸ rfl))

/-- A text that only the layout with blanks reads, with more kinds of blanks around it and the
layouts tried from the last to the first. -/
theorem ofRaw_anyOrder_reversed :
    (ofRaw "2024-1-3\u2003 9:05:07.5").map text = .ok "2024-01-03T09:05:07.500Z" ∧
      (∀ l : Layout, (l.read (trimChars "2024-1-3\u2003 9:05:07.5".toList)).isSome →
        l = .joinedByBlanks) ∧
      ofRawIn Layout.all.reverse "2024-1-3\u2003 9:05:07.5" =
        ofRaw "2024-1-3\u2003 9:05:07.5" ∧
      AllBlank "\u00a0\t" ∧ AllBlank "\u3000" ∧
      ofRaw ("\u00a0\t" ++ "2024-1-3\u2003 9:05:07.5" ++ "\u3000") =
        ofRaw "2024-1-3\u2003 9:05:07.5" := by
  obtain ⟨hone, -, horder, hblanks⟩ := ofRaw_anyOrder "2024-1-3\u2003 9:05:07.5"
  have hread : (Layout.joinedByBlanks.read
      (trimChars "2024-1-3\u2003 9:05:07.5".toList)).isSome := by
    decide +kernel
  refine ⟨by decide +kernel, fun l hl => hone l _ hl hread, horder _ fun l => ?_, by decide,
    by decide, hblanks _ _ (by decide) (by decide)⟩
  exact List.mem_reverse.2 l.mem_all

end Instant

end IssueFlow.Calendar
