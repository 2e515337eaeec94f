import IssueFlow.Proofs.Order.Maps
import IssueFlow.Serial.Data

/-!
# Reading written data

Every reader meets its writer. A field of a written record is found by its name (`required_cons`,
`orElse_cons`, `nullable_cons`), and a list, a set or a map is read back if what it holds is
(`list?_ofList`, `texts?_ofTexts`, `mapBy?_ofMapBy`). A missing value is written as null, so it is
read back if no other value is written so (`optional?_ofOption`).
-/

namespace IssueFlow.Serial

open IssueFlow.Rules

variable {α β κ : Type} {read : Data → Option α} {write : α → Data}

/-! ## Fields -/

/-- A value that may be null. -/
def Data.optional? (read : Data → Option α) : Data → Option (Option α)
  | null => some none
  | d => (read d).map some

@[simp] theorem Data.fields?_record (surplus : Surplus) (names : List String) (fields : Fields) :
    (record fields).fields? surplus names =
      if names.all (Fields.hasOnce fields) then some fields else none := rfl

namespace Fields

variable (name other : String) (d : Data) (fields : Fields) (read : Data → Option α)

@[simp] theorem hasOnce_eq : hasOnce fields name =
    decide (fields.countP (fun field => field.1 == name) ≤ 1) := rfl

theorem lookup_cons : ((other, d) :: fields).lookup name =
    if name = other then some d else fields.lookup name := by
  rw [List.lookup_cons]
  split
  · next h => rw [if_pos (eq_of_beq h)]
  · next h => rw [if_neg (by simpa using h)]

theorem required_cons : required ((other, d) :: fields) name read =
    if name = other then read d else required fields name read := by
  rw [required, lookup_cons]
  split <;> rfl

theorem orElse_cons (missing : α) : orElse ((other, d) :: fields) name missing read =
    if name = other then read d else orElse fields name missing read := by
  rw [orElse, lookup_cons]
  by_cases h : name = other
  · rw [if_pos h, if_pos h]
  · rw [if_neg h, if_neg h, orElse]

theorem nullable_cons : nullable ((other, d) :: fields) name read =
    if name = other then d.optional? read else nullable fields name read := by
  rw [nullable, lookup_cons]
  by_cases h : name = other
  · rw [if_pos h, if_pos h]
    cases d <;> rfl
  · rw [if_neg h, if_neg h, nullable]

end Fields

/-! ## Values -/

namespace Data

@[simp] theorem text?_text (s : String) : (text s).text? = some s := rfl

@[simp] theorem word?_ofWord (n : UInt32) : (ofWord n).word? = some n := by
  have hlt : n.toNat < 0x100000000 := n.toNat_lt
  simp only [ofWord, word?]
  rw [if_pos (by omega), Int.toNat_natCast, UInt32.ofNat_toNat]

theorem optional?_ofOption {o : Option α} (hnull : ∀ a, write a ≠ null)
    (h : ∀ a ∈ o, read (write a) = some a) : (ofOption write o).optional? read = some o := by
  cases o with
  | none => rfl
  | some a =>
    have hread := h a rfl
    have hne := hnull a
    rw [ofOption]
    generalize write a = d at hread hne
    cases d with
    | null => exact absurd rfl hne
    | _ => simp [optional?, hread]

@[simp] theorem optional?_ofOption_text (o : Option String) :
    (ofOption text o).optional? text? = some o :=
  optional?_ofOption (fun _ => by simp) fun _ _ => rfl

theorem readAll_map {xs : List α} (h : ∀ a ∈ xs, read (write a) = some a) :
    readAll read (xs.map write) = some xs := by
  induction xs with
  | nil => rfl
  | cons a xs ih =>
    obtain ⟨ha, hxs⟩ := List.forall_mem_cons.1 h
    rw [List.map_cons, readAll, ha, ih hxs]
    rfl

theorem list?_ofList {xs : List α} (h : ∀ a ∈ xs, read (write a) = some a) :
    (ofList write xs).list? read = some xs := readAll_map h

@[simp] theorem list?_ofList_text (xs : List String) : (ofList text xs).list? text? = some xs :=
  list?_ofList fun _ _ => rfl

@[simp] theorem texts?_ofTexts (s : TextSet) : (ofTexts s).texts? = some s := by
  rw [texts?, ofTexts, list?_ofList_text, Option.map_some, Order.setOfList_toList]

/-! ## Maps -/

theorem readEntries_map {key : String → Option κ} {keyText : κ → String} {read : Data → Option β}
    {write : β → Data} {entries : List (κ × β)} (hkey : ∀ k, key (keyText k) = some k)
    (h : ∀ entry ∈ entries, read (write entry.2) = some entry.2) :
    readEntries key read (entries.map fun entry => (keyText entry.1, write entry.2)) =
      some entries := by
  induction entries with
  | nil => rfl
  | cons entry entries ih =>
    obtain ⟨hentry, hentries⟩ := List.forall_mem_cons.1 h
    rw [List.map_cons, readEntries, hkey, hentry, ih hentries]
    rfl

section

variable [Ord κ] [Std.TransOrd κ] [Std.LawfulEqOrd κ] [BEq κ] [Std.LawfulBEqOrd κ]

theorem mapBy?_ofMapBy {key : String → Option κ} {keyText : κ → String} {read : Data → Option β}
    {write : β → Data} {m : Std.ExtTreeMap κ β} (hkey : ∀ k, key (keyText k) = some k)
    (h : ∀ entry ∈ m.toList, read (write entry.2) = some entry.2) :
    (ofMapBy keyText write m).mapBy? key read = some m := by
  rw [ofMapBy, mapBy?, readEntries_map hkey h, Option.map_some, Order.ofList_toList]

end

theorem map?_ofMap {read : Data → Option β} {write : β → Data} {m : Std.ExtTreeMap String β}
    (h : ∀ entry ∈ m.toList, read (write entry.2) = some entry.2) :
    (ofMap write m).map? read = some m :=
  mapBy?_ofMapBy (fun _ => rfl) h

end Data

end IssueFlow.Serial
