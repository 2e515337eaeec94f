import IssueFlow.Flow.Aging
import IssueFlow.Proofs.Flow.Keys
import IssueFlow.Proofs.Order.Maps
import Mathlib.Data.List.Count
import Mathlib.Data.List.Induction

/-!
# Ages of the issues of an index

A report counts the issues that an index places under a value on a date, each in one bucket
(`countIn_ageBuckets`). What a replay places, it places for a record whose creation can be read, so
a report on a replay of the same records counts every issue of the date once
(`totalIn_ageBuckets_replay`).

Which record an issue is aged by is settled by its key alone: the last record shown as the key whose
creation can be read (`agingRecord?`). A replay takes the first record of the identity. So an issue
is counted in the bucket of the record that was replayed for it just if these two records fall into
one bucket (`countedIn_replay_iff`).
-/

namespace IssueFlow.Tracker

open IssueFlow.Calendar

/-- The date of the creation in UTC, if it can be read. -/
def IssueHistory.createdOn? (raw : IssueHistory) : Option Date :=
  (Instant.ofRaw raw.created).toOption.map Instant.date

theorem IssueHistory.exists_createdOn? {raw : IssueHistory} {h : ResolvedHistory}
    (hr : raw.resolve = .ok h) : ∃ created, raw.createdOn? = some created := by
  obtain ⟨created, -, hc, -⟩ := resolve_eq_ok_iff.1 hr
  exact ⟨created.date, by rw [createdOn?, hc]; rfl⟩

end IssueFlow.Tracker

namespace IssueFlow.Flow

open IssueFlow.Calendar IssueFlow.Tracker IssueFlow.Rules IssueFlow.Order

/-! ## Creation dates -/

/-- The record that an issue is aged by: of those that are shown as its key and whose creation can
be read, the last. -/
def agingRecord? (histories : List IssueHistory) (key : String) : Option IssueHistory :=
  (histories.filter fun x => x.issue.display = key ∧ x.createdOn?.isSome).getLast?

section

variable {histories : List IssueHistory} {key : String} {raw x : IssueHistory} {d : Date}

theorem creationDates_concat : creationDates (histories ++ [x]) =
    match x.createdOn? with
    | some d => (creationDates histories).insert x.issue.display d
    | none => creationDates histories := by
  rw [creationDates, creationDates, List.foldl_concat, IssueHistory.createdOn?]
  cases Instant.ofRaw x.created <;> rfl

theorem agingRecord?_concat : agingRecord? (histories ++ [x]) key =
    if x.issue.display = key ∧ x.createdOn?.isSome then some x else agingRecord? histories key := by
  rw [agingRecord?, agingRecord?, List.filter_append]
  split
  · next h => rw [List.filter_cons_of_pos (by simpa using h), List.filter_nil, List.getLast?_concat]
  · next h => rw [List.filter_cons_of_neg (by simpa using h), List.filter_nil, List.append_nil]

theorem getElem?_creationDates (histories : List IssueHistory) (key : String) :
    (creationDates histories)[key]? = (agingRecord? histories key).bind (·.createdOn?) := by
  induction histories using List.reverseRecOn with
  | nil => simp [creationDates, agingRecord?]
  | append_singleton histories x ih =>
    rw [creationDates_concat, agingRecord?_concat]
    cases hx : x.createdOn? with
    | none => simpa using ih
    | some created =>
      rw [Std.ExtTreeMap.getElem?_insert]
      by_cases hkey : x.issue.display = key
      · simp [hkey, hx]
      · simp [hkey, ih]

/-- Of records that are shown differently, the order does not settle what an issue is aged by. -/
theorem creationDates_perm {xs ys : List IssueHistory} (h : xs.Perm ys)
    (hxs : xs.Pairwise fun x y => x.issue.display ≠ y.issue.display) :
    creationDates xs = creationDates ys := by
  refine Std.ExtTreeMap.ext_getElem? fun key => ?_
  rw [getElem?_creationDates, getElem?_creationDates, agingRecord?, agingRecord?,
    filter_eq_of_perm h hxs]
  simp only [decide_eq_true_eq]
  rintro x y ⟨hx, -⟩ ⟨hy, -⟩
  rw [hx, hy]

theorem mem_of_agingRecord? (h : agingRecord? histories key = some raw) :
    raw ∈ histories ∧ raw.issue.display = key ∧ raw.createdOn?.isSome := by
  simpa using List.mem_filter.1 (List.mem_of_getLast? h)

/-- A record whose creation can be read has one that its issue is aged by. -/
theorem exists_agingRecord? (hraw : raw ∈ histories) (hread : raw.createdOn?.isSome) :
    ∃ last, agingRecord? histories raw.issue.display = some last ∧ last.createdOn?.isSome := by
  have hmem : raw ∈ histories.filter fun x =>
      x.issue.display = raw.issue.display ∧ x.createdOn?.isSome :=
    List.mem_filter.2 ⟨hraw, by simpa using hread⟩
  obtain ⟨last, hlast⟩ :=
    Option.isSome_iff_exists.1 (List.getLast?_isSome.2 (List.ne_nil_of_mem hmem))
  exact ⟨last, hlast, (mem_of_agingRecord? hlast).2.2⟩

end

/-! ## Buckets -/

/-- The bucket of an issue with this record on a date, if its creation can be read. -/
def bucketOn? (asOf : Date) (raw : IssueHistory) : Option AgeBucket :=
  raw.createdOn?.map fun created => .ofDays (asOf.number - created.number)

/-- The bucket in which an issue is counted on a date. -/
def bucketOf? (histories : List IssueHistory) (asOf : Date) (key : String) : Option AgeBucket :=
  (agingRecord? histories key).bind (bucketOn? asOf)

theorem bucketOf?_eq (histories : List IssueHistory) (asOf : Date) (key : String) :
    bucketOf? histories asOf key = (creationDates histories)[key]?.map fun created =>
      .ofDays (asOf.number - created.number) := by
  rw [getElem?_creationDates, Option.map_bind]
  rfl

/-- One more issue in its bucket, if it has one. -/
def AgeCounts.add (counts : AgeCounts) : Option AgeBucket → AgeCounts
  | none => counts
  | some b => counts.alter b fun n => some (n.getD 0 + 1)

theorem AgeCounts.getD_add (counts : AgeCounts) (bucket : Option AgeBucket) (b : AgeBucket) :
    (counts.add bucket).getD b 0 = counts.getD b 0 + if bucket = some b then 1 else 0 := by
  cases bucket with
  | none => simp [add]
  | some b' =>
    rw [add, Std.ExtTreeMap.getD_alter]
    by_cases h : b' = b
    · simp [h, Std.ExtTreeMap.getD_eq_getD_getElem?]
    · simp [h]

theorem countAges_eq_foldl_add (histories : List IssueHistory) (asOf : Date) (keys : List String) :
    countAges (creationDates histories) asOf keys =
      keys.foldl (fun counts key => counts.add (bucketOf? histories asOf key)) ∅ := by
  unfold countAges
  congr 1
  funext counts key
  rw [bucketOf?_eq]
  cases (creationDates histories)[key]? <;> rfl

/-- The buckets of a report hold numbers of issues. -/
theorem getD_countAges (histories : List IssueHistory) (asOf : Date) (keys : List String)
    (b : AgeBucket) : (countAges (creationDates histories) asOf keys).getD b 0 =
      keys.countP fun key => bucketOf? histories asOf key = some b := by
  have hfold (counts : AgeCounts) :
      (keys.foldl (fun counts key => counts.add (bucketOf? histories asOf key)) counts).getD b 0 =
        counts.getD b 0 + keys.countP fun key => bucketOf? histories asOf key = some b := by
    induction keys generalizing counts with
    | nil => rfl
    | cons key keys ih =>
      rw [List.foldl_cons, ih, AgeCounts.getD_add, List.countP_cons, Nat.add_assoc,
        Nat.add_comm (List.countP _ _)]
      simp only [decide_eq_true_eq]
  rw [countAges_eq_foldl_add, hfold, Std.ExtTreeMap.getD_empty, Nat.zero_add]

/-! ## Reports -/

variable {s : ClassificationSet} {request : ReplayRequest} {grouping : Grouping}
  {histories : List IssueHistory} {raw : IssueHistory} {x : FlowIndex} {asOf : Date}
  {value key : String} {b : AgeBucket}

theorem getElem?_ageBuckets (x : FlowIndex) (histories : List IssueHistory) (asOf : Date)
    (value : String) : (ageBuckets x histories asOf)[value]? =
      (x.issuesOn? value asOf).map fun keys =>
        countAges (creationDates histories) asOf keys.toList := by
  have hread := getElem?_ofList_filterMap x.entries (fun column => column[asOf]?.map fun keys =>
    countAges (creationDates histories) asOf keys.toList) value
  simp only [Option.map_map] at hread
  rw [FlowIndex.issuesOn?, Option.map_bind, ageBuckets, FlowIndex.onDate, List.map_filterMap]
  simp only [Option.map_map]
  exact hread

/-- The number of issues in a bucket of a value. -/
def countIn (report : Std.ExtTreeMap String AgeCounts) (value : String) (b : AgeBucket) : Nat :=
  (report.getD value ∅).getD b 0

/-- The number of issues in all buckets of a value. -/
def totalIn (report : Std.ExtTreeMap String AgeCounts) (value : String) : Nat :=
  AgeBucket.all.foldr (fun b n => countIn report value b + n) 0

/-- The issues that the index holds under a value on a date, in order. -/
def keysOn (x : FlowIndex) (value : String) (date : Date) : List String :=
  ((x.issuesOn? value date).map Std.ExtTreeSet.toList).getD []

theorem countIn_ageBuckets (x : FlowIndex) (histories : List IssueHistory) (asOf : Date)
    (value : String) (b : AgeBucket) : countIn (ageBuckets x histories asOf) value b =
      (keysOn x value asOf).countP fun key => bucketOf? histories asOf key = some b := by
  have hcounts := getElem?_ageBuckets x histories asOf value
  rw [countIn, keysOn, Std.ExtTreeMap.getD_eq_getD_getElem? (a := value), hcounts]
  cases x.issuesOn? value asOf with
  | none => simp
  | some keys => exact getD_countAges histories asOf keys.toList b

/-- Each issue with a bucket is in one of them. -/
theorem foldr_countP_all (f : String → Option AgeBucket) (keys : List String) :
    AgeBucket.all.foldr (fun b n => (keys.countP fun key => f key = some b) + n) 0 =
      keys.countP fun key => (f key).isSome := by
  induction keys with
  | nil => rfl
  | cons key keys ih =>
    rw [List.countP_cons, ← ih]
    simp only [AgeBucket.all, List.foldr_cons, List.foldr_nil, List.countP_cons]
    cases f key with
    | none => simp
    | some b => cases b <;> simp <;> omega

theorem totalIn_ageBuckets (x : FlowIndex) (histories : List IssueHistory) (asOf : Date)
    (value : String) : totalIn (ageBuckets x histories asOf) value =
      (keysOn x value asOf).countP fun key => (bucketOf? histories asOf key).isSome := by
  simp only [totalIn, countIn_ageBuckets, foldr_countP_all]

/-! ## Reports on a replay -/

/-- A record that places its issue has one that the issue is aged by. -/
theorem isSome_bucketOf?_of_holds {d : Date}
    (h : (replay s request grouping histories).index.Holds value d key) :
    (bucketOf? histories asOf key).isSome := by
  obtain ⟨-, -, -, -, raw, hraw, rfl, resolved, hr, -⟩ := holds_replay_iff.1 h
  obtain ⟨created, hcreated⟩ := IssueHistory.exists_createdOn? hr
  obtain ⟨last, hlast, hread⟩ :=
    exists_agingRecord? (mem_of_mem_replayed hraw) (Option.isSome_of_eq_some hcreated)
  rw [bucketOf?, hlast, Option.bind_some, bucketOn?, Option.isSome_map]
  exact hread

theorem mem_keysOn_iff : key ∈ keysOn x value asOf ↔ x.Holds value asOf key := by
  unfold keysOn FlowIndex.Holds
  cases x.issuesOn? value asOf <;> simp

theorem length_keysOn (x : FlowIndex) (value : String) (date : Date) :
    (keysOn x value date).length = (x.countSeries value).getD date 0 := by
  rw [keysOn, Std.ExtTreeMap.getD_eq_getD_getElem?, FlowIndex.getElem?_countSeries]
  cases x.issuesOn? value date <;> simp

theorem mem_countSeries_iff {date : Date} :
    date ∈ x.countSeries value ↔ (x.issuesOn? value date).isSome := by
  rw [Std.ExtTreeMap.mem_iff_isSome_getElem?, FlowIndex.getElem?_countSeries, Option.isSome_map]

theorem totalIn_ageBuckets_eq_count (hx : x = (replay s request grouping histories).index) :
    totalIn (ageBuckets x histories asOf) value = (x.countSeries value).getD asOf 0 := by
  subst hx
  rw [totalIn_ageBuckets, ← length_keysOn, List.countP_eq_length]
  exact fun key hkey => isSome_bucketOf?_of_holds (mem_keysOn_iff.1 hkey)

theorem totalIn_ageBuckets_replay (s : ClassificationSet) (request : ReplayRequest)
    (grouping : Grouping) (histories : List IssueHistory) (asOf : Date) (value : String) :
    let index := (replay s request grouping histories).index
    let report := ageBuckets index histories asOf
    (value ∈ report ↔ asOf ∈ index.countSeries value) ∧
      totalIn report value = (index.countSeries value).getD asOf 0 := by
  refine ⟨?_, totalIn_ageBuckets_eq_count rfl⟩
  rw [Std.ExtTreeMap.mem_iff_isSome_getElem?, getElem?_ageBuckets, Option.isSome_map,
    mem_countSeries_iff]

/-! ## The record of an issue -/

namespace FlowIndex

/-- The index without one placement. -/
def without (x : FlowIndex) (value : String) (date : Date) (key : String) : FlowIndex :=
  ⟨x.entries.alter value fun column =>
    column.map fun dates => dates.alter date fun keys => keys.map fun set => set.erase key⟩

theorem issuesOn?_without (x : FlowIndex) (value : String) (date : Date) (key : String) :
    (x.without value date key).issuesOn? value date =
      (x.issuesOn? value date).map fun keys => keys.erase key := by
  simp only [issuesOn?, without, Std.ExtTreeMap.getElem?_alter_self]
  cases x.entries[value]? <;> simp

end FlowIndex

/-- The keys of a cell are those that it holds without one of them, and that one. -/
theorem keysOn_perm_without (h : x.Holds value asOf key) :
    (keysOn x value asOf).Perm (key :: keysOn (x.without value asOf key) value asOf) := by
  obtain ⟨keys, hkeys, hmem⟩ := h
  rw [keysOn, keysOn, FlowIndex.issuesOn?_without, hkeys]
  refine (List.perm_ext_iff_of_nodup (nodup_toList keys) ?_).2 fun k => ?_
  · exact List.nodup_cons.2 ⟨by simp, nodup_toList _⟩
  · by_cases hk : key = k
    · subst hk
      simpa using hmem
    · simp [hk, Ne.symm hk]

/-- The report counts the issue under the value in the bucket: the bucket would hold one less if the
index did not place the issue there. -/
def CountedIn (x : FlowIndex) (histories : List IssueHistory) (asOf : Date) (value key : String)
    (b : AgeBucket) : Prop :=
  x.Holds value asOf key ∧ countIn (ageBuckets x histories asOf) value b =
    countIn (ageBuckets (x.without value asOf key) histories asOf) value b + 1

theorem countedIn_iff : CountedIn x histories asOf value key b ↔
    x.Holds value asOf key ∧ bucketOf? histories asOf key = some b := by
  refine and_congr_right fun h => ?_
  rw [countIn_ageBuckets, countIn_ageBuckets, (keysOn_perm_without h).countP_eq, List.countP_cons]
  by_cases hb : bucketOf? histories asOf key = some b <;> simp [hb]

theorem countedIn_replay_iff (hraw : raw ∈ replayed request histories)
    (hplaced : (replay s request grouping [raw]).index.Holds value asOf raw.issue.display) :
    ∃ b, bucketOn? asOf raw = some b ∧
      (CountedIn (replay s request grouping histories).index histories asOf value
          raw.issue.display b ↔
        (agingRecord? histories raw.issue.display).bind (bucketOn? asOf) = some b) ∧
      ((∀ other ∈ histories, other.issue.display = raw.issue.display → other.createdOn?.isSome →
          other.createdOn? = raw.createdOn?) →
        CountedIn (replay s request grouping histories).index histories asOf value
          raw.issue.display b) := by
  obtain ⟨-, -, -, -, -, resolved, hr, -⟩ := holds_replay_singleton hplaced
  obtain ⟨created, hcreated⟩ := IssueHistory.exists_createdOn? hr
  have hbucket : bucketOn? asOf raw = some (.ofDays (asOf.number - created.number)) :=
    congrArg (Option.map _) hcreated
  have hholds := holds_replay_iff_singleton.2 ⟨raw, hraw, hplaced⟩
  refine ⟨_, hbucket, ?_, fun hsame => ?_⟩
  · rw [countedIn_iff, and_iff_right hholds]
    rfl
  · obtain ⟨last, hlast, hread⟩ :=
      exists_agingRecord? (mem_of_mem_replayed hraw) (Option.isSome_of_eq_some hcreated)
    obtain ⟨hmem, hkey, -⟩ := mem_of_agingRecord? hlast
    rw [countedIn_iff, bucketOf?, hlast, Option.bind_some, bucketOn?, hsame last hmem hkey hread]
    exact ⟨hholds, hbucket⟩

/-- A record of the issue A/T-1 with the given creation. -/
def createdAt (created : String) : IssueHistory := { issue := ⟨"T-1", "A"⟩, created }

/-- The twentieth of January. -/
def twentieth : ReplayRequest := { rangeStart := some (january 20), today := some (january 20) }

theorem holds_createdAt : (replay {} twentieth .byStatus [createdAt "2024-01-01"]).index.Holds
    "Open" (january 20) "A/T-1" :=
  ⟨.ofList ["A/T-1"], by decide +kernel, by decide +kernel⟩

/-- The second record is two days younger, which is the same bucket, and the third has no age. -/
def recordedLoosely : List IssueHistory :=
  [createdAt "2024-01-01", createdAt "2024-01-03 23:59:60", createdAt "yesterday"]

theorem countedIn_recordedLoosely :
    createdAt "2024-01-01" ∈ replayed twentieth recordedLoosely ∧
      (replay {} twentieth .byStatus [createdAt "2024-01-01"]).index.Holds "Open" (january 20)
        "A/T-1" ∧
      CountedIn (replay {} twentieth .byStatus recordedLoosely).index recordedLoosely (january 20)
        "Open" "A/T-1" .upToMonth := by
  have hraw : createdAt "2024-01-01" ∈ replayed twentieth recordedLoosely := by decide +kernel
  obtain ⟨b, hb, hiff, -⟩ := countedIn_replay_iff hraw holds_createdAt
  obtain rfl : .upToMonth = b := by
    have hmonth : bucketOn? (january 20) (createdAt "2024-01-01") = some .upToMonth := by
      decide +kernel
    exact Option.some.inj (hmonth.symm.trans hb)
  exact ⟨hraw, holds_createdAt, hiff.2 (by decide +kernel)⟩

/-- The second record is of the twentieth. -/
def recordedTwice : List IssueHistory := [createdAt "2024-01-01", createdAt "2024-01-20"]

theorem not_countedIn_recordedTwice :
    createdAt "2024-01-01" ∈ replayed twentieth recordedTwice ∧
      (replay {} twentieth .byStatus recordedTwice).index.Holds "Open" (january 20) "A/T-1" ∧
      bucketOn? (january 20) (createdAt "2024-01-01") = some .upToMonth ∧
      ¬ CountedIn (replay {} twentieth .byStatus recordedTwice).index recordedTwice (january 20)
        "Open" "A/T-1" .upToMonth ∧
      CountedIn (replay {} twentieth .byStatus recordedTwice).index recordedTwice (january 20)
        "Open" "A/T-1" .upToWeek := by
  have hraw : createdAt "2024-01-01" ∈ replayed twentieth recordedTwice := by decide +kernel
  have hholds := holds_replay_iff_singleton.2 ⟨_, hraw, holds_createdAt⟩
  simp only [countedIn_iff]
  exact ⟨hraw, hholds, by decide +kernel, fun h => absurd h.2 (by decide +kernel), hholds,
    by decide +kernel⟩

end IssueFlow.Flow
