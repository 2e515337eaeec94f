import IssueFlow.Rules.FilterRules
import IssueFlow.Serial.Data

/-!
# Serialised classifications and rules

The readers of classifications take the format's word on surplus items, because two formats write
them.
-/

namespace IssueFlow.Rules

open IssueFlow.Serial

def RejectionRule.toData (r : RejectionRule) : Data :=
  .record [("status", .text r.status), ("excluded_resolutions", .ofTexts r.excludedResolutions)]

def RejectionRule.ofData? (surplus : Surplus) (d : Data) : Option RejectionRule := do
  let fields ← d.fields? surplus ["status", "excluded_resolutions"]
  return {
    status := ← fields.required "status" Data.text?
    excludedResolutions := ← fields.orElse "excluded_resolutions" ∅ Data.texts? }

def DefectRules.toData (r : DefectRules) : Data :=
  .record [("excluded_priorities", .ofTexts r.excludedPriorities),
    ("included_root_causes", .ofTexts r.includedRootCauses),
    ("rejection", .ofOption RejectionRule.toData r.rejection),
    ("priority_tolerance", .ofMap .ofWord r.priorityTolerance)]

def DefectRules.ofData? (surplus : Surplus) (d : Data) : Option DefectRules := do
  let fields ← d.fields? surplus
    ["excluded_priorities", "included_root_causes", "rejection", "priority_tolerance"]
  return {
    excludedPriorities := ← fields.orElse "excluded_priorities" ∅ Data.texts?
    includedRootCauses := ← fields.orElse "included_root_causes" ∅ Data.texts?
    rejection := ← fields.nullable "rejection" (RejectionRule.ofData? surplus)
    priorityTolerance := ← fields.orElse "priority_tolerance" ∅ (Data.map? Data.word?) }

def Classification.toData (c : Classification) : Data :=
  .record [("open_default", .text c.openDefault), ("closed", .ofTexts c.closed),
    ("completion", .ofTexts c.completion), ("excluded", .ofTexts c.excluded),
    ("reopen", .ofOption .text c.reopen), ("defects", c.defects.toData)]

/-- The classification is read as it stands; `Classification.validate` judges it. -/
def Classification.ofData? (surplus : Surplus) (d : Data) : Option Classification := do
  let fields ← d.fields? surplus
    ["open_default", "closed", "completion", "excluded", "reopen", "defects"]
  return {
    openDefault := ← fields.orElse "open_default" "Open" Data.text?
    closed := ← fields.orElse "closed" ∅ Data.texts?
    completion := ← fields.orElse "completion" ∅ Data.texts?
    excluded := ← fields.orElse "excluded" ∅ Data.texts?
    reopen := ← fields.nullable "reopen" Data.text?
    defects := ← fields.orElse "defects" {} (DefectRules.ofData? surplus) }

def ClassificationSet.toData (s : ClassificationSet) : Data :=
  .record [("projects", .ofMap Classification.toData s.projects)]

def ClassificationSet.ofData? (surplus : Surplus) (d : Data) : Option ClassificationSet := do
  let fields ← d.fields? surplus ["projects"]
  return {
    projects := ← fields.orElse "projects" ∅ (Data.map? (Classification.ofData? surplus)) }

def FilterRules.toData (r : FilterRules) : Data :=
  .record [("priority_exclusions", .ofMap .ofTexts r.priorityExclusions),
    ("rca_inclusions", .ofMap .ofTexts r.rootCauseInclusions),
    ("rejection_rules", .ofMap RejectionRule.toData r.rejectionRules),
    ("priority_tolerance", .ofMap (.ofMap .ofWord) r.priorityTolerance)]

def FilterRules.ofData? (d : Data) : Option FilterRules := do
  let fields ← d.fields? .refused
    ["priority_exclusions", "rca_inclusions", "rejection_rules", "priority_tolerance"]
  return {
    priorityExclusions := ← fields.orElse "priority_exclusions" ∅ (Data.map? Data.texts?)
    rootCauseInclusions := ← fields.orElse "rca_inclusions" ∅ (Data.map? Data.texts?)
    rejectionRules :=
      ← fields.orElse "rejection_rules" ∅ (Data.map? (RejectionRule.ofData? .refused))
    priorityTolerance :=
      ← fields.orElse "priority_tolerance" ∅ (Data.map? (Data.map? Data.word?)) }

end IssueFlow.Rules
