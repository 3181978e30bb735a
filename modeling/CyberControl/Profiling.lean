import CyberControl.Collections
import CyberControl.Errors
import Mathlib.Algebra.Order.Ring.Rat
import Mathlib.Algebra.Ring.Nat
import Mathlib.Data.Prod.Lex
import Mathlib.Data.String.Basic

/-! # Student profiles

`SixDimensionProfileEngine.build_profile` of `domains/topic2/profiling.py`: a batch of behaviour
events and the previous profile give the next profile.  The dimension scores, confidences and their
aggregate features are floating-point numbers and left out, and so is the arithmetic of the outlier
bounds (`RobustBounds` is a parameter); which events are accepted, the features of single knowledge
points and misconceptions with their evidence, the activity count and the ingestion cursor are here. -/

namespace CyberControl.Profiling

open Collections Scheduling

/-! ### Events and profiles -/

/-- `LearningBehaviorEventDraft`, restricted to what the modelled part of the engine reads.  Instants
and identifiers are numbers. -/
structure BehaviorEvent where
  eventId : ℕ
  sourceEventId : String
  learnerRef : String
  courseId : String
  kpId : Option String
  durationSeconds : Option ℚ
  responseLatencyMs : Option ℕ
  correctness : Option ℚ
  score : Option ℚ
  misconceptionIds : List String
  occurredAt : ℕ
  receivedAt : ℕ
deriving DecidableEq

inductive ProfileDimension where
  | KNOWLEDGE_MASTERY
  | PROBLEM_SOLVING_PROFICIENCY
  | MISCONCEPTION_PREFERENCE
  | LEARNING_PACE
  | FORGETTING_RATE
  | LEARNING_GOAL_TENDENCY
deriving DecidableEq, Repr

/-- `ProfileFeatureDraft` without its scores. -/
structure ProfileFeature where
  dimension : ProfileDimension
  featureKey : String
  evidenceCount : ℕ
  sourceEventIds : List String
deriving DecidableEq

/-- `(received_at, event_id)`, compared lexicographically. -/
abbrev Cursor := ℕ ×ₗ ℕ

/-- `StudentProfileDraft` without its scores and documents; `features` are those of single items. -/
structure Profile where
  profileId : ℕ
  learnerRef : String
  courseId : String
  profileVersion : ℕ
  parentProfileId : Option ℕ
  activityCount : ℕ
  ingestionCursor : Option Cursor
  frozenAt : ℕ
  features : List ProfileFeature
deriving DecidableEq

def BehaviorEvent.cursor (event : BehaviorEvent) : Cursor := toLex (event.receivedAt, event.eventId)

/-- The cursor of the row is beyond `received_after` and `received_after_event_id`. -/
def receivedAfter (cursor : Option Cursor) (event : BehaviorEvent) : Prop :=
  ∀ c ∈ cursor, (ofLex c).1 < event.receivedAt ∨
    (event.receivedAt = (ofLex c).1 ∧ (ofLex c).2 < event.eventId)

instance (cursor : Option Cursor) : DecidablePred (receivedAfter cursor) := fun _ =>
  inferInstanceAs (Decidable (∀ _ ∈ _, _))

theorem receivedAfter_iff {cursor : Option Cursor} {event : BehaviorEvent} :
    receivedAfter cursor event ↔ ∀ c ∈ cursor, c < event.cursor := by
  unfold receivedAfter BehaviorEvent.cursor
  refine forall₂_congr fun c _ => ?_
  rw [Prod.Lex.lt_iff]
  simp only [ofLex_toLex, eq_comm]

def maxProfileEvents : ℕ := 5000

/-- `_robust_bounds`: bounds on the values of a sample, or none. -/
abbrev RobustBounds := List ℚ → Option (ℚ × ℚ)

/-! ### `_filter_outliers` -/

def inside (value : ℚ) (bounds : Option (ℚ × ℚ)) : Prop := ∀ b ∈ bounds, b.1 ≤ value ∧ value ≤ b.2

instance (value : ℚ) (bounds : Option (ℚ × ℚ)) : Decidable (inside value bounds) :=
  inferInstanceAs (Decidable (∀ _ ∈ _, _))

def filterOutliers (robustBounds : RobustBounds) (events : List BehaviorEvent) (generatedAt : ℕ) :
    List BehaviorEvent :=
  let eligible := events.filter fun event => event.occurredAt ≤ generatedAt
  let durationBounds := robustBounds (eligible.filterMap (·.durationSeconds))
  let latencyBounds := robustBounds ((eligible.filterMap (·.responseLatencyMs)).map fun ms => (ms : ℚ))
  sortBy (fun event => toLex (event.occurredAt, event.eventId)) (eligible.filter fun event =>
    (∀ seconds ∈ event.durationSeconds, inside seconds durationBounds) ∧
      ∀ ms ∈ event.responseLatencyMs, inside (ms : ℚ) latencyBounds)

/-! ### Features of items -/

/-- `_performance_value`: the mean of the values that are there. -/
def performanceValue (event : BehaviorEvent) : Option ℚ :=
  let values := event.correctness.toList ++ event.score.toList
  if values = [] then none else some (values.sum / values.length)

/-- `previous.get((dimension, key))`. -/
def findFeature (features : List ProfileFeature) (dimension : ProfileDimension) (key : String) :
    Option ProfileFeature :=
  features.reverse.find? fun feature => feature.dimension = dimension ∧ feature.featureKey = key

/-- The feature of an item with evidence, its count added to that of the previous profile.  A piece of
evidence is an item with the `source_event_id` of its event. -/
def itemFeature (dimension : ProfileDimension) (key : String → String)
    (evidence : List (String × String)) (previous : List ProfileFeature) (item : String) :
    ProfileFeature where
  dimension := dimension
  featureKey := key item
  evidenceCount := (findFeature previous dimension (key item)).elim 0 (·.evidenceCount)
    + (evidence.map (·.1)).count item
  sourceEventIds := sortedSet ((evidence.filter fun piece => piece.1 = item).map (·.2))

/-- The loop that `_knowledge_point_features` and `_misconception_features` share. -/
def itemFeatures (dimension : ProfileDimension) (key : String → String)
    (evidence : List (String × String)) (previous : List ProfileFeature) : List ProfileFeature :=
  (sortedSet (evidence.map (·.1))).map (itemFeature dimension key evidence previous)

def masteryKey (kpId : String) : String := "kp:" ++ kpId ++ ":mastery"

def misconceptionKey (misconceptionId : String) : String := "misconception:" ++ misconceptionId

/-- `by_kp`. -/
def masteryEvidence (events : List BehaviorEvent) (knowledgePoints : Finset String) :
    List (String × String) :=
  events.filterMap fun event => event.kpId.bind fun kpId =>
    if kpId ∈ knowledgePoints ∧ (performanceValue event).isSome then some (kpId, event.sourceEventId)
    else none

/-- `counts` and `sources`. -/
def misconceptionEvidence (events : List BehaviorEvent) (misconceptions : Finset String) :
    List (String × String) :=
  events.flatMap fun event =>
    (event.misconceptionIds.filter fun misconceptionId => misconceptionId ∈ misconceptions).map
      fun misconceptionId => (misconceptionId, event.sourceEventId)

def knowledgePointFeatures (events : List BehaviorEvent) (knowledgePoints : Finset String)
    (previous : List ProfileFeature) : List ProfileFeature :=
  itemFeatures .KNOWLEDGE_MASTERY masteryKey (masteryEvidence events knowledgePoints) previous

def misconceptionFeatures (events : List BehaviorEvent) (misconceptions : Finset String)
    (previous : List ProfileFeature) : List ProfileFeature :=
  itemFeatures .MISCONCEPTION_PREFERENCE misconceptionKey
    (misconceptionEvidence events misconceptions) previous

/-! ### `build_profile` -/

/-- The identifiers of the course graph that the engine is given. -/
structure CourseGraph where
  knowledgePoints : Finset String
  misconceptions : Finset String

def validateEvent (learnerRef courseId : String) (generatedAt : ℕ) (event : BehaviorEvent) :
    Except Exn Unit :=
  if event.learnerRef ≠ learnerRef ∨ event.courseId ≠ courseId then
    .error (.valueError "behavior event belongs to another learner or course")
  else if generatedAt < event.occurredAt then
    .error (.valueError "behavior event occurred after profile generation time")
  else .ok ()

/-- `_validate_inputs`; an instant is aware. -/
def validateInputs (learnerRef courseId : String) (events : List BehaviorEvent) (generatedAt : ℕ)
    (previous : Option Profile) : Except Exn Unit :=
  if maxProfileEvents < events.length then
    .error (.valueError "profile event count cannot exceed 5000")
  else if ∃ profile ∈ previous, profile.learnerRef ≠ learnerRef ∨ profile.courseId ≠ courseId then
    .error (.valueError "previous profile belongs to another learner or course")
  else events.forM (validateEvent learnerRef courseId generatedAt)

/-- `ingestion_cursor`: the greatest of the previous cursor and those of the accepted events. -/
def nextCursor (previous : Option Cursor) (accepted : List BehaviorEvent) : Option Cursor :=
  (previous.toList ++ (accepted.map (·.cursor)).max?.toList).max?

def buildProfile (robustBounds : RobustBounds) (profileId : ℕ) (learnerRef courseId : String)
    (events : List BehaviorEvent) (graph : CourseGraph) (generatedAt : ℕ)
    (previous : Option Profile) : Except Exn Profile := do
  validateInputs learnerRef courseId events generatedAt previous
  let accepted := filterOutliers robustBounds events generatedAt
  let previousFeatures := previous.elim [] (·.features)
  .ok {
    profileId := profileId
    learnerRef := learnerRef
    courseId := courseId
    profileVersion := previous.elim 1 (·.profileVersion + 1)
    parentProfileId := previous.map (·.profileId)
    activityCount := previous.elim 0 (·.activityCount) + accepted.length
    ingestionCursor := nextCursor (previous.bind (·.ingestionCursor)) accepted
    frozenAt := generatedAt
    features := knowledgePointFeatures accepted graph.knowledgePoints previousFeatures
      ++ misconceptionFeatures accepted graph.misconceptions previousFeatures }

/-! ### Accepted events -/

section accepted
variable {robustBounds : RobustBounds} {events : List BehaviorEvent} {generatedAt : ℕ}

theorem mem_of_mem_filterOutliers {event : BehaviorEvent}
    (h : event ∈ filterOutliers robustBounds events generatedAt) : event ∈ events := by
  simp only [filterOutliers, mem_sortBy] at h
  exact (List.mem_filter.mp (List.mem_filter.mp h).1).1

theorem nodup_filterOutliers (key : BehaviorEvent → ℕ) (h : (events.map key).Nodup) :
    ((filterOutliers robustBounds events generatedAt).map key).Nodup := by
  unfold filterOutliers
  refine ((perm_sortBy.map key).nodup_iff).mpr ?_
  exact h.sublist ((List.filter_sublist.trans List.filter_sublist).map key)

end accepted

/-! ### Evidence counts -/

/-- An item of the course graph. -/
inductive Item where
  | knowledgePoint (kpId : String)
  | misconception (misconceptionId : String)

def Item.dimension : Item → ProfileDimension
  | .knowledgePoint _ => .KNOWLEDGE_MASTERY
  | .misconception _ => .MISCONCEPTION_PREFERENCE

def Item.featureKey : Item → String
  | .knowledgePoint kpId => masteryKey kpId
  | .misconception misconceptionId => misconceptionKey misconceptionId

/-- The evidence count of an item, when the profile has a feature for it. -/
def Profile.evidenceCount? (profile : Profile) (item : Item) : Option ℕ :=
  (findFeature profile.features item.dimension item.featureKey).map (·.evidenceCount)

theorem masteryKey_inj {a b : String} (h : masteryKey a = masteryKey b) : a = b := by
  unfold masteryKey at h
  apply String.toList_inj.mp
  simpa using congrArg String.toList h

theorem misconceptionKey_inj {a b : String} (h : misconceptionKey a = misconceptionKey b) :
    a = b := by
  unfold misconceptionKey at h
  apply String.toList_inj.mp
  simpa using congrArg String.toList h

theorem findFeature_append (a b : List ProfileFeature) (dimension : ProfileDimension) (key : String) :
    findFeature (a ++ b) dimension key
      = (findFeature b dimension key).or (findFeature a dimension key) := by
  unfold findFeature
  rw [List.reverse_append, List.find?_append]

section features
variable {dimension : ProfileDimension} {key : String → String} {evidence : List (String × String)}
  {previous : List ProfileFeature}

theorem findFeature_itemFeatures_of_ne {other : ProfileDimension} (h : dimension ≠ other)
    (featureKey : String) :
    findFeature (itemFeatures dimension key evidence previous) other featureKey = none := by
  unfold findFeature
  rw [List.find?_eq_none]
  intro feature hfeature
  obtain ⟨item, -, rfl⟩ := List.mem_map.mp (List.mem_reverse.mp hfeature)
  simp [itemFeature, h]

theorem find?_map_itemFeature (hkey : ∀ a b, key a = key b → a = b) (items : List String)
    (item : String) :
    ((items.map (itemFeature dimension key evidence previous)).find? fun feature =>
        feature.dimension = dimension ∧ feature.featureKey = key item)
      = if item ∈ items then some (itemFeature dimension key evidence previous item) else none := by
  induction items with
  | nil => rfl
  | cons other items ih =>
    rw [List.map_cons, List.find?_cons, ih]
    by_cases h : other = item
    · subst h
      simp [itemFeature]
    · have hne : key other ≠ key item := fun heq => h (hkey other item heq)
      simp [itemFeature, hne, Ne.symm h]

/-- **The evidence count of an item** is that of the previous profile and that of the batch together;
an item without evidence in the batch has no feature. -/
theorem evidenceCount?_itemFeatures (hkey : ∀ a b, key a = key b → a = b) (item : String) :
    (findFeature (itemFeatures dimension key evidence previous) dimension (key item)).map
        (·.evidenceCount)
      = if (evidence.map (·.1)).count item = 0 then none
        else some ((findFeature previous dimension (key item)).elim 0 (·.evidenceCount)
          + (evidence.map (·.1)).count item) := by
  unfold findFeature itemFeatures
  rw [← List.map_reverse, find?_map_itemFeature hkey]
  simp only [List.mem_reverse, mem_sortedSet, List.count_eq_zero]
  split_ifs with hmem
  · rfl
  · rfl

end features

/-! ### Evidence of a batch -/

def Item.InGraph (graph : CourseGraph) : Item → Prop
  | .knowledgePoint kpId => kpId ∈ graph.knowledgePoints
  | .misconception misconceptionId => misconceptionId ∈ graph.misconceptions

instance (graph : CourseGraph) (item : Item) : Decidable (item.InGraph graph) := by
  cases item with
  | knowledgePoint kpId => exact inferInstanceAs (Decidable (kpId ∈ graph.knowledgePoints))
  | misconception id => exact inferInstanceAs (Decidable (id ∈ graph.misconceptions))

/-- How often an event is evidence for an item: once for a knowledge point it scores, and as often as
it lists a misconception. -/
def Item.listings (event : BehaviorEvent) : Item → ℕ
  | .knowledgePoint kpId => if event.kpId = some kpId ∧ (performanceValue event).isSome then 1 else 0
  | .misconception misconceptionId => event.misconceptionIds.count misconceptionId

theorem count_masteryEvidence (events : List BehaviorEvent) (knowledgePoints : Finset String)
    (kpId : String) : ((masteryEvidence events knowledgePoints).map (·.1)).count kpId
      = if kpId ∈ knowledgePoints then (events.map (Item.knowledgePoint kpId).listings).sum else 0 := by
  unfold masteryEvidence
  induction events with
  | nil => simp
  | cons event events ih =>
    rw [List.map_cons, List.sum_cons, List.filterMap_cons]
    cases hkp : event.kpId with
    | none =>
      have hzero : (Item.knowledgePoint kpId).listings event = 0 := by simp [Item.listings, hkp]
      simp only [Option.bind_none, ih, hzero, Nat.zero_add]
    | some other =>
      simp only [Option.bind_some]
      by_cases hcounted : other ∈ knowledgePoints ∧ (performanceValue event).isSome
      · rw [if_pos hcounted, List.map_cons, List.count_cons, ih]
        by_cases hother : other = kpId
        · subst hother
          simp [Item.listings, hkp, hcounted.1, hcounted.2, Nat.add_comm]
        · simp [Item.listings, hkp, hother]
      · rw [if_neg hcounted, ih]
        by_cases hother : other = kpId
        · subst hother
          simp only [not_and] at hcounted
          split_ifs with hin
          · simp [Item.listings, hcounted hin]
          · rfl
        · simp [Item.listings, hkp, hother]

theorem count_misconceptionEvidence (events : List BehaviorEvent) (misconceptions : Finset String)
    (misconceptionId : String) :
    ((misconceptionEvidence events misconceptions).map (·.1)).count misconceptionId
      = if misconceptionId ∈ misconceptions then
          (events.map (Item.misconception misconceptionId).listings).sum
        else 0 := by
  unfold misconceptionEvidence
  induction events with
  | nil => simp
  | cons event events ih =>
    rw [List.flatMap_cons, List.map_append, List.count_append, ih, List.map_cons, List.sum_cons,
      List.map_map]
    have hids : (Prod.fst ∘ fun id : String => (id, event.sourceEventId)) = id := rfl
    rw [hids, List.map_id]
    split_ifs with hin
    · rw [List.count_filter (by simpa using hin)]
      rfl
    · have hzero : (event.misconceptionIds.filter fun id => id ∈ misconceptions).count
          misconceptionId = 0 := by
        rw [List.count_eq_zero, List.mem_filter]
        simp [hin]
      rw [hzero]

/-! ### What a build returns -/

variable {robustBounds : RobustBounds} {profileId : ℕ} {learnerRef courseId : String}
  {events : List BehaviorEvent} {graph : CourseGraph} {generatedAt : ℕ} {previous : Option Profile}
  {profile : Profile}

theorem validateInputs_ok
    (h : validateInputs learnerRef courseId events generatedAt previous = .ok ()) :
    ∀ event ∈ events, event.occurredAt ≤ generatedAt := by
  unfold validateInputs at h
  split_ifs at h with hlength hprevious
  intro event hevent
  have hok := forM_eq_ok.mp h event hevent
  unfold validateEvent at hok
  split_ifs at hok with hscope hlate
  omega

/-- The evidence of the accepted events of a batch for an item. -/
def acceptedListings (robustBounds : RobustBounds) (events : List BehaviorEvent) (generatedAt : ℕ)
    (item : Item) : ℕ :=
  ((filterOutliers robustBounds events generatedAt).map item.listings).sum

/-- **What a build returns.** -/
theorem buildProfile_ok (h : buildProfile robustBounds profileId learnerRef courseId events graph
      generatedAt previous = .ok profile) :
    profile.profileId = profileId ∧
      profile.profileVersion = previous.elim 1 (·.profileVersion + 1) ∧
      profile.parentProfileId = previous.map (·.profileId) ∧
      profile.activityCount = previous.elim 0 (·.activityCount)
        + (filterOutliers robustBounds events generatedAt).length ∧
      profile.ingestionCursor = nextCursor (previous.bind (·.ingestionCursor))
        (filterOutliers robustBounds events generatedAt) ∧
      ∀ item, profile.evidenceCount? item
        = if item.InGraph graph ∧ acceptedListings robustBounds events generatedAt item ≠ 0 then
            some (((previous.bind (·.evidenceCount? item)).getD 0)
              + acceptedListings robustBounds events generatedAt item)
          else none := by
  obtain ⟨-, -, h⟩ := bind_eq_ok.mp h
  cases h
  refine ⟨rfl, rfl, rfl, rfl, rfl, fun item => ?_⟩
  have hprevious : ((previous.bind (·.evidenceCount? item)).getD 0)
      = (findFeature (previous.elim [] (·.features)) item.dimension item.featureKey).elim 0
          (·.evidenceCount) := by
    cases previous with
    | none => rfl
    | some earlier =>
      simp only [Option.bind_some, Profile.evidenceCount?, Option.elim_some]
      cases findFeature earlier.features item.dimension item.featureKey with
      | none => rfl
      | some feature => rfl
  rw [hprevious, Profile.evidenceCount?, findFeature_append]
  cases item with
  | knowledgePoint kpId =>
    have hnone := @findFeature_itemFeatures_of_ne .MISCONCEPTION_PREFERENCE misconceptionKey
      (misconceptionEvidence (filterOutliers robustBounds events generatedAt) graph.misconceptions)
      (previous.elim [] (·.features)) .KNOWLEDGE_MASTERY (by decide) (masteryKey kpId)
    simp only [Item.dimension, Item.featureKey, misconceptionFeatures, hnone, Option.none_or,
      knowledgePointFeatures]
    rw [evidenceCount?_itemFeatures (fun a b => masteryKey_inj), count_masteryEvidence]
    by_cases hin : kpId ∈ graph.knowledgePoints
    · simp [hin, Item.InGraph, acceptedListings]
    · simp [hin, Item.InGraph]
  | misconception misconceptionId =>
    have hnone := @findFeature_itemFeatures_of_ne .KNOWLEDGE_MASTERY masteryKey
      (masteryEvidence (filterOutliers robustBounds events generatedAt) graph.knowledgePoints)
      (previous.elim [] (·.features)) .MISCONCEPTION_PREFERENCE (by decide)
      (misconceptionKey misconceptionId)
    simp only [Item.dimension, Item.featureKey, knowledgePointFeatures, hnone, Option.or_none,
      misconceptionFeatures]
    rw [evidenceCount?_itemFeatures (fun a b => misconceptionKey_inj), count_misconceptionEvidence]
    by_cases hin : misconceptionId ∈ graph.misconceptions
    · simp [hin, Item.InGraph, acceptedListings]
    · simp [hin, Item.InGraph]

/-! ### Samples -/

/-- No bounds: the engine sets none on fewer than five values. -/
def noBounds : RobustBounds := fun _ => none

/-- A correct answer about a knowledge point. -/
def answer (eventId : ℕ) (kpId : String) (occurredAt receivedAt : ℕ) : BehaviorEvent where
  eventId := eventId
  sourceEventId := "answer"
  learnerRef := "learner"
  courseId := "COURSE"
  kpId := some kpId
  durationSeconds := none
  responseLatencyMs := none
  correctness := some 1
  score := none
  misconceptionIds := []
  occurredAt := occurredAt
  receivedAt := receivedAt

end CyberControl.Profiling
