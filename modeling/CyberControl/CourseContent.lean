import CyberControl.Errors
import CyberControl.Topology
import Mathlib.Data.Prod.Lex
import Mathlib.Order.Lattice.Nat

/-! # The knowledge graph of a course

The entities of `topic1.py` in the contracts and the functions of `domains/topic1/service.py` that rebuild
a graph: `_normalize_content`, `_roll_forward_content` and `_check_revision`.  The fields that these
functions and the repository only copy are one value of type `D`, a JSON value as the contract has accepted
it; floating-point numbers have the type `F`, with the operations of `FloatArithmetic`. -/

namespace CyberControl.Topic1

open Scheduling CyberControl.Topology

/-! ### Entities -/

/-- `revision`, `created_at` and `updated_at`, the times as instants. -/
structure Stamp where
  revision : ℕ
  createdAt : ℤ
  updatedAt : ℤ
  positive : 1 ≤ revision
deriving DecidableEq

/-- The stamp of a new entity. -/
def Stamp.first (now : ℤ) : Stamp := ⟨1, now, now, le_refl 1⟩

/-- `revision + 1` and `updated_at = now`. -/
def Stamp.next (stamp : Stamp) (now : ℤ) : Stamp :=
  ⟨stamp.revision + 1, stamp.createdAt, now, Nat.le_add_left 1 _⟩

/-- `advance` of `_roll_forward_content`. -/
def Stamp.advance (stamp : Stamp) (graphVersion : ℕ) (now : ℤ) : Stamp :=
  ⟨max (stamp.revision + 1) graphVersion, stamp.createdAt, now,
    (Nat.le_add_left 1 _).trans (le_max_left _ _)⟩

/-- The stamp of an entity that is written: the first one, or the next one of the existing entity. -/
def Stamp.written (existing : Option Stamp) (now : ℤ) : Stamp :=
  existing.elim (.first now) fun stamp => stamp.next now

inductive PrerequisiteType where
  | REQUIRED
  | RECOMMENDED
  | SUPPORTING
deriving DecidableEq, Repr

/-- The place of a relation type among the three in the order of their texts. -/
def PrerequisiteType.rank : PrerequisiteType → ℕ
  | .RECOMMENDED => 0
  | .REQUIRED => 1
  | .SUPPORTING => 2

inductive TextbookMappingType where
  | PRIMARY
  | SUPPORTING
  | EXAMPLE
  | EXERCISE
deriving DecidableEq, Repr

structure CourseDocument (D : Type) where
  courseCode : String
  fields : D
deriving DecidableEq

structure Course (K D : Type) extends CourseDocument D where
  courseId : K
  stamp : Stamp
deriving DecidableEq

structure KnowledgePointDocument (F D : Type) where
  learningObjectives : List String
  difficultyLevel : ℕ
  difficultyScore : F
  estimatedMinutes : ℕ
  formulaSignatures : List String
  fields : D
deriving DecidableEq

structure KnowledgePoint (K F D : Type) extends KnowledgePointDocument F D where
  kpId : K
  courseId : K
  stamp : Stamp
  topologyLevel : ℕ
  topologyWeight : F
deriving DecidableEq

structure PrerequisiteDocument (K D : Type) where
  prerequisiteKpId : K
  dependentKpId : K
  relationType : PrerequisiteType
  fields : D
deriving DecidableEq

/-- A prerequisite; `reject_self_edge` has accepted it. -/
structure Prerequisite (K D : Type) extends PrerequisiteDocument K D where
  edgeId : K
  courseId : K
  stamp : Stamp
  noSelfEdge : prerequisiteKpId ≠ dependentKpId
deriving DecidableEq

structure Misconception (K D : Type) where
  misconceptionId : K
  kpId : K
  fields : D
  stamp : Stamp
deriving DecidableEq

structure Textbook (K D : Type) where
  textbookId : K
  isbn : Option String
  fields : D
  stamp : Stamp
deriving DecidableEq

/-- A section; `validate_page_range` has accepted it. -/
structure TextbookSection (K D : Type) where
  sectionId : K
  textbookId : K
  parentSectionId : Option K
  fields : D
  stamp : Stamp
  noSelfParent : parentSectionId ≠ some sectionId
deriving DecidableEq

structure TextbookMapping (K D : Type) where
  mappingId : K
  kpId : K
  sectionId : K
  mappingType : TextbookMappingType
  fields : D
  stamp : Stamp
deriving DecidableEq

structure GoldenQuestion (K D : Type) where
  questionId : K
  primaryKpId : K
  relatedKpIds : List K
  answerDocument : D
  misconceptionIds : List K
  fields : D
  stamp : Stamp
deriving DecidableEq

/-- `Topic1GraphContentV1`. -/
@[ext]
structure Content (K F D : Type) where
  course : Course K D
  knowledgePoints : List (KnowledgePoint K F D)
  prerequisites : List (Prerequisite K D)
  misconceptions : List (Misconception K D)
  textbooks : List (Textbook K D)
  textbookSections : List (TextbookSection K D)
  textbookMappings : List (TextbookMapping K D)
  goldenQuestions : List (GoldenQuestion K D)
deriving DecidableEq

variable {K F D : Type}

/-! ### Difficulty and weight -/

/-- The floating-point operations of `topology.py`. -/
structure FloatArithmetic (F : Type) where
  /-- `literal m e` is the number `m / 10 ^ e` as Python reads it. -/
  literal : ℕ → ℕ → F
  add : F → F → F
  mul : F → F → F
  minimum : F → F → F
  /-- `m / n` of two integers. -/
  quotient : ℕ → ℕ → F
  /-- `round(x, 6)`. -/
  round6 : F → F
  ceil : F → ℤ
  /-- `x == y`. -/
  equal : F → F → Bool

section arithmetic
variable (A : FloatArithmetic F)

/-- The level of `classify_difficulty`; its arguments are in the ranges that it checks. -/
def classifyDifficulty (declaredScore : F)
    (prerequisiteCount formulaCount objectiveCount estimatedMinutes : ℕ) : ℕ :=
  let part := fun weight count bound =>
    A.mul (A.literal weight 2) (A.minimum (A.literal 1 0) (A.quotient count bound))
  let structural := A.add (A.add (A.add (part 35 prerequisiteCount 5) (part 30 formulaCount 8))
    (part 20 objectiveCount 6)) (part 15 estimatedMinutes 240)
  let score := A.round6 (A.add (A.mul (A.literal 4 1) declaredScore) (A.mul (A.literal 6 1) structural))
  (max 1 (min 5 (A.ceil (A.mul score (A.literal 5 0))))).toNat

/-- One weight of `analyze_topology`. -/
def topologyWeight (nodeCount descendants level maxLevel : ℕ) : F :=
  if nodeCount = 1 then A.literal 1 0
  else
    let influence := A.quotient descendants (max 1 (nodeCount - 1))
    let depth := A.quotient level (max 1 maxLevel)
    A.round6 (A.minimum (A.literal 1 0)
      (A.add (A.mul (A.literal 55 2) influence) (A.mul (A.literal 45 2) depth)))

/-- Computed weights that compare as equal are the same: there is no negative zero among them. -/
def ExactWeights : Prop :=
  ∀ n d l m n' d' l' m', A.equal (topologyWeight A n d l m) (topologyWeight A n' d' l' m') = true →
    topologyWeight A n d l m = topologyWeight A n' d' l' m'

variable [LinearOrder K]

/-- `_descendant_counts`, the sets before they are counted. -/
def descendantSets (adjacency : K → Finset K) (order : List K) : K → Finset K :=
  order.reverse.foldl
    (fun descendants nodeId => Function.update descendants nodeId
      (descendants nodeId ∪ adjacency nodeId ∪ (adjacency nodeId).biUnion descendants))
    fun _ => ∅

/-- `levels` and `weights` of the metrics. -/
structure Metrics (K F : Type) where
  levels : K → ℕ
  weights : K → F

/-- `analyze_topology` with its weights. -/
def analyzeWeights (nodeIds : Finset K) (edges : List (TopologyEdge K)) :
    Except (TopologyError K) (Metrics K F) := do
  let metrics ← analyzeTopology nodeIds edges
  let a ← edges.foldlM (addEdge nodeIds) Adjacency.empty
  let descendants := descendantSets a.adjacency metrics.topologicalOrder
  return ⟨metrics.levels, fun nodeId => topologyWeight A nodeIds.card (descendants nodeId).card
    (metrics.levels nodeId) (nodeIds.sup metrics.levels)⟩

end arithmetic

/-! ### `_normalize_content` -/

section normalize
variable [LinearOrder K] (A : FloatArithmetic F)

/-- The edges that `_normalize_content` gives to `analyze_topology`. -/
def topologyEdges (prerequisites : List (Prerequisite K D)) : List (TopologyEdge K) :=
  prerequisites.map fun item => ⟨item.prerequisiteKpId, item.dependentKpId⟩

/-- The derived fields of a knowledge point. -/
structure Derived (F : Type) where
  difficultyLevel : ℕ
  topologyLevel : ℕ
  topologyWeight : F

/-- `updates` before the revision: the fields that the graph around the knowledge point decides. -/
def derived (metrics : Metrics K F) (prerequisites : List (Prerequisite K D))
    (item : KnowledgePoint K F D) : Derived F where
  difficultyLevel := classifyDifficulty A item.difficultyScore
    (prerequisites.countP fun edge => edge.dependentKpId = item.kpId) item.formulaSignatures.length
    item.learningObjectives.length item.estimatedMinutes
  topologyLevel := metrics.levels item.kpId
  topologyWeight := metrics.weights item.kpId

/-- `changed`. -/
def Derived.changes (updates : Derived F) (item : KnowledgePoint K F D) : Bool :=
  item.difficultyLevel ≠ updates.difficultyLevel || item.topologyLevel ≠ updates.topologyLevel ||
    !A.equal item.topologyWeight updates.topologyWeight

/-- One turn of the loop of `_normalize_content`. -/
def normalizePoint (metrics : Metrics K F) (prerequisites : List (Prerequisite K D)) (now : ℤ)
    (item : KnowledgePoint K F D) : KnowledgePoint K F D :=
  let updates := derived A metrics prerequisites item
  { item with
    difficultyLevel := updates.difficultyLevel
    topologyLevel := updates.topologyLevel
    topologyWeight := updates.topologyWeight
    stamp := if updates.changes A item then item.stamp.next now else item.stamp }

section point
variable {A} {metrics : Metrics K F} {prerequisites : List (Prerequisite K D)} {now : ℤ}
  {item : KnowledgePoint K F D}

theorem normalizePoint_stamp : (normalizePoint A metrics prerequisites now item).stamp
    = if (derived A metrics prerequisites item).changes A item then item.stamp.next now else item.stamp :=
  rfl

theorem normalizePoint_eq_self (h : (derived A metrics prerequisites item).changes A item = false)
    (hweight : metrics.weights item.kpId = item.topologyWeight) :
    normalizePoint A metrics prerequisites now item = item := by
  have hchanges := h
  simp only [Derived.changes, Bool.or_eq_false_iff, decide_eq_false_iff_not, not_not] at hchanges
  obtain ⟨⟨hlevel, htopology⟩, -⟩ := hchanges
  unfold normalizePoint
  simp only [h, ← hlevel, ← htopology]
  simp only [derived, hweight]
  rfl

end point

/-- The error that replaces a `TopologyCycleError`. -/
def cycleError : Exn :=
  .liyan ⟨.TOPIC1_CYCLE, "The knowledge topology contains a directed cycle.", .CONTRACT, false, 409⟩

/-- What `_normalize_content` raises when `analyze_topology` does. -/
def topologyExn : TopologyError K → Exn
  | .topologyCycleError _ => cycleError
  | .valueError text => .valueError text
  | .outOfFuel => .other "RecursionError"

def normalizeContent (content : Content K F D) (now : ℤ) : Except Exn (Content K F D) := do
  let metrics ← (analyzeWeights A (content.knowledgePoints.map (·.kpId)).toFinset
    (topologyEdges content.prerequisites)).mapError topologyExn
  return { content with
    knowledgePoints := sortBy (fun item => toLex (item.topologyLevel, item.kpId))
      (content.knowledgePoints.map (normalizePoint A metrics content.prerequisites now))
    prerequisites := sortBy (fun item => toLex (item.prerequisiteKpId,
      toLex (item.dependentKpId, toLex (item.relationType.rank, item.edgeId)))) content.prerequisites
    misconceptions := sortBy (·.misconceptionId) content.misconceptions
    textbooks := sortBy (·.textbookId) content.textbooks
    textbookSections := sortBy (·.sectionId) content.textbookSections
    textbookMappings := sortBy (·.mappingId) content.textbookMappings
    goldenQuestions := sortBy (·.questionId) content.goldenQuestions }

end normalize

/-! ### `_roll_forward_content` and `_check_revision` -/

def rollForwardContent (content : Content K F D) (graphVersion : ℕ) (now : ℤ) : Content K F D where
  course := { content.course with stamp := content.course.stamp.advance graphVersion now }
  knowledgePoints := content.knowledgePoints.map fun item =>
    { item with stamp := item.stamp.advance graphVersion now }
  prerequisites := content.prerequisites.map fun item =>
    { item with stamp := item.stamp.advance graphVersion now }
  misconceptions := content.misconceptions.map fun item =>
    { item with stamp := item.stamp.advance graphVersion now }
  textbooks := content.textbooks.map fun item =>
    { item with stamp := item.stamp.advance graphVersion now }
  textbookSections := content.textbookSections.map fun item =>
    { item with stamp := item.stamp.advance graphVersion now }
  textbookMappings := content.textbookMappings.map fun item =>
    { item with stamp := item.stamp.advance graphVersion now }
  goldenQuestions := content.goldenQuestions.map fun item =>
    { item with stamp := item.stamp.advance graphVersion now }

def conflict (message : String) : Exn := .liyan ⟨.TOPIC1_CONFLICT, message, .CONTRACT, false, 409⟩

def notFound (resource : String) : Exn :=
  .liyan ⟨.TOPIC1_NOT_FOUND, "The requested Topic 1 " ++ resource ++ " was not found.", .CONTRACT, false,
    404⟩

def checkRevision (actual expected : Option ℕ) : Except Exn Unit :=
  if actual = none ∧ expected ≠ none then
    .error (conflict "The resource does not exist at the expected revision.")
  else if actual ≠ none ∧ expected ≠ actual then .error (conflict "The resource revision is stale.")
  else .ok ()

theorem checkRevision_ok {actual expected : Option ℕ} :
    checkRevision actual expected = .ok () ↔ expected = actual := by
  unfold checkRevision
  cases actual with
  | none => cases expected <;> simp
  | some revision => cases expected <;> simp

end CyberControl.Topic1
