import CyberControl.CourseStore
import CyberControl.Transition

/-! # The mutations of Topic 1

`Topic1Service`: each mutation rebuilds the graph of one course from its rows, an import bundle or a
snapshot, normalises it, writes it back and appends a snapshot, in one serialisable transaction.  A run
consists of the calls that commit. -/

namespace CyberControl.Topic1

open Versions

variable {K F D G : Type} [LinearOrder K]

attribute [local instance] lawfulBEq_of_linearOrder

/-! ### Calls -/

inductive Mutation (K F D : Type) [LinearOrder K] where
  | upsertCourse (courseId : K) (document : CourseDocument D) (expectedRevision : Option ℕ)
  | upsertKnowledgePoint (courseId kpId : K) (document : KnowledgePointDocument F D)
      (expectedRevision : Option ℕ)
  | deleteKnowledgePoint (courseId kpId : K) (expectedRevision : ℕ)
  | upsertPrerequisite (courseId edgeId : K) (document : PrerequisiteDocument K D)
      (expectedRevision : Option ℕ)
  | deletePrerequisite (courseId edgeId : K) (expectedRevision : ℕ)
  | importBundle (bundle : ImportBundle K F D)
  | freezeGraph (courseId : K)
  /-- `advancedAt` is the time that `_roll_forward_content` is given. -/
  | rollbackSnapshot (snapshotId : ℕ) (advancedAt : ℤ)

/-- A mutation with the time that `_normalize_content` is given and the identifier of its snapshot. -/
structure Call (K F D : Type) [LinearOrder K] where
  mutation : Mutation K F D
  now : ℤ
  snapshotId : ℕ

/-- `restored_from_snapshot_id`. -/
def Mutation.restoredFrom : Mutation K F D → Option ℕ
  | .rollbackSnapshot snapshotId _ => some snapshotId
  | _ => none

variable [DecidableEq G] (P : Platform K F D G) (t : Tables K F D G)

omit [DecidableEq G] in
def requiredContent (courseId : K) : Except Exn (Content K F D) := do
  match ← t.loadGraphContent P courseId with
  | none => .error (notFound "course graph")
  | some content => .ok content

/-! ### The new content of each mutation -/

/-- The content that `upsert_course` builds. -/
def upsertedCourse (courseId : K) (document : CourseDocument D) (existing : Option (Content K F D))
    (now : ℤ) : Content K F D :=
  let course : Course K D :=
    { document with courseId, stamp := .written (existing.map (·.course.stamp)) now }
  existing.elim ⟨course, [], [], [], [], [], [], []⟩ fun content => { content with course }

omit [DecidableEq G] in
def upsertCourse (courseId : K) (document : CourseDocument D) (expectedRevision : Option ℕ) (now : ℤ) :
    Except Exn (Content K F D) := do
  let current ← t.loadGraphContent P courseId
  checkRevision (current.map (·.course.stamp.revision)) expectedRevision
  let content := upsertedCourse courseId document current now
  validateContent content
  return content

/-- The knowledge point that `upsert_knowledge_point` builds. -/
def upsertedPoint (courseId kpId : K) (document : KnowledgePointDocument F D)
    (existing : Option (KnowledgePoint K F D)) (now : ℤ) : KnowledgePoint K F D :=
  { document with
    kpId, courseId
    stamp := .written (existing.map (·.stamp)) now
    topologyLevel := existing.elim 0 (·.topologyLevel)
    topologyWeight := existing.elim (P.arithmetic.literal 0 0) (·.topologyWeight) }

omit [DecidableEq G] in
def upsertKnowledgePoint (courseId kpId : K) (document : KnowledgePointDocument F D)
    (expectedRevision : Option ℕ) (now : ℤ) : Except Exn (Content K F D) := do
  let content ← requiredContent P t courseId
  let existing := content.knowledgePoints.find? fun item => item.kpId = kpId
  checkRevision (existing.map (·.stamp.revision)) expectedRevision
  return { content with
    knowledgePoints := (content.knowledgePoints.filter fun item => item.kpId ≠ kpId) ++
      [upsertedPoint P courseId kpId document existing now] }

/-- A content without a knowledge point, as `delete_knowledge_point` cuts it. -/
def withoutPoint (content : Content K F D) (kpId : K) : Content K F D :=
  { content with
    knowledgePoints := content.knowledgePoints.filter fun item => item.kpId ≠ kpId
    prerequisites := content.prerequisites.filter fun item =>
      kpId ∉ [item.prerequisiteKpId, item.dependentKpId]
    misconceptions := content.misconceptions.filter fun item => item.kpId ≠ kpId
    textbookMappings := content.textbookMappings.filter fun item => item.kpId ≠ kpId
    goldenQuestions := content.goldenQuestions.filter fun item =>
      kpId ∉ item.primaryKpId :: item.relatedKpIds }

omit [DecidableEq G] in
def deleteKnowledgePoint (courseId kpId : K) (expectedRevision : ℕ) : Except Exn (Content K F D) := do
  let content ← requiredContent P t courseId
  match content.knowledgePoints.find? fun item => item.kpId = kpId with
  | none => .error (notFound "knowledge point")
  | some existing =>
    checkRevision (some existing.stamp.revision) (some expectedRevision)
    return withoutPoint content kpId

omit [DecidableEq G] in
def upsertPrerequisite (courseId edgeId : K) (document : PrerequisiteDocument K D)
    (expectedRevision : Option ℕ) (now : ℤ) : Except Exn (Content K F D) := do
  let content ← requiredContent P t courseId
  let existing := content.prerequisites.find? fun item => item.edgeId = edgeId
  checkRevision (existing.map (·.stamp.revision)) expectedRevision
  if h : document.prerequisiteKpId = document.dependentKpId then
    .error (.valueError "a knowledge point cannot depend on itself")
  else
    return { content with
      prerequisites := (content.prerequisites.filter fun item => item.edgeId ≠ edgeId) ++
        [{ document with
            edgeId, courseId
            stamp := .written (existing.map (·.stamp)) now
            noSelfEdge := h }] }

omit [DecidableEq G] in
def deletePrerequisite (courseId edgeId : K) (expectedRevision : ℕ) : Except Exn (Content K F D) := do
  let content ← requiredContent P t courseId
  match content.prerequisites.find? fun item => item.edgeId = edgeId with
  | none => .error (notFound "prerequisite")
  | some existing =>
    checkRevision (some existing.stamp.revision) (some expectedRevision)
    return { content with
      prerequisites := content.prerequisites.filter fun item => item.edgeId ≠ edgeId }

def enforceImportLimits (bundle : ImportBundle K F D) : Except Exn Unit :=
  ensure (P.bundleSize bundle ≤ 5 * 1024 * 1024 ∧ bundle.content.knowledgePoints.length ≤ 500 ∧
      bundle.content.prerequisites.length ≤ 2500)
    (.liyan ⟨.TOPIC1_IMPORT_LIMIT, "The Topic 1 import exceeds the accepted size limit.", .CONTRACT, false,
      413⟩)

def importBundle (bundle : ImportBundle K F D) : Except Exn (Content K F D) := do
  enforceImportLimits P bundle
  let latest ← t.latestSnapshot P bundle.content.course.courseId
  ensure (bundle.expectedParentVersion = latest.map (·.graphVersion))
    (conflict "The import parent graph version is stale.")
  return bundle.content

/-- `1 if latest is None else latest.graph_version + 1`. -/
def nextVersion (latest : Option (Snapshot K F D G)) : ℕ := latest.elim 1 (·.graphVersion + 1)

def rollbackSnapshot (snapshotId : ℕ) (now : ℤ) : Except Exn (Content K F D) := do
  match ← t.getSnapshot P snapshotId with
  | none => .error (notFound "graph snapshot")
  | some target =>
    let latest ← t.latestSnapshot P target.courseId
    return rollForwardContent target.content (nextVersion latest) now

/-- The content of a mutation before it is normalised. -/
def edited (call : Call K F D) : Except Exn (Content K F D) :=
  match call.mutation with
  | .upsertCourse courseId document expected => upsertCourse P t courseId document expected call.now
  | .upsertKnowledgePoint courseId kpId document expected =>
    upsertKnowledgePoint P t courseId kpId document expected call.now
  | .deleteKnowledgePoint courseId kpId expected => deleteKnowledgePoint P t courseId kpId expected
  | .upsertPrerequisite courseId edgeId document expected =>
    upsertPrerequisite P t courseId edgeId document expected call.now
  | .deletePrerequisite courseId edgeId expected => deletePrerequisite P t courseId edgeId expected
  | .importBundle bundle => importBundle P t bundle
  | .freezeGraph courseId => requiredContent P t courseId
  | .rollbackSnapshot snapshotId advancedAt => rollbackSnapshot P t snapshotId advancedAt

/-! ### Commits -/

/-- The snapshot that `_plan` makes of a content. -/
def plannedSnapshot (content : Content K F D) (latest : Option (Snapshot K F D G))
    (restoredFrom : Option ℕ) (snapshotId : ℕ) : Snapshot K F D G where
  snapshotId := snapshotId
  courseId := content.course.courseId
  graphVersion := nextVersion latest
  parentSnapshotId := latest.map (·.snapshotId)
  restoredFromSnapshotId := restoredFrom
  content := content
  contentSha256 := P.canonicalSha256 content
  nodeCount := content.knowledgePoints.length
  edgeCount := content.prerequisites.length

/-- `_execute_mutation` with its callback. -/
def execute (call : Call K F D) : Except Exn (Tables K F D G) := do
  let content ← edited P t call
  let content ← normalizeContent P.arithmetic content call.now
  let t ← t.replaceGraphContent P content
  let latest ← t.latestSnapshot P content.course.courseId
  t.appendSnapshot (plannedSnapshot P content latest call.mutation.restoredFrom call.snapshotId)

/-- The tables after a call that commits. -/
def step (call : Call K F D) : Option (Tables K F D G) := (execute P t call).toOption

end CyberControl.Topic1
