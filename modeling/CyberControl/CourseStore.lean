import CyberControl.CourseValidation
import CyberControl.RowOrders
import CyberControl.Versions

/-! # The tables of Topic 1

`PostgresTopic1Repository` over the tables of one tenant: `replace_graph_content` writes the rows of a course
again, and merges textbooks and sections into tables that all courses share; `load_graph_content` reads a
graph back from the rows; snapshots are appended as JSON documents.  The constraints of the tables are
checked where a statement would violate them. -/

namespace CyberControl.Topic1

open Collections Scheduling Versions

/-! ### Tables -/

/-- `Topic1GraphSnapshotV1`; `G` is the type of the digests. -/
structure Snapshot (K F D G : Type) where
  snapshotId : ℕ
  courseId : K
  graphVersion : ℕ
  parentSnapshotId : Option ℕ
  restoredFromSnapshotId : Option ℕ
  content : Content K F D
  contentSha256 : G
  nodeCount : ℕ
  edgeCount : ℕ

/-- `Topic1ImportBundleV1`; its content has been validated. -/
structure ImportBundle (K F D : Type) [LinearOrder K] where
  expectedParentVersion : Option ℕ
  content : Content K F D
  valid : validateContent content = .ok ()

/-- The rows of one tenant. -/
structure Tables (K F D G : Type) where
  courses : List (Course K D)
  knowledgePoints : List (KnowledgePoint K F D)
  prerequisites : List (Prerequisite K D)
  misconceptions : List (Misconception K D)
  textbooks : List (Textbook K D)
  textbookSections : List (TextbookSection K D)
  textbookMappings : List (TextbookMapping K D)
  goldenQuestions : List (GoldenQuestion K D)
  snapshots : List (Snapshot K F D G)

def Tables.empty {K F D G : Type} : Tables K F D G := ⟨[], [], [], [], [], [], [], [], []⟩

/-- What the code outside the source does. -/
structure Platform (K F D G : Type) [LinearOrder K] where
  arithmetic : FloatArithmetic F
  /-- `canonical_sha256(content.model_dump(mode="json"))`. -/
  canonicalSha256 : Content K F D → G
  /-- The length of the canonical JSON of a bundle. -/
  bundleSize : ImportBundle K F D → ℕ
  /-- A JSON value as a JSONB column gives it back. -/
  jsonb : D → D
  /-- A floating-point number of a JSON value as a JSONB column gives it back. -/
  jsonbFloat : F → F
  /-- The sort key of an identifier under the collation of the database. -/
  collate : K → K
  /-- `ORDER BY topology_level, kp_id`. -/
  knowledgePointOrder :
    RowOrder fun item : KnowledgePoint K F D => toLex (item.topologyLevel, collate item.kpId)
  /-- `ORDER BY prerequisite_kp_id, dependent_kp_id`. -/
  prerequisiteOrder :
    RowOrder fun item : Prerequisite K D =>
      toLex (collate item.prerequisiteKpId, collate item.dependentKpId)

variable {K F D G : Type} [LinearOrder K]

theorem lawfulBEq_of_linearOrder : LawfulBEq K := inferInstance

/-! ### Writing a graph -/

/-- What `_execute_mutation` makes of a violated uniqueness constraint. -/
def uniquenessViolated : Exn := conflict "The Topic 1 mutation violates a uniqueness constraint."

/-- What `_execute_mutation` makes of any other violated constraint. -/
def constraintViolated : Exn :=
  .liyan ⟨.CONTRACT_INVALID, "The Topic 1 mutation violates a persistence constraint.", .CONTRACT, false, 422⟩

section merge
variable {α : Type} (key : α → K)

/-- `session.merge`: the row with the key of the new one is replaced, or the new one is added. -/
def mergeRow (rows : List α) (row : α) : List α := (rows.filter fun other => key other ≠ key row) ++ [row]

variable {key} {rows : List α} {row other : α}

theorem mem_mergeRow : other ∈ mergeRow key rows row ↔ other = row ∨ (other ∈ rows ∧ key other ≠ key row) := by
  simp [mergeRow, or_comm]

theorem mergeRow_nodup (h : (rows.map key).Nodup) : ((mergeRow key rows row).map key).Nodup := by
  unfold mergeRow
  rw [List.map_append, List.nodup_append]
  refine ⟨(List.filter_sublist.map key).nodup h, List.nodup_singleton _, fun a ha b hb => ?_⟩
  obtain ⟨other, hother, rfl⟩ := List.mem_map.mp ha
  obtain rfl := List.mem_singleton.mp hb
  simpa using (List.mem_filter.mp hother).2

variable {new : List α}

theorem foldl_mergeRow_nodup (h : (rows.map key).Nodup) :
    ((new.foldl (mergeRow key) rows).map key).Nodup := by
  induction new generalizing rows with
  | nil => exact h
  | cons row new ih => exact ih (mergeRow_nodup h)

theorem mem_foldl_mergeRow (hnew : (new.map key).Nodup) :
    other ∈ new.foldl (mergeRow key) rows ↔
      other ∈ new ∨ (other ∈ rows ∧ key other ∉ new.map key) := by
  induction new generalizing rows with
  | nil => simp
  | cons row new ih =>
    obtain ⟨hrow, hnew⟩ := List.nodup_cons.mp hnew
    rw [List.foldl_cons, ih hnew, mem_mergeRow, List.mem_cons, List.map_cons, List.mem_cons]
    constructor
    · rintro (h | ⟨rfl | ⟨hother, hne⟩, hnot⟩)
      · exact .inl (.inr h)
      · exact .inl (.inl rfl)
      · refine .inr ⟨hother, ?_⟩
        rintro (h | h)
        · exact hne h
        · exact hnot h
    · rintro ((rfl | h) | ⟨hother, hnot⟩)
      · exact .inr ⟨.inl rfl, hrow⟩
      · exact .inl h
      · exact .inr ⟨.inr ⟨hother, fun h => hnot (.inl h)⟩, fun h => hnot (.inr h)⟩

theorem of_mem_foldl_mergeRow (h : other ∈ new.foldl (mergeRow key) rows) :
    other ∈ new ∨ other ∈ rows := by
  induction new generalizing rows with
  | nil => exact .inr h
  | cons row new ih =>
    rcases ih h with hmem | hmem
    · exact .inl (List.mem_cons_of_mem row hmem)
    · rcases mem_mergeRow.mp hmem with rfl | ⟨hother, -⟩
      · exact .inl List.mem_cons_self
      · exact .inr hother

theorem mem_keys_mergeRow {k : K} :
    k ∈ (mergeRow key rows row).map key ↔ k = key row ∨ k ∈ rows.map key := by
  simp only [List.mem_map, mem_mergeRow]
  constructor
  · rintro ⟨other, rfl | ⟨hother, -⟩, rfl⟩
    · exact .inl rfl
    · exact .inr ⟨other, hother, rfl⟩
  · rintro (rfl | ⟨other, hother, rfl⟩)
    · exact ⟨row, .inl rfl, rfl⟩
    · by_cases hkey : key other = key row
      · exact ⟨row, .inl rfl, hkey.symm⟩
      · exact ⟨other, .inr ⟨hother, hkey⟩, rfl⟩

theorem mem_keys_foldl_mergeRow {k : K} :
    k ∈ (new.foldl (mergeRow key) rows).map key ↔ k ∈ new.map key ∨ k ∈ rows.map key := by
  induction new generalizing rows with
  | nil => simp
  | cons row new ih =>
    rw [List.foldl_cons, ih, mem_keys_mergeRow, List.map_cons, List.mem_cons, or_left_comm, or_assoc]

end merge

def Tables.putCourse (t : Tables K F D G) (course : Course K D) : Except Exn (Tables K F D G) := do
  ensure (∀ other ∈ t.courses, other.courseId ≠ course.courseId → other.courseCode ≠ course.courseCode)
    uniquenessViolated
  return { t with courses := mergeRow (·.courseId) t.courses course }

/-- `delete(Topic1KnowledgePointModel)` for a course, with the rows that the database deletes along. -/
def Tables.deleteKnowledgePoints (t : Tables K F D G) (courseId : K) : Tables K F D G :=
  let gone := (t.knowledgePoints.filter fun item => item.courseId = courseId).map (·.kpId)
  { t with
    knowledgePoints := t.knowledgePoints.filter fun item => item.courseId ≠ courseId
    prerequisites := t.prerequisites.filter fun item =>
      ¬ (item.courseId = courseId ∧ (item.prerequisiteKpId ∈ gone ∨ item.dependentKpId ∈ gone))
    misconceptions := t.misconceptions.filter fun item => item.kpId ∉ gone
    textbookMappings := t.textbookMappings.filter fun item => item.kpId ∉ gone
    goldenQuestions := t.goldenQuestions.filter fun item => item.primaryKpId ∉ gone }

/-- The first `session.add` loop with its flush. -/
def Tables.insertKnowledgePoints (t : Tables K F D G) (items : List (KnowledgePoint K F D)) :
    Except Exn (Tables K F D G) := do
  ensure ((t.knowledgePoints ++ items).map (·.kpId)).Nodup uniquenessViolated
  ensure (∀ item ∈ items, item.courseId ∈ t.courses.map (·.courseId)) constraintViolated
  return { t with knowledgePoints := t.knowledgePoints ++ items }

def Tables.mergeTextbooks (t : Tables K F D G) (items : List (Textbook K D)) :
    Except Exn (Tables K F D G) := do
  let rows := items.foldl (mergeRow (·.textbookId)) t.textbooks
  ensure (rows.filterMap (·.isbn)).Nodup uniquenessViolated
  return { t with textbooks := rows }

/-- `_ordered_sections`, at most `fuel` rounds. -/
def orderSections : ℕ → List (TextbookSection K D) → Finset K → List (TextbookSection K D) →
    Except Exn (List (TextbookSection K D))
  | _, [], _, ordered => .ok ordered
  | 0, _ :: _, _, _ => .error (.other "fuel")
  | fuel + 1, first :: rest, emitted, ordered =>
    let isReady := fun item : TextbookSection K D => ∀ parent ∈ item.parentSectionId, parent ∈ emitted
    let ready := sortBy (·.sectionId) ((first :: rest).filter fun item => isReady item)
    if ready = [] then
      .error (.valueError "textbook section hierarchy contains a cycle or missing parent")
    else orderSections fuel ((first :: rest).filter fun item => ¬ isReady item)
      (emitted ∪ (ready.map (·.sectionId)).toFinset) (ordered ++ ready)

def mergeSection (textbooks : List (Textbook K D)) (rows : List (TextbookSection K D))
    (item : TextbookSection K D) : Except Exn (List (TextbookSection K D)) := do
  ensure (item.textbookId ∈ textbooks.map (·.textbookId)) constraintViolated
  ensure (∀ parent ∈ item.parentSectionId, parent ∈ rows.map (·.sectionId)) constraintViolated
  return mergeRow (·.sectionId) rows item

def Tables.mergeSections (t : Tables K F D G) (items : List (TextbookSection K D)) :
    Except Exn (Tables K F D G) := do
  let ordered ← orderSections items.length items ∅ []
  let rows ← ordered.foldlM (mergeSection t.textbooks) t.textbookSections
  return { t with textbookSections := rows }

variable (P : Platform K F D G)

/-- A question as its row holds it: the answer is in a JSONB column. -/
def questionRow (item : GoldenQuestion K D) : GoldenQuestion K D :=
  { item with answerDocument := P.jsonb item.answerDocument }

/-- The last `session.add_all` calls with their flush. -/
def Tables.insertDependents (t : Tables K F D G) (content : Content K F D) :
    Except Exn (Tables K F D G) := do
  let prerequisites := t.prerequisites ++ content.prerequisites
  let misconceptions := t.misconceptions ++ content.misconceptions
  let textbookMappings := t.textbookMappings ++ content.textbookMappings
  let goldenQuestions := t.goldenQuestions ++ content.goldenQuestions.map (questionRow P)
  ensure ((prerequisites.map (·.edgeId)).Nodup ∧
      (prerequisites.map fun item =>
        (item.courseId, item.prerequisiteKpId, item.dependentKpId, item.relationType)).Nodup ∧
      (misconceptions.map (·.misconceptionId)).Nodup ∧ (textbookMappings.map (·.mappingId)).Nodup ∧
      (textbookMappings.map fun item => (item.kpId, item.sectionId, item.mappingType)).Nodup ∧
      (goldenQuestions.map (·.questionId)).Nodup)
    uniquenessViolated
  let known := t.knowledgePoints.map fun item => (item.courseId, item.kpId)
  let kpIds := t.knowledgePoints.map (·.kpId)
  ensure ((∀ item ∈ content.prerequisites,
        (item.courseId, item.prerequisiteKpId) ∈ known ∧ (item.courseId, item.dependentKpId) ∈ known) ∧
      (∀ item ∈ content.misconceptions, item.kpId ∈ kpIds) ∧
      (∀ item ∈ content.textbookMappings,
        item.kpId ∈ kpIds ∧ item.sectionId ∈ t.textbookSections.map (·.sectionId)) ∧
      ∀ item ∈ content.goldenQuestions, item.primaryKpId ∈ kpIds)
    constraintViolated
  return { t with prerequisites, misconceptions, textbookMappings, goldenQuestions }

def Tables.replaceGraphContent (t : Tables K F D G) (content : Content K F D) :
    Except Exn (Tables K F D G) := do
  let t ← t.putCourse content.course
  let t ← (t.deleteKnowledgePoints content.course.courseId).insertKnowledgePoints content.knowledgePoints
  let t ← t.mergeTextbooks content.textbooks
  let t ← t.mergeSections content.textbookSections
  t.insertDependents P content

/-! ### Reading a graph -/

/-- The loop of `_load_sections_with_ancestors`, at most `fuel` times: the identifiers of `loaded`. -/
def loadSections (rows : List (TextbookSection K D)) : ℕ → Finset K → Finset K → Finset K
  | 0, loaded, _ => loaded
  | fuel + 1, loaded, pending =>
    if pending = ∅ then loaded
    else
      let found := rows.filter fun row => row.sectionId ∈ pending
      let loaded := loaded ∪ (found.map (·.sectionId)).toFinset
      loadSections rows fuel loaded ((found.filterMap (·.parentSectionId)).toFinset \ loaded)

def Tables.loadSectionsWithAncestors (t : Tables K F D G) (sectionIds : List K) :
    List (TextbookSection K D) :=
  let loaded := loadSections t.textbookSections (t.textbookSections.length + 1) ∅ sectionIds.toFinset
  sortBy (·.sectionId) (t.textbookSections.filter fun row => row.sectionId ∈ loaded)

/-- What `load_graph_content` puts together for an existing course, before it is validated. -/
def Tables.gatherContent (t : Tables K F D G) (course : Course K D) : Content K F D :=
  let knowledgePoints := P.knowledgePointOrder.order
    (t.knowledgePoints.filter fun item => item.courseId = course.courseId)
  let kpIds := knowledgePoints.map (·.kpId)
  let mappings := t.textbookMappings.filter fun item => item.kpId ∈ kpIds
  let sections := t.loadSectionsWithAncestors (mappings.map (·.sectionId))
  let textbooks := t.textbooks.filter fun item => item.textbookId ∈ sections.map (·.textbookId)
  { course := course
    knowledgePoints := knowledgePoints
    prerequisites := P.prerequisiteOrder.order
      (t.prerequisites.filter fun item => item.courseId = course.courseId)
    misconceptions := sortBy (·.misconceptionId)
      (t.misconceptions.filter fun item => item.kpId ∈ kpIds)
    textbooks := sortBy (·.textbookId) textbooks
    textbookSections := sortBy (·.sectionId) sections
    textbookMappings := sortBy (·.mappingId) mappings
    goldenQuestions := sortBy (·.questionId)
      (t.goldenQuestions.filter fun item => item.primaryKpId ∈ kpIds) }

def Tables.loadGraphContent (t : Tables K F D G) (courseId : K) : Except Exn (Option (Content K F D)) :=
  match t.courses.find? fun course => course.courseId = courseId with
  | none => .ok none
  | some course => do
    validateContent (t.gatherContent P course)
    return some (t.gatherContent P course)

/-! ### Snapshots -/

/-- A content as the JSONB column of the snapshots gives it back. -/
def storedContent (content : Content K F D) : Content K F D where
  course := { content.course with fields := P.jsonb content.course.fields }
  knowledgePoints := content.knowledgePoints.map fun item =>
    { item with
      fields := P.jsonb item.fields
      difficultyScore := P.jsonbFloat item.difficultyScore
      topologyWeight := P.jsonbFloat item.topologyWeight }
  prerequisites := content.prerequisites.map fun item => { item with fields := P.jsonb item.fields }
  misconceptions := content.misconceptions.map fun item => { item with fields := P.jsonb item.fields }
  textbooks := content.textbooks.map fun item => { item with fields := P.jsonb item.fields }
  textbookSections := content.textbookSections.map fun item => { item with fields := P.jsonb item.fields }
  textbookMappings := content.textbookMappings.map fun item => { item with fields := P.jsonb item.fields }
  goldenQuestions := content.goldenQuestions.map fun item =>
    { item with fields := P.jsonb item.fields, answerDocument := P.jsonb item.answerDocument }

variable [DecidableEq G]

/-- `Topic1GraphSnapshotV1.model_validate(row.snapshot_document)`. -/
def readSnapshot (row : Snapshot K F D G) : Except Exn (Snapshot K F D G) := do
  let content := storedContent P row.content
  validateContent content
  ensure (row.courseId = content.course.courseId)
    (.valueError "snapshot course_id must match the content course")
  ensure (row.nodeCount = content.knowledgePoints.length)
    (.valueError "snapshot node_count does not match knowledge_points")
  ensure (row.edgeCount = content.prerequisites.length)
    (.valueError "snapshot edge_count does not match prerequisites")
  ensure (row.contentSha256 = P.canonicalSha256 content)
    (.valueError "snapshot content_sha256 does not match content")
  return { row with content := content }

/-- The rows of the snapshots of a course. -/
def Tables.snapshotsOf (t : Tables K F D G) (courseId : K) : List (Snapshot K F D G) :=
  t.snapshots.filter fun row => row.courseId = courseId

def Tables.latestSnapshot (t : Tables K F D G) (courseId : K) : Except Exn (Option (Snapshot K F D G)) :=
  match latestVersion (·.graphVersion) (t.snapshotsOf courseId) with
  | none => .ok none
  | some row => (readSnapshot P row).map some

def Tables.getSnapshot (t : Tables K F D G) (snapshotId : ℕ) : Except Exn (Option (Snapshot K F D G)) :=
  match t.snapshots.find? fun row => row.snapshotId = snapshotId with
  | none => .ok none
  | some row => (readSnapshot P row).map some

omit [DecidableEq G] in
/-- `append_snapshot`; the newest row comes first. -/
def Tables.appendSnapshot (t : Tables K F D G) (snapshot : Snapshot K F D G) :
    Except Exn (Tables K F D G) := do
  ensure (snapshot.snapshotId ∉ t.snapshots.map (·.snapshotId) ∧
      (snapshot.courseId, snapshot.graphVersion) ∉
        t.snapshots.map fun row => (row.courseId, row.graphVersion))
    uniquenessViolated
  ensure (snapshot.courseId ∈ t.courses.map (·.courseId) ∧
      (∀ parent ∈ snapshot.parentSnapshotId, parent ∈ t.snapshots.map (·.snapshotId)) ∧
      ∀ source ∈ snapshot.restoredFromSnapshotId, source ∈ t.snapshots.map (·.snapshotId))
    constraintViolated
  return { t with snapshots := snapshot :: t.snapshots }

end CyberControl.Topic1
