import CyberControl.CourseRows

/-! # What a committed mutation does

A call that commits writes one normalised content and appends one snapshot of it (`Executed`).  In every
state that such calls reach, the snapshots of a course are a chain of versions and the rows of the course are
those of the newest one (`Committed`, `run_committed`). -/

namespace CyberControl.Topic1

open Collections Scheduling Versions Transition

variable {K F D G : Type} [LinearOrder K]

/-! ### Normalised contents -/

/-- What `_normalize_content` returns. -/
structure Normalized (A : FloatArithmetic F) (content : Content K F D) (now : ℤ)
    (metrics : Metrics K F) (content' : Content K F D) : Prop where
  analyzed : analyzeWeights A (content.knowledgePoints.map (·.kpId)).toFinset
    (topologyEdges content.prerequisites) = .ok metrics
  course : content'.course = content.course
  knowledgePoints : content'.knowledgePoints = sortBy (fun item => toLex (item.topologyLevel, item.kpId))
    (content.knowledgePoints.map (normalizePoint A metrics content.prerequisites now))
  prerequisites : content'.prerequisites = sortBy (fun item => toLex (item.prerequisiteKpId,
    toLex (item.dependentKpId, toLex (item.relationType.rank, item.edgeId)))) content.prerequisites
  misconceptions : content'.misconceptions = sortBy (·.misconceptionId) content.misconceptions
  textbooks : content'.textbooks = sortBy (·.textbookId) content.textbooks
  textbookSections : content'.textbookSections = sortBy (·.sectionId) content.textbookSections
  textbookMappings : content'.textbookMappings = sortBy (·.mappingId) content.textbookMappings
  goldenQuestions : content'.goldenQuestions = sortBy (·.questionId) content.goldenQuestions

variable {now : ℤ}

theorem normalizeContent_ok {A : FloatArithmetic F} {content content' : Content K F D}
    (h : normalizeContent A content now = .ok content') :
    ∃ metrics, Normalized A content now metrics content' := by
  obtain ⟨metrics, hmetrics, h⟩ := bind_eq_ok.mp h
  obtain rfl := return_eq_ok.mp h
  refine ⟨metrics, ?_, rfl, rfl, rfl, rfl, rfl, rfl, rfl, rfl⟩
  cases hanalyzed : analyzeWeights A (content.knowledgePoints.map (·.kpId)).toFinset
      (topologyEdges content.prerequisites) with
  | error e =>
    rw [hanalyzed] at hmetrics
    cases hmetrics
  | ok m =>
    rw [hanalyzed] at hmetrics
    cases hmetrics
    rfl

namespace Normalized
variable {A : FloatArithmetic F} {content content' : Content K F D} {now : ℤ} {metrics : Metrics K F}
  (hn : Normalized A content now metrics content')
include hn

theorem mem_knowledgePoints {item : KnowledgePoint K F D} : item ∈ content'.knowledgePoints ↔
    ∃ before ∈ content.knowledgePoints, normalizePoint A metrics content.prerequisites now before = item := by
  rw [hn.knowledgePoints, mem_sortBy, List.mem_map]

theorem kpIds_perm : (content'.knowledgePoints.map (·.kpId)).Perm (content.knowledgePoints.map (·.kpId)) := by
  rw [hn.knowledgePoints]
  refine (perm_sortBy.map _).trans ?_
  rw [List.map_map]
  exact List.Perm.refl _

theorem mem_kpIds {kpId : K} :
    kpId ∈ content'.knowledgePoints.map (·.kpId) ↔ kpId ∈ content.knowledgePoints.map (·.kpId) :=
  hn.kpIds_perm.mem_iff

theorem mem_prerequisites {item : Prerequisite K D} :
    item ∈ content'.prerequisites ↔ item ∈ content.prerequisites := by
  rw [hn.prerequisites, mem_sortBy]

theorem owned (ho : Owned content) : Owned content' := by
  refine ⟨fun item hitem => ?_, fun item hitem => ?_, fun item hitem => ?_, fun item hitem => ?_,
    fun item hitem => ?_⟩
  · obtain ⟨before, hbefore, rfl⟩ := hn.mem_knowledgePoints.mp hitem
    rw [hn.course]
    exact ho.kpCourse before hbefore
  · rw [hn.course]
    exact ho.edgeCourse item (hn.mem_prerequisites.mp hitem)
  · rw [hn.misconceptions, mem_sortBy] at hitem
    exact hn.mem_kpIds.mpr (ho.misconceptionKps item hitem)
  · rw [hn.textbookMappings, mem_sortBy] at hitem
    exact hn.mem_kpIds.mpr (ho.mappingKps item hitem)
  · rw [hn.goldenQuestions, mem_sortBy] at hitem
    exact hn.mem_kpIds.mpr (ho.questionKps item hitem)

end Normalized

/-! ### Loaded contents -/

variable {content : Content K F D} {course : Course K D} {courseId : K}

section loaded
variable {P : Platform K F D G} {t : Tables K F D G}

theorem gatherContent_kpIds {kpId : K} :
    kpId ∈ (t.gatherContent P course).knowledgePoints.map (·.kpId) ↔ kpId ∈ t.kpIdsOf course.courseId :=
  ((P.knowledgePointOrder.perm _).map _).mem_iff

theorem mem_gathered_points {item : KnowledgePoint K F D} :
    item ∈ (t.gatherContent P course).knowledgePoints ↔ item ∈ t.pointsOf course.courseId :=
  P.knowledgePointOrder.mem_order

theorem mem_gathered_prerequisites {item : Prerequisite K D} :
    item ∈ (t.gatherContent P course).prerequisites ↔ item ∈ t.prerequisitesOf course.courseId :=
  P.prerequisiteOrder.mem_order

theorem loadGraphContent_ok {loaded : Option (Content K F D)}
    (h : t.loadGraphContent P courseId = .ok loaded) :
    (loaded = none ∧ courseId ∉ t.courses.map (·.courseId)) ∨
      ∃ course ∈ t.courses, course.courseId = courseId ∧ loaded = some (t.gatherContent P course) ∧
        validateContent (t.gatherContent P course) = .ok () := by
  unfold Tables.loadGraphContent at h
  cases hfind : t.courses.find? fun course => course.courseId = courseId with
  | none =>
    rw [hfind] at h
    refine .inl ⟨(Except.ok.inj h).symm, fun hmem => ?_⟩
    obtain ⟨course, hcourse, hid⟩ := List.mem_map.mp hmem
    exact absurd (List.find?_eq_none.mp hfind course hcourse) (by simpa using hid)
  | some course =>
    rw [hfind] at h
    obtain ⟨hvalid, h⟩ := unit_bind_eq_ok.mp h
    exact .inr ⟨course, List.mem_of_find?_eq_some hfind, by simpa using List.find?_some hfind,
      (return_eq_ok.mp h).symm, hvalid⟩

theorem requiredContent_ok (h : requiredContent P t courseId = .ok content) :
    ∃ course ∈ t.courses, course.courseId = courseId ∧ content = t.gatherContent P course ∧
      References content := by
  obtain ⟨loaded, hloaded, h⟩ := bind_eq_ok.mp h
  rcases loadGraphContent_ok hloaded with ⟨rfl, -⟩ | ⟨course, hcourse, hid, rfl, hvalid⟩
  · cases h
  · obtain rfl := Except.ok.inj h
    exact ⟨course, hcourse, hid, rfl, (validateContent_ok.mp hvalid).2⟩

end loaded

/-! ### Snapshots that are read -/

section read
variable [DecidableEq G] {P : Platform K F D G} {t : Tables K F D G}

theorem readSnapshot_ok {row snapshot : Snapshot K F D G} (h : readSnapshot P row = .ok snapshot) :
    snapshot = { row with content := storedContent P row.content } ∧ References snapshot.content ∧
      snapshot.courseId = snapshot.content.course.courseId := by
  simp only [readSnapshot, unit_bind_eq_ok] at h
  obtain ⟨hvalid, hcourse, -, -, -, h⟩ := h
  obtain rfl := return_eq_ok.mp h
  exact ⟨rfl, (validateContent_ok.mp hvalid).2, ensure_eq_ok.mp hcourse⟩

theorem latestSnapshot_ok {latest : Option (Snapshot K F D G)}
    (h : t.latestSnapshot P courseId = .ok latest) :
    latest.map (fun snapshot => (snapshot.graphVersion, snapshot.snapshotId))
      = (latestVersion (·.graphVersion) (t.snapshotsOf courseId)).map
        fun snapshot => (snapshot.graphVersion, snapshot.snapshotId) := by
  unfold Tables.latestSnapshot at h
  cases hlatest : latestVersion (·.graphVersion) (t.snapshotsOf courseId) with
  | none =>
    rw [hlatest] at h
    rw [← Except.ok.inj h]
  | some row =>
    rw [hlatest] at h
    cases hread : readSnapshot P row with
    | error e =>
      simp only [hread] at h
      cases h
    | ok snapshot =>
      simp only [hread] at h
      obtain rfl := Except.ok.inj h
      obtain ⟨rfl, -⟩ := readSnapshot_ok hread
      rfl

theorem getSnapshot_ok {snapshotId : ℕ} {snapshot : Snapshot K F D G}
    (h : t.getSnapshot P snapshotId = .ok (some snapshot)) :
    ∃ row ∈ t.snapshots, row.snapshotId = snapshotId ∧ readSnapshot P row = .ok snapshot := by
  unfold Tables.getSnapshot at h
  cases hfind : t.snapshots.find? fun row => row.snapshotId = snapshotId with
  | none =>
    rw [hfind] at h
    cases h
  | some row =>
    rw [hfind] at h
    refine ⟨row, List.mem_of_find?_eq_some hfind, by simpa using List.find?_some hfind, ?_⟩
    cases hread : readSnapshot P row with
    | error e =>
      simp only [hread] at h
      cases h
    | ok read =>
      simp only [hread] at h
      exact congrArg Except.ok (Option.some.inj (Except.ok.inj h))

end read

/-! ### The contents that mutations build -/

section edited
variable [DecidableEq G] {P : Platform K F D G} {t : Tables K F D G}

omit [DecidableEq G] in
theorem load_of_required (h : requiredContent P t courseId = .ok content) :
    t.loadGraphContent P courseId = .ok (some content) := by
  obtain ⟨loaded, hloaded, h⟩ := bind_eq_ok.mp h
  cases loaded with
  | none => cases h
  | some loaded =>
    obtain rfl := Except.ok.inj h
    exact hloaded

/-- `_required_content` returns the graph of the course. -/
structure Loads (P : Platform K F D G) (t : Tables K F D G) (course : Course K D) : Prop where
  mem : course ∈ t.courses
  required : requiredContent P t course.courseId = .ok (t.gatherContent P course)
  references : References (t.gatherContent P course)

variable (P t) in
/-- What one call can build. -/
inductive Edit : Call K F D → Content K F D → Prop
  | createCourse {courseId : K} {document : CourseDocument D} {expected : Option ℕ} {now : ℤ} {id : ℕ}
    (hload : t.loadGraphContent P courseId = .ok none) (hnew : courseId ∉ t.courses.map (·.courseId))
    (hvalid : validateContent (upsertedCourse courseId document (none : Option (Content K F D)) now) = .ok ()) :
    Edit ⟨.upsertCourse courseId document expected, now, id⟩
      (upsertedCourse courseId document (none : Option (Content K F D)) now)
  | updateCourse {course : Course K D} {document : CourseDocument D} {expected : Option ℕ} {now : ℤ} {id : ℕ}
    (hload : t.loadGraphContent P course.courseId = .ok (some (t.gatherContent P course)))
    (hcourse : course ∈ t.courses)
    (hvalid : validateContent
      (upsertedCourse course.courseId document (some (t.gatherContent P course)) now) = .ok ()) :
    Edit ⟨.upsertCourse course.courseId document expected, now, id⟩
      (upsertedCourse course.courseId document (some (t.gatherContent P course)) now)
  | upsertKnowledgePoint {course : Course K D} {kpId : K} {document : KnowledgePointDocument F D}
    {expected : Option ℕ} {now : ℤ} {id : ℕ} (hload : Loads P t course) :
    Edit ⟨.upsertKnowledgePoint course.courseId kpId document expected, now, id⟩
      { t.gatherContent P course with
        knowledgePoints := ((t.gatherContent P course).knowledgePoints.filter fun item => item.kpId ≠ kpId) ++
          [upsertedPoint P course.courseId kpId document ((t.gatherContent P course).knowledgePoints.find?
            fun item => item.kpId = kpId) now] }
  | deleteKnowledgePoint {course : Course K D} {kpId : K} {expected : ℕ} {now : ℤ} {id : ℕ}
    (hload : Loads P t course) : Edit ⟨.deleteKnowledgePoint course.courseId kpId expected, now, id⟩
      (withoutPoint (t.gatherContent P course) kpId)
  | upsertPrerequisite {course : Course K D} (edge : Prerequisite K D) {expected : Option ℕ} {now : ℤ}
    {id : ℕ} (hload : Loads P t course) (hcourse : edge.courseId = course.courseId)
    (hstamp : edge.stamp = .written (((t.gatherContent P course).prerequisites.find?
      fun item => item.edgeId = edge.edgeId).map (·.stamp)) now) :
    Edit ⟨.upsertPrerequisite course.courseId edge.edgeId edge.toPrerequisiteDocument expected, now, id⟩
      { t.gatherContent P course with
        prerequisites := ((t.gatherContent P course).prerequisites.filter
          fun item => item.edgeId ≠ edge.edgeId) ++ [edge] }
  | deletePrerequisite {course : Course K D} {edgeId : K} {expected : ℕ} {now : ℤ} {id : ℕ}
    (hload : Loads P t course) : Edit ⟨.deletePrerequisite course.courseId edgeId expected, now, id⟩
      { t.gatherContent P course with
        prerequisites := (t.gatherContent P course).prerequisites.filter fun item => item.edgeId ≠ edgeId }
  | importBundle {bundle : ImportBundle K F D} {now : ℤ} {id : ℕ} :
    Edit ⟨.importBundle bundle, now, id⟩ bundle.content
  | freezeGraph {course : Course K D} {now : ℤ} {id : ℕ} (hload : Loads P t course) :
    Edit ⟨.freezeGraph course.courseId, now, id⟩ (t.gatherContent P course)
  | rollbackSnapshot {row target : Snapshot K F D G} {latest : Option (Snapshot K F D G)}
    {advancedAt now : ℤ} {id : ℕ} (hrow : row ∈ t.snapshots) (hread : readSnapshot P row = .ok target)
    (hlatest : t.latestSnapshot P target.courseId = .ok latest) :
    Edit ⟨.rollbackSnapshot row.snapshotId advancedAt, now, id⟩
      (rollForwardContent target.content (nextVersion latest) advancedAt)

omit [DecidableEq G] in
theorem loads_of_required (h : requiredContent P t courseId = .ok content) :
    ∃ course, Loads P t course ∧ course.courseId = courseId ∧ content = t.gatherContent P course := by
  obtain ⟨course, hcourse, rfl, rfl, hrefs⟩ := requiredContent_ok h
  exact ⟨course, ⟨hcourse, h, hrefs⟩, rfl, rfl⟩

/-- **What a call builds** when it does not raise. -/
theorem edited_ok {call : Call K F D} (h : edited P t call = .ok content) : Edit P t call content := by
  obtain ⟨mutation, now, snapshotId⟩ := call
  cases mutation with
  | upsertCourse courseId document expected =>
    obtain ⟨current, hcurrent, h⟩ := bind_eq_ok.mp h
    obtain ⟨-, h⟩ := unit_bind_eq_ok.mp h
    obtain ⟨hvalid, h⟩ := unit_bind_eq_ok.mp h
    obtain rfl := return_eq_ok.mp h
    rcases loadGraphContent_ok hcurrent with ⟨rfl, hnew⟩ | ⟨course, hcourse, rfl, rfl, -⟩
    · exact .createCourse hcurrent hnew hvalid
    · exact .updateCourse hcurrent hcourse hvalid
  | upsertKnowledgePoint courseId kpId document expected =>
    obtain ⟨loaded, hloaded, h⟩ := bind_eq_ok.mp h
    obtain ⟨-, h⟩ := unit_bind_eq_ok.mp h
    obtain rfl := return_eq_ok.mp h
    obtain ⟨course, hload, rfl, rfl⟩ := loads_of_required hloaded
    exact .upsertKnowledgePoint hload
  | deleteKnowledgePoint courseId kpId expected =>
    obtain ⟨loaded, hloaded, h⟩ := bind_eq_ok.mp h
    obtain ⟨course, hload, rfl, rfl⟩ := loads_of_required hloaded
    split at h
    · cases h
    · obtain ⟨-, h⟩ := unit_bind_eq_ok.mp h
      obtain rfl := return_eq_ok.mp h
      exact .deleteKnowledgePoint hload
  | upsertPrerequisite courseId edgeId document expected =>
    obtain ⟨loaded, hloaded, h⟩ := bind_eq_ok.mp h
    obtain ⟨-, h⟩ := unit_bind_eq_ok.mp h
    split_ifs at h with hself
    obtain rfl := return_eq_ok.mp h
    obtain ⟨course, hload, rfl, rfl⟩ := loads_of_required hloaded
    exact .upsertPrerequisite ⟨document, edgeId, course.courseId, _, hself⟩ hload rfl rfl
  | deletePrerequisite courseId edgeId expected =>
    obtain ⟨loaded, hloaded, h⟩ := bind_eq_ok.mp h
    obtain ⟨course, hload, rfl, rfl⟩ := loads_of_required hloaded
    split at h
    · cases h
    · obtain ⟨-, h⟩ := unit_bind_eq_ok.mp h
      obtain rfl := return_eq_ok.mp h
      exact .deletePrerequisite hload
  | importBundle bundle =>
    obtain ⟨-, h⟩ := unit_bind_eq_ok.mp h
    obtain ⟨latest, -, h⟩ := bind_eq_ok.mp h
    obtain ⟨-, h⟩ := unit_bind_eq_ok.mp h
    obtain rfl := return_eq_ok.mp h
    exact .importBundle
  | freezeGraph courseId =>
    obtain ⟨course, hload, rfl, rfl⟩ := loads_of_required h
    exact .freezeGraph hload
  | rollbackSnapshot snapshotId advancedAt =>
    obtain ⟨found, hfound, h⟩ := bind_eq_ok.mp h
    cases found with
    | none => cases h
    | some target =>
      obtain ⟨latest, hlatest, h⟩ := bind_eq_ok.mp h
      obtain rfl := return_eq_ok.mp h
      obtain ⟨row, hrow, rfl, hread⟩ := getSnapshot_ok hfound
      exact .rollbackSnapshot hrow hread hlatest

omit [LinearOrder K] in
theorem Owned.rollForward (ho : Owned content) (graphVersion : ℕ) (now : ℤ) :
    Owned (rollForwardContent content graphVersion now) := by
  have hids : (rollForwardContent content graphVersion now).knowledgePoints.map (·.kpId)
      = content.knowledgePoints.map (·.kpId) := by
    simp [rollForwardContent]
  refine ⟨fun item hitem => ?_, fun item hitem => ?_, fun item hitem => ?_, fun item hitem => ?_,
    fun item hitem => ?_⟩
  · obtain ⟨before, hbefore, rfl⟩ := List.mem_map.mp hitem
    exact ho.kpCourse before hbefore
  · obtain ⟨before, hbefore, rfl⟩ := List.mem_map.mp hitem
    exact ho.edgeCourse before hbefore
  · obtain ⟨before, hbefore, rfl⟩ := List.mem_map.mp hitem
    exact hids ▸ ho.misconceptionKps before hbefore
  · obtain ⟨before, hbefore, rfl⟩ := List.mem_map.mp hitem
    exact hids ▸ ho.mappingKps before hbefore
  · obtain ⟨before, hbefore, rfl⟩ := List.mem_map.mp hitem
    exact hids ▸ ho.questionKps before hbefore

/-- A knowledge point may be put in the place of the one with its identifier, or added. -/
theorem References.withPoint (h : References content) (point : KnowledgePoint K F D)
    (hcourse : point.courseId = content.course.courseId) : References { content with
      knowledgePoints := (content.knowledgePoints.filter fun item => item.kpId ≠ point.kpId) ++ [point] } := by
  have hids : ∀ {x : K}, x ∈ content.knowledgePoints.map (·.kpId) →
      x ∈ ((content.knowledgePoints.filter fun item => item.kpId ≠ point.kpId) ++ [point]).map (·.kpId) := by
    intro x hx
    obtain ⟨item, hitem, rfl⟩ := List.mem_map.mp hx
    rw [List.map_append, List.mem_append]
    by_cases heq : item.kpId = point.kpId
    · exact .inr (by simp [heq])
    · exact .inl (List.mem_map_of_mem (List.mem_filter.mpr ⟨hitem, decide_eq_true heq⟩))
  refine { h with
    kpIds := mergeRow_nodup h.kpIds
    kpCourse := fun item hitem => ?_
    edgeEnds := fun item hitem => ⟨hids (h.edgeEnds item hitem).1, hids (h.edgeEnds item hitem).2⟩
    misconceptionKps := fun item hitem => hids (h.misconceptionKps item hitem)
    mappingEnds := fun item hitem => ⟨hids (h.mappingEnds item hitem).1, (h.mappingEnds item hitem).2⟩
    questionKps := fun item hitem kpId hkpId => hids (h.questionKps item hitem kpId hkpId) }
  rcases List.mem_append.mp hitem with hitem | hitem
  · exact h.kpCourse item (List.mem_filter.mp hitem).1
  · rw [List.mem_singleton.mp hitem]
    exact hcourse

theorem mem_withoutPoint {x kpId : K} (hx : x ∈ content.knowledgePoints.map (·.kpId)) (hne : x ≠ kpId) :
    x ∈ (withoutPoint content kpId).knowledgePoints.map (·.kpId) := by
  obtain ⟨item, hitem, rfl⟩ := List.mem_map.mp hx
  exact List.mem_map_of_mem (List.mem_filter.mpr ⟨hitem, decide_eq_true hne⟩)

theorem Owned.withoutPoint (ho : Owned content) (kpId : K) :
    Owned (withoutPoint content kpId) := by
  refine ⟨fun item hitem => ?_, fun item hitem => ?_, fun item hitem => ?_, fun item hitem => ?_,
    fun item hitem => ?_⟩
  · exact ho.kpCourse item (List.mem_filter.mp hitem).1
  · exact ho.edgeCourse item (List.mem_filter.mp hitem).1
  · obtain ⟨hitem, hne⟩ := List.mem_filter.mp hitem
    exact mem_withoutPoint (ho.misconceptionKps item hitem) (of_decide_eq_true hne)
  · obtain ⟨hitem, hne⟩ := List.mem_filter.mp hitem
    exact mem_withoutPoint (ho.mappingKps item hitem) (of_decide_eq_true hne)
  · obtain ⟨hitem, hne⟩ := List.mem_filter.mp hitem
    refine mem_withoutPoint (ho.questionKps item hitem) fun heq => of_decide_eq_true hne ?_
    rw [heq]
    exact List.mem_cons_self

/-- **Every mutation builds a content whose rows refer to its own course.** -/
theorem edited_owned {call : Call K F D} (h : edited P t call = .ok content) :
    Owned content := by
  cases edited_ok h with
  | createCourse hload hnew hvalid => exact (validateContent_ok.mp hvalid).2.owned
  | updateCourse hload hcourse hvalid => exact (validateContent_ok.mp hvalid).2.owned
  | @upsertKnowledgePoint course kpId document _ now _ hload =>
    exact (hload.references.withPoint (upsertedPoint P course.courseId kpId document _ now) rfl).owned
  | deleteKnowledgePoint hload => exact hload.references.owned.withoutPoint _
  | upsertPrerequisite edge hload hcourse hstamp =>
    have ho := hload.references.owned
    refine ⟨ho.kpCourse, fun item hitem => ?_, ho.misconceptionKps, ho.mappingKps, ho.questionKps⟩
    rcases List.mem_append.mp hitem with hitem | hitem
    · exact ho.edgeCourse item (List.mem_filter.mp hitem).1
    · rw [List.mem_singleton.mp hitem]
      exact hcourse
  | deletePrerequisite hload =>
    have ho := hload.references.owned
    exact ⟨ho.kpCourse, fun item hitem => ho.edgeCourse item (List.mem_filter.mp hitem).1,
      ho.misconceptionKps, ho.mappingKps, ho.questionKps⟩
  | @importBundle bundle => exact (validateContent_ok.mp bundle.valid).2.owned
  | freezeGraph hload => exact hload.references.owned
  | rollbackSnapshot hrow hread hlatest => exact (readSnapshot_ok hread).2.1.owned.rollForward _ _

end edited

/-! ### Commits -/

section commit
variable [DecidableEq G] {P : Platform K F D G} {t : Tables K F D G} {call : Call K F D}
  {t' : Tables K F D G}

variable (P t call t') in
/-- What a call that commits has done. -/
structure Executed where
  content : Content K F D
  metrics : Metrics K F
  normal : Content K F D
  written : Tables K F D G
  latest : Option (Snapshot K F D G)
  edited_eq : edited P t call = .ok content
  normalized : Normalized P.arithmetic content call.now metrics normal
  replaced : Replaced P t normal written
  latest_eq : t.latestSnapshot P normal.course.courseId = .ok latest
  fresh : call.snapshotId ∉ t.snapshots.map (·.snapshotId)
  tables_eq : t' = { written with
    snapshots := plannedSnapshot P normal latest call.mutation.restoredFrom call.snapshotId :: t.snapshots }

theorem execute_ok (h : execute P t call = .ok t') : Nonempty (Executed P t call t') := by
  obtain ⟨content, hedited, h⟩ := bind_eq_ok.mp h
  obtain ⟨normal, hnormal, h⟩ := bind_eq_ok.mp h
  obtain ⟨written, hwritten, h⟩ := bind_eq_ok.mp h
  obtain ⟨latest, hlatest, h⟩ := bind_eq_ok.mp h
  obtain ⟨hunique, h⟩ := unit_bind_eq_ok.mp h
  obtain ⟨-, h⟩ := unit_bind_eq_ok.mp h
  obtain ⟨metrics, hnormalized⟩ := normalizeContent_ok hnormal
  have hreplaced := replaceGraphContent_ok hwritten
  have hsame : written.latestSnapshot P normal.course.courseId
      = t.latestSnapshot P normal.course.courseId := by
    unfold Tables.latestSnapshot Tables.snapshotsOf
    rw [hreplaced.snapshots]
  refine ⟨⟨content, metrics, normal, written, latest, hedited, hnormalized, hreplaced, hsame ▸ hlatest, ?_,
    ?_⟩⟩
  · rw [← hreplaced.snapshots]
    exact (ensure_eq_ok.mp hunique).1
  · rw [← hreplaced.snapshots]
    exact (return_eq_ok.mp h).symm

theorem step_eq_some (h : step P t call = some t') : Nonempty (Executed P t call t') :=
  execute_ok (eq_ok_of_toOption h)

/-! ### Committed states -/

variable (P t) in
/-- The rows of a course are those of a content. -/
structure Mirrors (content : Content K F D) : Prop where
  course : content.course ∈ t.courses
  points : t.pointsOf content.course.courseId = content.knowledgePoints
  prerequisites : t.prerequisitesOf content.course.courseId = content.prerequisites
  misconceptions : t.misconceptionsOf content.course.courseId = content.misconceptions
  mappings : t.mappingsOf content.course.courseId = content.textbookMappings
  questions : t.questionsOf content.course.courseId = content.goldenQuestions.map (questionRow P)

variable (P t) in
/-- What holds of the tables between two calls. -/
structure Committed : Prop where
  integrity : Integrity t
  chained : ∀ c, Chained (·.graphVersion) (·.snapshotId) (·.parentSnapshotId) (t.snapshotsOf c)
  snapshotIds : (t.snapshots.map (·.snapshotId)).Nodup
  own : ∀ snapshot ∈ t.snapshots, snapshot.courseId = snapshot.content.course.courseId
  kpIds : ∀ snapshot ∈ t.snapshots, (snapshot.content.knowledgePoints.map (·.kpId)).Nodup
  edgeIds : ∀ snapshot ∈ t.snapshots, (snapshot.content.prerequisites.map (·.edgeId)).Nodup
  mirrors : ∀ c, ∀ snapshot ∈ (t.snapshotsOf c).head?, Mirrors P t snapshot.content
  snapshotted : ∀ course ∈ t.courses, t.snapshotsOf course.courseId ≠ []

omit [DecidableEq G] in
theorem Committed.empty : Committed P Tables.empty := by
  refine ⟨Integrity.empty, fun c => trivial, ?_, ?_, ?_, ?_, ?_, ?_⟩
  all_goals simp [Tables.empty, Tables.snapshotsOf]

namespace Executed
variable (e : Executed P t call t')

theorem snapshots_eq : t'.snapshots
    = plannedSnapshot P e.normal e.latest call.mutation.restoredFrom call.snapshotId :: t.snapshots :=
  congrArg Tables.snapshots e.tables_eq

theorem snapshotsOf_own : t'.snapshotsOf e.normal.course.courseId
    = plannedSnapshot P e.normal e.latest call.mutation.restoredFrom call.snapshotId ::
      t.snapshotsOf e.normal.course.courseId := by
  unfold Tables.snapshotsOf
  rw [e.snapshots_eq]
  exact List.filter_cons_of_pos (decide_eq_true rfl)

theorem snapshotsOf_other {c : K} (hc : c ≠ e.normal.course.courseId) :
    t'.snapshotsOf c = t.snapshotsOf c := by
  unfold Tables.snapshotsOf
  rw [e.snapshots_eq]
  exact List.filter_cons_of_neg fun h => hc (of_decide_eq_true h).symm

theorem owned : Owned e.normal := e.normalized.owned (edited_owned e.edited_eq)

end Executed

theorem Committed.follows (hc : Committed P t) (e : Executed P t call t') :
    Follows (·.graphVersion) (·.snapshotId) (·.parentSnapshotId)
      (plannedSnapshot P e.normal e.latest call.mutation.restoredFrom call.snapshotId)
      (t.snapshotsOf e.normal.course.courseId).head? := by
  have hlatest := latestSnapshot_ok e.latest_eq
  rw [(hc.chained _).latest] at hlatest
  cases hhead : (t.snapshotsOf e.normal.course.courseId).head? with
  | none =>
    rw [hhead] at hlatest
    have hnone : e.latest = none := Option.map_eq_none_iff.mp hlatest
    exact ⟨by simp [plannedSnapshot, nextVersion, hnone], by simp [plannedSnapshot, hnone]⟩
  | some head =>
    rw [hhead] at hlatest
    obtain ⟨latest, hsome, heq⟩ := Option.map_eq_some_iff.mp hlatest
    obtain ⟨hversion, hid⟩ := Prod.mk.injEq _ _ _ _ ▸ heq
    exact ⟨by simp [plannedSnapshot, nextVersion, hsome, hversion], by simp [plannedSnapshot, hsome, hid]⟩

/-- **Every committed call keeps the tables committed.** -/
theorem Committed.commit (hc : Committed P t) (e : Executed P t call t') : Committed P t' := by
  have hfollows := hc.follows e
  have hr := e.replaced
  have ho := e.owned
  have hi := hc.integrity
  have hrows : ∀ {α : Type} (f : Tables K F D G → α), f t' = f { e.written with
      snapshots := plannedSnapshot P e.normal e.latest call.mutation.restoredFrom call.snapshotId
        :: t.snapshots } := fun f => congrArg f e.tables_eq
  have hpoints : ∀ c, t'.pointsOf c = e.written.pointsOf c := fun c => hrows (·.pointsOf c)
  have hedges : ∀ c, t'.prerequisitesOf c = e.written.prerequisitesOf c := fun c => hrows (·.prerequisitesOf c)
  have hmisconceptions : ∀ c, t'.misconceptionsOf c = e.written.misconceptionsOf c := fun c =>
    hrows (·.misconceptionsOf c)
  have hmappings : ∀ c, t'.mappingsOf c = e.written.mappingsOf c := fun c => hrows (·.mappingsOf c)
  have hquestions : ∀ c, t'.questionsOf c = e.written.questionsOf c := fun c => hrows (·.questionsOf c)
  have hcourses : t'.courses = mergeRow (·.courseId) t.courses e.normal.course :=
    (hrows (·.courses)).trans hr.courses
  have hnew : plannedSnapshot P e.normal e.latest call.mutation.restoredFrom call.snapshotId
      ∈ t'.snapshots := by
    rw [e.snapshots_eq]
    exact List.mem_cons_self
  have hsnapshots : ∀ snapshot ∈ t'.snapshots, snapshot = plannedSnapshot P e.normal e.latest
      call.mutation.restoredFrom call.snapshotId ∨ snapshot ∈ t.snapshots := by
    intro snapshot hsnapshot
    rw [e.snapshots_eq] at hsnapshot
    exact List.mem_cons.mp hsnapshot
  refine ⟨?_, fun c => ?_, ?_, fun snapshot hsnapshot => ?_, fun snapshot hsnapshot => ?_,
    fun snapshot hsnapshot => ?_, fun c snapshot hsnapshot => ?_, fun course hcourse => ?_⟩
  · rw [e.tables_eq]
    have hwritten := hr.integrity ho hi
    exact ⟨hwritten.courseIds, hwritten.kpIds, hwritten.kpCourses, hwritten.edgeIds, hwritten.edgeRelations,
      hwritten.edgeEnds, hwritten.misconceptionIds, hwritten.misconceptionKps, hwritten.textbookIds,
      hwritten.sectionIds, hwritten.sectionTextbooks, hwritten.sectionParents, hwritten.mappingIds,
      hwritten.mappingRelations, hwritten.mappingEnds, hwritten.questionIds, hwritten.questionKps⟩
  · by_cases hcourse : c = e.normal.course.courseId
    · rw [hcourse, e.snapshotsOf_own]
      exact ⟨hfollows, hc.chained _⟩
    · rw [e.snapshotsOf_other hcourse]
      exact hc.chained c
  · rw [e.snapshots_eq, List.map_cons, List.nodup_cons]
    exact ⟨e.fresh, hc.snapshotIds⟩
  · rcases hsnapshots snapshot hsnapshot with rfl | hold
    · rfl
    · exact hc.own snapshot hold
  · rcases hsnapshots snapshot hsnapshot with rfl | hold
    · have hsub : (e.written.pointsOf e.normal.course.courseId).Sublist e.written.knowledgePoints :=
        List.filter_sublist
      rw [hr.pointsOf_own ho] at hsub
      exact (hsub.map (·.kpId)).nodup hr.kpIds
    · exact hc.kpIds snapshot hold
  · rcases hsnapshots snapshot hsnapshot with rfl | hold
    · have hsub : (e.written.prerequisitesOf e.normal.course.courseId).Sublist e.written.prerequisites :=
        List.filter_sublist
      rw [hr.prerequisitesOf_own ho hi] at hsub
      exact (hsub.map (·.edgeId)).nodup hr.unique.1
    · exact hc.edgeIds snapshot hold
  · by_cases hcourse : c = e.normal.course.courseId
    · rw [hcourse, e.snapshotsOf_own] at hsnapshot
      obtain rfl := Option.mem_some.mp hsnapshot
      refine ⟨?_, (hpoints _).trans (hr.pointsOf_own ho), (hedges _).trans (hr.prerequisitesOf_own ho hi),
        (hmisconceptions _).trans (hr.misconceptionsOf_own ho hi), (hmappings _).trans (hr.mappingsOf_own ho hi),
        (hquestions _).trans (hr.questionsOf_own ho hi)⟩
      rw [hcourses]
      exact mem_mergeRow.mpr (.inl rfl)
    · rw [e.snapshotsOf_other hcourse] at hsnapshot
      have hm := hc.mirrors c snapshot hsnapshot
      have hid : snapshot.content.course.courseId = c := by
        obtain ⟨hmem, hsnapshotc⟩ := List.mem_filter.mp (List.mem_of_mem_head? hsnapshot)
        exact (hc.own snapshot hmem).symm.trans (of_decide_eq_true hsnapshotc)
      have hother : snapshot.content.course.courseId ≠ e.normal.course.courseId := hid ▸ hcourse
      refine ⟨?_, (hpoints _).trans ((hr.pointsOf_other ho hother).trans hm.points),
        (hedges _).trans ((hr.prerequisitesOf_other ho hother).trans hm.prerequisites),
        (hmisconceptions _).trans ((hr.misconceptionsOf_other ho hi hother).trans hm.misconceptions),
        (hmappings _).trans ((hr.mappingsOf_other ho hi hother).trans hm.mappings),
        (hquestions _).trans ((hr.questionsOf_other ho hi hother).trans hm.questions)⟩
      rw [hcourses]
      exact mem_mergeRow.mpr (.inr ⟨hm.course, hother⟩)
  · rw [hcourses] at hcourse
    rcases mem_mergeRow.mp hcourse with rfl | ⟨hold, hne⟩
    · rw [e.snapshotsOf_own]
      exact List.cons_ne_nil _ _
    · rw [e.snapshotsOf_other hne]
      exact hc.snapshotted course hold

omit [DecidableEq G] in
theorem Committed.newest (hc : Committed P t) (hcourse : course ∈ t.courses) :
    ∃ snapshot ∈ (t.snapshotsOf course.courseId).head?, Mirrors P t snapshot.content ∧
      snapshot.content.course = course := by
  obtain ⟨snapshot, hhead⟩ := Option.isSome_iff_exists.mp
    (List.isSome_head?.mpr (hc.snapshotted course hcourse))
  have hmirror := hc.mirrors course.courseId snapshot hhead
  obtain ⟨hmem, hid⟩ := List.mem_filter.mp (List.mem_of_mem_head? hhead)
  refine ⟨snapshot, hhead, hmirror, ?_⟩
  refine List.inj_on_of_nodup_map hc.integrity.courseIds hmirror.course hcourse ?_
  rw [← hc.own snapshot hmem]
  exact of_decide_eq_true hid

omit [DecidableEq G] in
theorem Committed.snapshotsOf_eq_nil (hc : Committed P t) {c : K}
    (hnew : c ∉ t.courses.map (·.courseId)) : t.snapshotsOf c = [] := by
  by_contra hne
  obtain ⟨snapshot, hhead⟩ := Option.isSome_iff_exists.mp (List.isSome_head?.mpr hne)
  have hmirror := (hc.mirrors c snapshot hhead).course
  obtain ⟨hmem, hid⟩ := List.mem_filter.mp (List.mem_of_mem_head? hhead)
  refine hnew ?_
  rw [← of_decide_eq_true hid, hc.own snapshot hmem]
  exact List.mem_map_of_mem hmirror

/-- **The tables between two calls of any run.** -/
theorem run_committed {calls : List (Call K F D)} (ht : Committed P t)
    (h : run (step P) t calls = some t') : Committed P t' :=
  run_invariant (fun _ _ _ hs hstep => hs.commit (step_eq_some hstep).some) ht h

theorem run_snapshots {calls : List (Call K F D)} (h : run (step P) t calls = some t') :
    ∀ snapshot ∈ t.snapshots, snapshot ∈ t'.snapshots := by
  refine run_invariant (I := fun s => ∀ snapshot ∈ t.snapshots, snapshot ∈ s.snapshots)
    (fun s call s' hs hstep snapshot hsnapshot => ?_) (fun _ h => h) h
  obtain ⟨e⟩ := step_eq_some hstep
  rw [e.snapshots_eq]
  exact List.mem_cons_of_mem _ (hs snapshot hsnapshot)

end commit

end CyberControl.Topic1
