import CyberControl.CourseFit
import CyberControl.CourseRevisions

/-! # Courses that can be read

Every operation on a course first reads its graph, and most read its latest snapshot; both are validated, so
one broken rule in a committed graph blocks the course. -/

namespace CyberControl.Topic1

open Collections Scheduling Transition

variable {K F D G : Type} [LinearOrder K]

/-! ### The condition -/

section condition
variable (P : Platform K F D G) (t : Tables K F D G)

/-- The graph and the latest snapshot of a course are read without an error. -/
structure Readable [DecidableEq G] (c : K) : Prop where
  graph : ∃ content, t.loadGraphContent P c = .ok (some content)
  snapshot : ∃ snapshot, t.latestSnapshot P c = .ok (some snapshot)

/-- The sections of a content suit the courses that share them. -/
def LeavesOthers (content : Content K F D) : Prop :=
  ∀ course ∈ t.courses, course.courseId ≠ content.course.courseId →
    SectionsFit (t.withShelf content) course.courseId

instance (content : Content K F D) : Decidable (LeavesOthers t content) :=
  inferInstanceAs (Decidable (∀ _ ∈ _, _))

/-- The graph of a course does without a knowledge point: no question that stays has a misconception of it,
and its sections are reached from the mappings of the others. -/
def Dispensable (courseId kpId : K) : Prop :=
  (∀ item ∈ t.questionsOf courseId, kpId ∉ item.primaryKpId :: item.relatedKpIds →
    ∀ other ∈ t.misconceptionsOf courseId, other.misconceptionId ∈ item.misconceptionIds →
      other.kpId ≠ kpId) ∧
  ∀ row ∈ t.sectionsOf courseId, row ∈ t.loadSectionsWithAncestors
    (((t.mappingsOf courseId).filter fun item => item.kpId ≠ kpId).map (·.sectionId))

instance [DecidableEq D] (courseId kpId : K) : Decidable (Dispensable t courseId kpId) :=
  inferInstanceAs (Decidable (_ ∧ _))

/-- What a call must meet for its course, and the others, to stay readable. -/
def SoundCall (call : Call K F D) : Prop :=
  match call.mutation with
  | .upsertCourse _ document _ => P.jsonb document.fields = document.fields
  | .upsertKnowledgePoint courseId kpId document _ =>
    P.jsonb document.fields = document.fields ∧
      P.jsonbFloat document.difficultyScore = document.difficultyScore ∧
      (kpId ∈ t.kpIdsOf courseId ∨ (t.pointsOf courseId).length < 5000)
  | .deleteKnowledgePoint courseId kpId _ => Dispensable t courseId kpId
  | .upsertPrerequisite courseId edgeId document _ =>
    P.jsonb document.fields = document.fields ∧
      (edgeId ∈ (t.prerequisitesOf courseId).map (·.edgeId) ∨ (t.prerequisitesOf courseId).length < 20000)
  | .importBundle bundle => Kept P bundle.content ∧ LeavesOthers t bundle.content
  | .rollbackSnapshot snapshotId _ =>
    ∀ row ∈ t.snapshots, row.snapshotId = snapshotId → LeavesOthers t row.content
  | _ => True

end condition

/-! ### Sound states -/

/-- A snapshot that can be read, with nothing changed by the JSONB column. -/
structure SoundSnapshot (P : Platform K F D G) (row : Snapshot K F D G) : Prop where
  kept : Kept P row.content
  weights : ∀ item ∈ row.content.knowledgePoints, P.jsonbFloat item.topologyWeight = item.topologyWeight
  limits : WithinLimits row.content
  references : References row.content
  course : row.courseId = row.content.course.courseId
  nodeCount : row.nodeCount = row.content.knowledgePoints.length
  edgeCount : row.edgeCount = row.content.prerequisites.length
  contentSha256 : row.contentSha256 = P.canonicalSha256 row.content

/-- The invariant. -/
structure Sound (P : Platform K F D G) (t : Tables K F D G) : Prop where
  committed : Committed P t
  snapshots : ∀ row ∈ t.snapshots, SoundSnapshot P row
  textbooks : ∀ item ∈ t.textbooks, P.jsonb item.fields = item.fields
  sections : ∀ item ∈ t.textbookSections, P.jsonb item.fields = item.fields
  acyclic : Acyclic t
  rowsFit : ∀ course ∈ t.courses, RowsFit t course.courseId
  sectionsFit : ∀ course ∈ t.courses, SectionsFit t course.courseId

variable {P : Platform K F D G}

theorem SoundSnapshot.stored {row : Snapshot K F D G} (h : SoundSnapshot P row) :
    storedContent P row.content = row.content := storedContent_eq_iff.mpr ⟨h.kept, h.weights⟩

theorem SoundSnapshot.read [DecidableEq G] {row : Snapshot K F D G}
    (h : SoundSnapshot P row) : readSnapshot P row = .ok row := by
  unfold readSnapshot
  simp only [h.stored]
  simp only [↓unit_bind_eq_ok, ensure_eq_ok, return_eq_ok]
  exact ⟨validateContent_ok.mpr ⟨h.limits, h.references⟩, h.course, h.nodeCount, h.edgeCount,
    h.contentSha256, trivial⟩

theorem Sound.empty (P : Platform K F D G) : Sound P Tables.empty := by
  refine ⟨Committed.empty, ?_, ?_, ?_, ?_, ?_, ?_⟩
  all_goals simp [Tables.empty, Acyclic]

section sound
variable {P : Platform K F D G} {t : Tables K F D G} (hs : Sound P t)
include hs

variable {course : Course K D}

theorem Sound.gathered (hcourse : course ∈ t.courses) :
    WithinLimits (t.gatherContent P course) ∧ References (t.gatherContent P course) :=
  validateContent_ok.mp (gathered_valid hs.committed.integrity hs.acyclic (hs.rowsFit course hcourse)
    (hs.sectionsFit course hcourse))

/-- **In a sound state every course can be read.** -/
theorem Sound.readable [DecidableEq G] (hcourse : course ∈ t.courses) :
    Readable P t course.courseId := by
  constructor
  · refine ⟨t.gatherContent P course, ?_⟩
    unfold Tables.loadGraphContent
    rw [find?_key_eq_some hs.committed.integrity.courseIds hcourse]
    exact unit_bind_eq_ok.mpr ⟨validateContent_ok.mpr (hs.gathered hcourse), rfl⟩
  · obtain ⟨row, hrow, -⟩ := hs.committed.newest hcourse
    have hmem := (List.mem_filter.mp (List.mem_of_mem_head? hrow)).1
    refine ⟨row, ?_⟩
    unfold Tables.latestSnapshot
    rw [(hs.committed.chained course.courseId).latest, Option.mem_def.mp hrow]
    simp only [(hs.snapshots row hmem).read]
    rfl

theorem Sound.gathered_kept (hcourse : course ∈ t.courses) :
    Kept P (t.gatherContent P course) := by
  obtain ⟨row, hrow, hmirror, rfl⟩ := hs.committed.newest hcourse
  have hkept := (hs.snapshots row (List.mem_filter.mp (List.mem_of_mem_head? hrow)).1).kept
  have hg := Topic1.gathered (P := P) (t := t) row.content.course
  constructor
  case course => exact hkept.course
  case points =>
      intro item hitem
      rw [mem_gathered_points, hmirror.points] at hitem
      exact hkept.points item hitem
  case prerequisites =>
      intro item hitem
      rw [mem_gathered_prerequisites, hmirror.prerequisites] at hitem
      exact hkept.prerequisites item hitem
  case misconceptions =>
      intro item hitem
      rw [hg.misconceptions, mem_sortBy, hmirror.misconceptions] at hitem
      exact hkept.misconceptions item hitem
  case textbooks =>
      intro item hitem
      rw [hg.textbooks, mem_sortBy] at hitem
      exact hs.textbooks item (List.mem_filter.mp hitem).1
  case sections =>
      intro item hitem
      rw [hg.sections, mem_sortBy, hs.committed.integrity.mem_sectionsOf] at hitem
      exact hs.sections item hitem.1
  case mappings =>
      intro item hitem
      rw [hg.mappings, mem_sortBy, hmirror.mappings] at hitem
      exact hkept.mappings item hitem
  case questions =>
      intro item hitem
      rw [hg.questions, mem_sortBy, hmirror.questions] at hitem
      obtain ⟨question, hquestion, rfl⟩ := List.mem_map.mp hitem
      obtain ⟨hfields, hanswer⟩ := hkept.questions question hquestion
      refine ⟨hfields, ?_⟩
      change P.jsonb (P.jsonb question.answerDocument) = P.jsonb question.answerDocument
      rw [hanswer, hanswer]

end sound

/-! ### Contents that mutations leave valid -/

section references
variable {content : Content K F D} (h : References content)
include h

theorem References.withoutPoint {kpId : K}
    (hquestions : ∀ item ∈ content.goldenQuestions, kpId ∉ item.primaryKpId :: item.relatedKpIds →
      ∀ other ∈ content.misconceptions, other.misconceptionId ∈ item.misconceptionIds → other.kpId ≠ kpId)
    (hsections : ∀ item ∈ content.textbookSections, Reached (parentOf content.textbookSections)
      ((content.textbookMappings.filter fun item => item.kpId ≠ kpId).map (·.sectionId)).toFinset
      item.sectionId) : References (withoutPoint content kpId) := by
  refine { h with
    kpIds := (List.filter_sublist.map _).nodup h.kpIds
    kpCourse := (h.owned.withoutPoint kpId).kpCourse
    edgeIds := (List.filter_sublist.map _).nodup h.edgeIds
    edgeRelations := (List.filter_sublist.map _).nodup h.edgeRelations
    edgeCourse := (h.owned.withoutPoint kpId).edgeCourse
    edgeEnds := fun item hitem => ?_
    misconceptionIds := (List.filter_sublist.map _).nodup h.misconceptionIds
    misconceptionKps := (h.owned.withoutPoint kpId).misconceptionKps
    mappingIds := (List.filter_sublist.map _).nodup h.mappingIds
    mappingRelations := (List.filter_sublist.map _).nodup h.mappingRelations
    mappingEnds := fun item hitem => ⟨(h.owned.withoutPoint kpId).mappingKps item hitem,
      (h.mappingEnds item (List.mem_filter.mp hitem).1).2⟩
    sectionsReached := hsections
    questionIds := (List.filter_sublist.map _).nodup h.questionIds
    questionLists := fun item hitem => h.questionLists item (List.mem_filter.mp hitem).1
    questionKps := fun item hitem x hx => ?_
    questionMisconceptions := fun item hitem x hx => ?_ }
  · obtain ⟨hitem, hnot⟩ := List.mem_filter.mp hitem
    simp only [List.mem_cons, List.not_mem_nil, or_false, not_or, decide_eq_true_eq] at hnot
    obtain ⟨hprerequisite, hdependent⟩ := h.edgeEnds item hitem
    exact ⟨mem_withoutPoint hprerequisite (Ne.symm hnot.1), mem_withoutPoint hdependent (Ne.symm hnot.2)⟩
  · obtain ⟨hitem, hnot⟩ := List.mem_filter.mp hitem
    refine mem_withoutPoint (h.questionKps item hitem x hx) ?_
    rintro rfl
    exact of_decide_eq_true hnot hx
  · obtain ⟨hitem, hnot⟩ := List.mem_filter.mp hitem
    obtain ⟨other, hother, rfl⟩ := List.mem_map.mp (h.questionMisconceptions item hitem x hx)
    have hne := hquestions item hitem (of_decide_eq_true hnot) other hother hx
    exact List.mem_map_of_mem (List.mem_filter.mpr ⟨hother, decide_eq_true hne⟩)

theorem References.withEdges {prerequisites : List (Prerequisite K D)}
    (hids : (prerequisites.map (·.edgeId)).Nodup)
    (hrelations : (prerequisites.map fun item =>
      (item.prerequisiteKpId, item.dependentKpId, item.relationType)).Nodup)
    (hcourse : ∀ item ∈ prerequisites, item.courseId = content.course.courseId)
    (hends : ∀ item ∈ prerequisites, item.prerequisiteKpId ∈ content.knowledgePoints.map (·.kpId) ∧
      item.dependentKpId ∈ content.knowledgePoints.map (·.kpId)) :
    References { content with prerequisites } :=
  { h with edgeIds := hids, edgeRelations := hrelations, edgeCourse := hcourse, edgeEnds := hends }

end references

/-! ### What each mutation builds -/

/-- A content that may be written. -/
structure SoundContent (P : Platform K F D G) (t : Tables K F D G) (content : Content K F D) : Prop where
  kept : Kept P content
  limits : WithinLimits content
  references : References content
  leavesOthers : LeavesOthers t content

variable {content : Content K F D}

section edited
variable {P : Platform K F D G} {t : Tables K F D G} (hs : Sound P t)
include hs

theorem Sound.leavesOthers (course : Course K D)
    (htextbooks : content.textbooks = (t.gatherContent P course).textbooks)
    (hsections : content.textbookSections = (t.gatherContent P course).textbookSections) :
    LeavesOthers t content := by
  have hi := hs.committed.integrity
  have hg := Topic1.gathered (P := P) (t := t) course
  have hshelf : SameShelf t (t.withShelf content) := by
    refine ⟨hi.sectionIds, hi.textbookIds, ?_, ?_⟩
    · refine merged_self (g := Prod.fst) hi.sectionIds ?_ fun key hkey => ?_
      · rw [hsections, hg.sections]
        exact (perm_sortBy.map _).nodup_iff.mpr hi.sectionsOf_nodup
      · rw [hsections, hg.sections] at hkey
        obtain ⟨item, hitem, rfl⟩ := List.mem_map.mp hkey
        exact List.mem_map_of_mem (hi.mem_sectionsOf.mp (mem_sortBy.mp hitem)).1
    · refine merged_self (f := fun item : Textbook K D => item.textbookId) (g := id) hi.textbookIds ?_
        fun key hkey => ?_
      · rw [htextbooks, hg.textbooks]
        exact (perm_sortBy.map _).nodup_iff.mpr ((List.filter_sublist.map _).nodup hi.textbookIds)
      · rw [htextbooks, hg.textbooks] at hkey
        obtain ⟨item, hitem, rfl⟩ := List.mem_map.mp hkey
        exact List.mem_map_of_mem (List.mem_filter.mp (mem_sortBy.mp hitem)).1
  exact fun other hother _ => hshelf.sectionsFit rfl (hs.sectionsFit other hother)

theorem Sound.of_loaded {courseId : K}
    (h : requiredContent P t courseId = .ok content) : SoundContent P t content := by
  obtain ⟨course, hcourse, rfl, rfl, -⟩ := requiredContent_ok h
  obtain ⟨hlimits, hrefs⟩ := hs.gathered hcourse
  exact ⟨hs.gathered_kept hcourse, hlimits, hrefs, hs.leavesOthers _ rfl rfl⟩

end edited

theorem LeavesOthers.congr {t : Tables K F D G} {content content' : Content K F D} (hi : Integrity t)
    (hrefs : References content) (hsame : SameReferences content content') (h : LeavesOthers t content) :
    LeavesOthers t content' := by
  have hshelf : SameShelf (t.withShelf content) (t.withShelf content') :=
    ⟨foldl_mergeRow_nodup hi.sectionIds, foldl_mergeRow_nodup hi.textbookIds,
      merged_perm (g := Prod.fst) hi.sectionIds hrefs.sectionIds hsame.sections,
      merged_perm (f := fun item : Textbook K D => item.textbookId) (g := id) hi.textbookIds
        hrefs.textbookIds hsame.textbooks⟩
  intro course hcourse hne
  rw [hsame.course] at hne
  exact hshelf.sectionsFit rfl (h course hcourse hne)

theorem Kept.rollForward (h : Kept P content)
    (graphVersion : ℕ) (now : ℤ) : Kept P (rollForwardContent content graphVersion now) :=
  ⟨h.course, List.forall_mem_map.mpr h.points, List.forall_mem_map.mpr h.prerequisites,
    List.forall_mem_map.mpr h.misconceptions, List.forall_mem_map.mpr h.textbooks,
    List.forall_mem_map.mpr h.sections, List.forall_mem_map.mpr h.mappings,
    List.forall_mem_map.mpr h.questions⟩

section edited
variable [DecidableEq G] {P : Platform K F D G} {t t' : Tables K F D G} {call : Call K F D}

omit [DecidableEq G] in
theorem length_mergeRow_le {α : Type} (key : α → K) (row : α) {rows : List α} {n : ℕ}
    (hrows : rows.length ≤ n) (h : key row ∈ rows.map key ∨ rows.length < n) :
    (mergeRow key rows row).length ≤ n := by
  unfold mergeRow
  rw [List.length_append, List.length_singleton]
  rcases h with hmem | hless
  · obtain ⟨other, hother, hkey⟩ := List.mem_map.mp hmem
    have hlt : (rows.filter fun other => key other ≠ key row).length < rows.length :=
      List.length_filter_lt_length_iff_exists.mpr ⟨other, hother, by simp [hkey]⟩
    omega
  · have hle := List.length_filter_le (fun other => key other ≠ key row) rows
    omega

/-- **What a call that meets the condition builds may be written.** -/
theorem edited_sound (hs : Sound P t) (hcall : SoundCall P t call) (e : Executed P t call t') :
    SoundContent P t e.content := by
  have h := e.edited_eq
  have hi := hs.committed.integrity
  have howned := e.owned
  have hwritten := e.replaced
  have hnormal := e.normalized
  generalize e.content = content at h hnormal ⊢
  cases edited_ok h with
  | createCourse hload hnew hvalid =>
    obtain ⟨hlimits, hrefs⟩ := validateContent_ok.mp hvalid
    refine ⟨?_, hlimits, hrefs, fun other hother _ => ?_⟩
    · constructor
      case course => exact hcall
      all_goals simp [upsertedCourse]
    · have hsame := hs.sectionsFit other hother
      exact ⟨hsame.parents, hsame.sections, hsame.textbooks⟩
  | @updateCourse course document _ _ _ hload hcourse hvalid =>
    obtain ⟨hlimits, hrefs⟩ := validateContent_ok.mp hvalid
    have hkept := hs.gathered_kept hcourse
    exact ⟨{ hkept with course := hcall }, hlimits, hrefs, hs.leavesOthers course rfl rfl⟩
  | @upsertKnowledgePoint course kpId document _ now _ hload =>
    obtain ⟨hkept, hlimits, hrefs, -⟩ := hs.of_loaded hload.required
    obtain ⟨hfields, hscore, hroom⟩ := hcall
    obtain ⟨hlength, hothers⟩ := limits_iff.mp hlimits
    refine ⟨{ hkept with points := fun item hitem => ?_ }, limits_iff.mpr ⟨?_, hothers⟩,
      hrefs.withPoint (upsertedPoint P course.courseId kpId document _ now) rfl, hs.leavesOthers course rfl rfl⟩
    · rcases List.mem_append.mp hitem with hitem | hitem
      · exact hkept.points item (List.mem_filter.mp hitem).1
      · rw [List.mem_singleton.mp hitem]
        exact ⟨hfields, hscore⟩
    · refine length_mergeRow_le (fun item : KnowledgePoint K F D => item.kpId)
        (upsertedPoint P course.courseId kpId document _ now) hlength ?_
      refine hroom.imp gatherContent_kpIds.mpr fun hless => ?_
      exact (P.knowledgePointOrder.perm _).length_eq.trans_lt hless
  | @deleteKnowledgePoint course kpId _ _ _ hload =>
    obtain ⟨hkept, hlimits, hrefs, -⟩ := hs.of_loaded hload.required
    obtain ⟨hquestions, hsections⟩ := hcall
    obtain ⟨hpoints, hedges, hmisconceptions, htextbooks, hsectionCount, hmappings, hquestionCount⟩ :=
      limits_iff.mp hlimits
    have hg := Topic1.gathered (P := P) (t := t) course
    refine ⟨{ hkept with
        points := fun item hitem => hkept.points item (List.mem_filter.mp hitem).1
        prerequisites := fun item hitem => hkept.prerequisites item (List.mem_filter.mp hitem).1
        misconceptions := fun item hitem => hkept.misconceptions item (List.mem_filter.mp hitem).1
        mappings := fun item hitem => hkept.mappings item (List.mem_filter.mp hitem).1
        questions := fun item hitem => hkept.questions item (List.mem_filter.mp hitem).1 }, ?_,
      hrefs.withoutPoint (fun item hitem hnot other hother hmem => ?_) (fun item hitem => ?_),
      hs.leavesOthers course rfl rfl⟩
    · exact limits_iff.mpr ⟨(List.length_filter_le _ _).trans hpoints,
        (List.length_filter_le _ _).trans hedges, (List.length_filter_le _ _).trans hmisconceptions,
        htextbooks, hsectionCount, (List.length_filter_le _ _).trans hmappings,
        (List.length_filter_le _ _).trans hquestionCount⟩
    · rw [hg.questions, mem_sortBy] at hitem
      rw [hg.misconceptions, mem_sortBy] at hother
      exact hquestions item hitem hnot other hother hmem
    · rw [hg.sections, mem_sortBy] at hitem
      have hreached := ((mem_loadSectionsWithAncestors hi.sectionIds).mp (hsections item hitem)).2
      have hremaining : ∀ x ∈ ((t.mappingsOf course.courseId).filter fun item => item.kpId ≠ kpId).map
          (·.sectionId), x ∈ (t.sectionsOf course.courseId).map (·.sectionId) :=
        fun x hx => hi.mapped_subset ((List.filter_sublist.map _).subset hx)
      have hwithin := hi.reached_sectionsOf hremaining hreached
      have hparents : parentOf (t.gatherContent P course).textbookSections
          = parentOf (t.sectionsOf course.courseId) := by
        rw [hg.sections]
        exact parentOf_congr (perm_sortBy.map _) hi.sectionsOf_nodup
      have hstart : (((t.gatherContent P course).textbookMappings.filter fun item => item.kpId ≠ kpId).map
          (·.sectionId)).toFinset = (((t.mappingsOf course.courseId).filter
            fun item => item.kpId ≠ kpId).map (·.sectionId)).toFinset := by
        rw [hg.mappings]
        exact List.toFinset_eq_of_perm _ _ ((perm_sortBy.filter _).map _)
      rw [hparents, hstart]
      exact hwithin
  | @upsertPrerequisite course edge _ _ _ hload hcourseId hstamp =>
    obtain ⟨hkept, hlimits, hrefs, -⟩ := hs.of_loaded hload.required
    obtain ⟨hfields, hroom⟩ := hcall
    obtain ⟨hpoints, hedges, hothers⟩ := limits_iff.mp hlimits
    have hedge : ∀ item ∈ ((t.gatherContent P course).prerequisites.filter
        fun item => item.edgeId ≠ edge.edgeId) ++ [edge], item.courseId = course.courseId := by
      intro item hitem
      rcases List.mem_append.mp hitem with hitem | hitem
      · exact hrefs.edgeCourse item (List.mem_filter.mp hitem).1
      · rw [List.mem_singleton.mp hitem]
        exact hcourseId
    refine ⟨{ hkept with prerequisites := fun item hitem => ?_ },
      limits_iff.mpr ⟨hpoints, ?_, hothers⟩, ?_, hs.leavesOthers course rfl rfl⟩
    · rcases List.mem_append.mp hitem with hitem | hitem
      · exact hkept.prerequisites item (List.mem_filter.mp hitem).1
      · rw [List.mem_singleton.mp hitem]
        exact hfields
    · refine length_mergeRow_le (fun item : Prerequisite K D => item.edgeId) edge hedges ?_
      refine hroom.imp (fun hmem => ?_) fun hless => (P.prerequisiteOrder.perm _).length_eq.trans_lt hless
      exact ((P.prerequisiteOrder.perm _).map _).mem_iff.mpr hmem
    · -- the database has accepted the relations and the ends of the edges
      have hsub : e.normal.prerequisites.Sublist e.written.prerequisites := by
        rw [hwritten.prerequisites]
        exact List.sublist_append_right _ _
      have hperm : e.normal.prerequisites.Perm (((t.gatherContent P course).prerequisites.filter
          fun item => item.edgeId ≠ edge.edgeId) ++ [edge]) := by
        rw [hnormal.prerequisites]
        exact perm_sortBy
      have hcourseOf : e.normal.course.courseId = course.courseId := by
        rw [hnormal.course]
        rfl
      refine hrefs.withEdges (mergeRow_nodup hrefs.edgeIds) (relations_nodup hedge ?_) hedge
        fun item hitem => ?_
      · exact (hperm.map _).nodup_iff.mp ((hsub.map _).nodup hwritten.unique.2.1)
      · have hends := hwritten.edgeEnds item (hperm.mem_iff.mpr hitem)
        have hown : item.courseId = e.normal.course.courseId := (hedge item hitem).trans hcourseOf.symm
        rw [hown, hwritten.kpIdsOf_own howned] at hends
        exact ⟨hnormal.mem_kpIds.mp hends.1, hnormal.mem_kpIds.mp hends.2⟩
  | @deletePrerequisite course edgeId _ _ _ hload =>
    obtain ⟨hkept, hlimits, hrefs, -⟩ := hs.of_loaded hload.required
    obtain ⟨hpoints, hedges, hothers⟩ := limits_iff.mp hlimits
    refine ⟨{ hkept with
        prerequisites := fun item hitem => hkept.prerequisites item (List.mem_filter.mp hitem).1 },
      limits_iff.mpr ⟨hpoints, (List.length_filter_le _ _).trans hedges, hothers⟩, ?_,
      hs.leavesOthers course rfl rfl⟩
    exact hrefs.withEdges ((List.filter_sublist.map _).nodup hrefs.edgeIds)
      ((List.filter_sublist.map _).nodup hrefs.edgeRelations)
      (fun item hitem => hrefs.edgeCourse item (List.mem_filter.mp hitem).1)
      fun item hitem => hrefs.edgeEnds item (List.mem_filter.mp hitem).1
  | @importBundle bundle =>
    obtain ⟨hlimits, hrefs⟩ := validateContent_ok.mp bundle.valid
    exact ⟨hcall.1, hlimits, hrefs, hcall.2⟩
  | freezeGraph hload => exact hs.of_loaded hload.required
  | @rollbackSnapshot row target latest advancedAt _ _ hrow hread hlatest =>
    have hsnapshot := hs.snapshots row hrow
    obtain rfl := Except.ok.inj (hsnapshot.read.symm.trans hread)
    have hsame := rollForward_sameReferences row.content (nextVersion latest) advancedAt
    exact ⟨hsnapshot.kept.rollForward _ _, hsame.withinLimits_iff.mpr hsnapshot.limits,
      hsame.references hsnapshot.references,
      (hcall row hrow rfl).congr hi hsnapshot.references hsame⟩

end edited

/-! ### Steps and runs -/

section step
variable [DecidableEq G] {P : Platform K F D G} {t t' : Tables K F D G} {call : Call K F D}

omit [DecidableEq G] in
theorem Kept.normalized {content content' : Content K F D} {now : ℤ} {metrics : Metrics K F}
    (h : Kept P content) (hn : Normalized P.arithmetic content now metrics content') : Kept P content' := by
  constructor
  case course =>
      rw [hn.course]
      exact h.course
  case points =>
      intro item hitem
      obtain ⟨before, hbefore, rfl⟩ := hn.mem_knowledgePoints.mp hitem
      exact h.points before hbefore
  case prerequisites => exact fun item hitem => h.prerequisites item (hn.mem_prerequisites.mp hitem)
  case misconceptions =>
      rw [hn.misconceptions]
      exact fun item hitem => h.misconceptions item (mem_sortBy.mp hitem)
  case textbooks =>
      rw [hn.textbooks]
      exact fun item hitem => h.textbooks item (mem_sortBy.mp hitem)
  case sections =>
      rw [hn.textbookSections]
      exact fun item hitem => h.sections item (mem_sortBy.mp hitem)
  case mappings =>
      rw [hn.textbookMappings]
      exact fun item hitem => h.mappings item (mem_sortBy.mp hitem)
  case questions =>
      rw [hn.goldenQuestions]
      exact fun item hitem => h.questions item (mem_sortBy.mp hitem)

/-- **A call that meets the condition keeps the state sound.** -/
theorem Sound.commit (hweights : KeepsWeights P) (hs : Sound P t) (hcall : SoundCall P t call)
    (e : Executed P t call t') : Sound P t' := by
  have hi := hs.committed.integrity
  have hr := e.replaced
  obtain ⟨hkept, hlimits, hrefs, hothers⟩ := edited_sound hs hcall e
  have hsame := e.normalized.sameReferences
  have hnormal := hsame.references hrefs
  have hnormalKept := hkept.normalized e.normalized
  have hnormalLimits := hsame.withinLimits_iff.mpr hlimits
  have hcommitted := hs.committed.commit e
  obtain ⟨ordered, hperm, hsections, -⟩ := hr.sections_eq
  rw [e.tables_eq] at hcommitted ⊢
  refine ⟨hcommitted, fun row hrow => ?_, fun item hitem => ?_, fun item hitem => ?_,
    hr.acyclic hi hnormal hs.acyclic, fun course hcourse => ?_, fun course hcourse => ?_⟩
  · rcases List.mem_cons.mp hrow with rfl | hold
    · refine ⟨hnormalKept, fun item hitem => ?_, hnormalLimits, hnormal, rfl, rfl, rfl, rfl⟩
      obtain ⟨before, -, rfl⟩ := e.normalized.mem_knowledgePoints.mp hitem
      obtain ⟨n, d, l, m, hweight⟩ := normalized_weighed call.now e.normalized.analyzed before
      rw [hweight]
      exact hweights n d l m
    · exact hs.snapshots row hold
  · change item ∈ e.written.textbooks at hitem
    rw [hr.textbooks] at hitem
    rcases of_mem_foldl_mergeRow hitem with hnew | hold
    · exact hnormalKept.textbooks item hnew
    · exact hs.textbooks item hold
  · change item ∈ e.written.textbookSections at hitem
    rw [hsections] at hitem
    rcases of_mem_foldl_mergeRow hitem with hnew | hold
    · exact hnormalKept.sections item (hperm.mem_iff.mp hnew)
    · exact hs.sections item hold
  · change course ∈ e.written.courses at hcourse
    suffices h : RowsFit e.written course.courseId from
      ⟨h.points, h.prerequisites, h.misconceptions, h.mappings, h.questions, h.questionLists, h.questionKps,
        h.questionMisconceptions⟩
    rw [hr.courses] at hcourse
    rcases mem_mergeRow.mp hcourse with rfl | ⟨hold, hne⟩
    · exact hr.rowsFit hi hnormal hnormalLimits
    · exact hr.rowsFit_other hi hnormal.owned hne (hs.rowsFit course hold)
  · change course ∈ e.written.courses at hcourse
    suffices h : SectionsFit e.written course.courseId from ⟨h.parents, h.sections, h.textbooks⟩
    rw [hr.courses] at hcourse
    rcases mem_mergeRow.mp hcourse with rfl | ⟨hold, hne⟩
    · exact hr.sectionsFit hi hnormal hnormalLimits
    · refine (hr.sameShelf hi hsame hrefs).sectionsFit ?_ (hothers course hold ?_)
      · exact hr.mappingsOf_other hnormal.owned hi hne
      · rwa [← hsame.course]

/-- **Every course can be read in every state that calls meeting the condition reach.** -/
theorem readable_of_sound (hweights : KeepsWeights P) {calls : List (Call K F D)}
    (h : run (step P) Tables.empty calls = some t)
    (hcalls : AllSteps (step P) (SoundCall P) Tables.empty calls) :
    ∀ course ∈ t.courses, Readable P t course.courseId := by
  have hsound : Sound P t := run_invariant_of (I := Sound P)
    (fun s call s' hs hcall hstep => hs.commit hweights hcall (step_eq_some hstep).some) (Sound.empty P)
    hcalls h
  exact fun course hcourse => hsound.readable hcourse

/-- **The course store keeps its constraints**: in every run of calls the rows of each course are those of its
newest snapshot, the snapshots are chained, and none is ever lost or changed. -/
theorem store_committed {calls later : List (Call K F D)} {t t' : Tables K F D G}
    (h : run (step P) Tables.empty calls = some t) (hlater : run (step P) t later = some t') :
    Committed P t' ∧ ∀ snapshot ∈ t.snapshots, snapshot ∈ t'.snapshots :=
  ⟨run_committed (run_committed Committed.empty h) hlater, run_snapshots hlater⟩

end step

/-! ### A sample -/

section sample

/-- A course with two knowledge points, and a question on the first with a misconception of the second. -/
def sampleContent : Content ℕ ℚ ℕ where
  course := { courseCode := "ATC", fields := 0, courseId := 1, stamp := .first 5 }
  knowledgePoints := [{ samplePoint 7 with
    kpId := 2, courseId := 1, stamp := .first 5, topologyLevel := 0, topologyWeight := 0 },
    { samplePoint 8 with kpId := 3, courseId := 1, stamp := .first 5, topologyLevel := 0, topologyWeight := 0 }]
  prerequisites := []
  misconceptions := [⟨10, 3, 0, .first 5⟩]
  textbooks := []
  textbookSections := []
  textbookMappings := []
  goldenQuestions := [⟨20, 2, [], 0, [10], 0, .first 5⟩]

def sampleBundle : ImportBundle ℕ ℚ ℕ := ⟨none, sampleContent, by decide +kernel⟩

/-- The content is imported, and the knowledge point with the question is deleted. -/
def sampleRemoval : List (Call ℕ ℚ ℕ) :=
  [⟨.importBundle sampleBundle, 10, 100⟩, ⟨.deleteKnowledgePoint 1 2 2, 20, 101⟩]

/-- The content is imported, and the knowledge point with the misconception is deleted. -/
def sampleCascade : List (Call ℕ ℚ ℕ) :=
  [⟨.importBundle sampleBundle, 10, 100⟩, ⟨.deleteKnowledgePoint 1 3 2, 20, 101⟩]

instance (P : Platform ℕ ℚ ℕ (Content ℕ ℚ ℕ)) (content : Content ℕ ℚ ℕ) : Decidable (Kept P content) :=
  decidable_of_iff (_ ∧ _ ∧ _ ∧ _ ∧ _ ∧ _ ∧ _ ∧ _)
    ⟨fun ⟨h₁, h₂, h₃, h₄, h₅, h₆, h₇, h₈⟩ => ⟨h₁, h₂, h₃, h₄, h₅, h₆, h₇, h₈⟩,
      fun ⟨h₁, h₂, h₃, h₄, h₅, h₆, h₇, h₈⟩ => ⟨h₁, h₂, h₃, h₄, h₅, h₆, h₇, h₈⟩⟩

instance (P : Platform ℕ ℚ ℕ (Content ℕ ℚ ℕ)) (t : Tables ℕ ℚ ℕ (Content ℕ ℚ ℕ)) (call : Call ℕ ℚ ℕ) :
    Decidable (SoundCall P t call) :=
  match call with
  | ⟨.upsertCourse _ _ _, _, _⟩ => inferInstanceAs (Decidable (_ = _))
  | ⟨.upsertKnowledgePoint _ _ _ _, _, _⟩ => inferInstanceAs (Decidable (_ ∧ _))
  | ⟨.deleteKnowledgePoint _ _ _, _, _⟩ => inferInstanceAs (Decidable (Dispensable _ _ _))
  | ⟨.upsertPrerequisite _ _ _ _, _, _⟩ => inferInstanceAs (Decidable (_ ∧ _))
  | ⟨.deletePrerequisite _ _ _, _, _⟩ => isTrue trivial
  | ⟨.importBundle _, _, _⟩ => inferInstanceAs (Decidable (_ ∧ _))
  | ⟨.freezeGraph _, _, _⟩ => isTrue trivial
  | ⟨.rollbackSnapshot _ _, _, _⟩ => inferInstanceAs (Decidable (∀ _ ∈ _, _))

theorem readable_of_sound_sample : ∃ t, run (step samplePlatform) Tables.empty sampleRemoval = some t ∧
    ∀ course ∈ t.courses, Readable samplePlatform t course.courseId := by
  obtain ⟨t, h⟩ := Option.isSome_iff_exists.mp
    (show (run (step samplePlatform) Tables.empty sampleRemoval).isSome by decide +kernel)
  exact ⟨t, h, readable_of_sound (fun _ _ _ _ => rfl) h (by decide +kernel)⟩

/-- The deletion keeps the snapshot of the import. -/
theorem store_committed_cascade : ∃ t t', run (step samplePlatform) Tables.empty (sampleCascade.take 1) = some t ∧
    run (step samplePlatform) t (sampleCascade.drop 1) = some t' ∧ t.snapshots ≠ [] ∧
      Committed samplePlatform t' ∧ ∀ snapshot ∈ t.snapshots, snapshot ∈ t'.snapshots := by
  have hrun : ((run (step samplePlatform) Tables.empty (sampleCascade.take 1)).bind fun t =>
      (run (step samplePlatform) t (sampleCascade.drop 1)).map fun _ => t.snapshots.length) = some 1 := by
    decide +kernel
  obtain ⟨t, h, hrun⟩ := Option.bind_eq_some_iff.mp hrun
  obtain ⟨t', hlater, hlength⟩ := Option.map_eq_some_iff.mp hrun
  exact ⟨t, t', h, hlater, List.ne_nil_of_length_eq_add_one hlength, store_committed h hlater⟩

/-- **A deletion that blocks the course**: a question stays that names a misconception of the deleted
knowledge point, and neither the graph nor the latest snapshot can be read. -/
theorem unreadable_course : ∃ t ∈ run (step samplePlatform) Tables.empty sampleCascade,
    ∃ course ∈ t.courses, ¬ Readable samplePlatform t course.courseId := by
  have hblocked : ∃ t ∈ run (step samplePlatform) Tables.empty sampleCascade, ∃ course ∈ t.courses,
      (t.loadGraphContent samplePlatform course.courseId).toOption = none := by
    decide +kernel
  obtain ⟨t, ht, course, hcourse, hnone⟩ := hblocked
  refine ⟨t, ht, course, hcourse, fun hreadable => ?_⟩
  obtain ⟨content, hload⟩ := hreadable.graph
  rw [hload] at hnone
  cases hnone

end sample

end CyberControl.Topic1
