import CyberControl.CourseMutations

/-! # The rows of a course

What `replace_graph_content` has done when it returns, and what the tables then hold: the constraints of the
tables hold of every committed state (`Integrity`), and the rows that belong to one course are those of its
latest snapshot (`Mirrors`), whatever is done to other courses. -/

namespace CyberControl.Topic1

open Collections Scheduling

variable {K F D G : Type} [LinearOrder K]

attribute [local instance] lawfulBEq_of_linearOrder

theorem return_eq_ok {ε α : Type} {a b : α} : (pure a : Except ε α) = .ok b ↔ a = b :=
  ⟨Except.ok.inj, congrArg Except.ok⟩

/-! ### The rows that belong to a course -/

section rows
variable (t : Tables K F D G) (courseId : K)

def Tables.pointsOf : List (KnowledgePoint K F D) :=
  t.knowledgePoints.filter fun item => item.courseId = courseId

def Tables.kpIdsOf : List K := (t.pointsOf courseId).map (·.kpId)

def Tables.prerequisitesOf : List (Prerequisite K D) :=
  t.prerequisites.filter fun item => item.courseId = courseId

def Tables.misconceptionsOf : List (Misconception K D) :=
  t.misconceptions.filter fun item => item.kpId ∈ t.kpIdsOf courseId

def Tables.mappingsOf : List (TextbookMapping K D) :=
  t.textbookMappings.filter fun item => item.kpId ∈ t.kpIdsOf courseId

def Tables.questionsOf : List (GoldenQuestion K D) :=
  t.goldenQuestions.filter fun item => item.primaryKpId ∈ t.kpIdsOf courseId

end rows

/-- The constraints of the tables. -/
structure Integrity (t : Tables K F D G) : Prop where
  courseIds : (t.courses.map (·.courseId)).Nodup
  kpIds : (t.knowledgePoints.map (·.kpId)).Nodup
  kpCourses : ∀ item ∈ t.knowledgePoints, item.courseId ∈ t.courses.map (·.courseId)
  edgeIds : (t.prerequisites.map (·.edgeId)).Nodup
  edgeRelations : (t.prerequisites.map fun item =>
    (item.courseId, item.prerequisiteKpId, item.dependentKpId, item.relationType)).Nodup
  edgeEnds : ∀ item ∈ t.prerequisites,
    item.prerequisiteKpId ∈ t.kpIdsOf item.courseId ∧ item.dependentKpId ∈ t.kpIdsOf item.courseId
  misconceptionIds : (t.misconceptions.map (·.misconceptionId)).Nodup
  misconceptionKps : ∀ item ∈ t.misconceptions, item.kpId ∈ t.knowledgePoints.map (·.kpId)
  textbookIds : (t.textbooks.map (·.textbookId)).Nodup
  sectionIds : (t.textbookSections.map (·.sectionId)).Nodup
  sectionTextbooks : ∀ item ∈ t.textbookSections, item.textbookId ∈ t.textbooks.map (·.textbookId)
  sectionParents : ∀ item ∈ t.textbookSections, ∀ parent ∈ item.parentSectionId,
    parent ∈ t.textbookSections.map (·.sectionId)
  mappingIds : (t.textbookMappings.map (·.mappingId)).Nodup
  mappingRelations : (t.textbookMappings.map fun item =>
    (item.kpId, item.sectionId, item.mappingType)).Nodup
  mappingEnds : ∀ item ∈ t.textbookMappings, item.kpId ∈ t.knowledgePoints.map (·.kpId) ∧
    item.sectionId ∈ t.textbookSections.map (·.sectionId)
  questionIds : (t.goldenQuestions.map (·.questionId)).Nodup
  questionKps : ∀ item ∈ t.goldenQuestions, item.primaryKpId ∈ t.knowledgePoints.map (·.kpId)

theorem Integrity.empty : Integrity (Tables.empty : Tables K F D G) := by
  constructor <;> simp [Tables.empty]

variable {t : Tables K F D G}

theorem Tables.course_unique (hids : (t.knowledgePoints.map (·.kpId)).Nodup) {c c' kpId : K}
    (h : kpId ∈ t.kpIdsOf c) (h' : kpId ∈ t.kpIdsOf c') : c = c' := by
  obtain ⟨a, ha, rfl⟩ := List.mem_map.mp h
  obtain ⟨b, hb, hkey⟩ := List.mem_map.mp h'
  obtain ⟨ha, hac⟩ := List.mem_filter.mp ha
  obtain ⟨hb, hbc⟩ := List.mem_filter.mp hb
  have hba := List.inj_on_of_nodup_map hids hb ha hkey
  rw [hba] at hbc
  exact (of_decide_eq_true hac).symm.trans (of_decide_eq_true hbc)

variable {c : K}

theorem Integrity.kept_prerequisite (ht : Integrity t)
    {item : Prerequisite K D} (h : item ∈ (t.deleteKnowledgePoints c).prerequisites) :
    item ∈ t.prerequisites ∧ item.courseId ≠ c := by
  obtain ⟨hitem, hkept⟩ := List.mem_filter.mp h
  refine ⟨hitem, fun hc => of_decide_eq_true hkept ⟨hc, .inl ?_⟩⟩
  have hends := (ht.edgeEnds item hitem).1
  rw [hc] at hends
  exact hends

theorem Tables.mem_kpIds_iff {kpId : K} :
    kpId ∈ t.knowledgePoints.map (·.kpId) ↔ ∃ c, kpId ∈ t.kpIdsOf c := by
  constructor
  · intro h
    obtain ⟨item, hitem, rfl⟩ := List.mem_map.mp h
    exact ⟨item.courseId, List.mem_map_of_mem (List.mem_filter.mpr ⟨hitem, by simp⟩)⟩
  · rintro ⟨c, h⟩
    obtain ⟨item, hitem, rfl⟩ := List.mem_map.mp h
    exact List.mem_map_of_mem (List.mem_filter.mp hitem).1

/-! ### A successful write -/

/-- The rows of a content refer to its own course and knowledge points. -/
structure Owned (content : Content K F D) : Prop where
  kpCourse : ∀ item ∈ content.knowledgePoints, item.courseId = content.course.courseId
  edgeCourse : ∀ item ∈ content.prerequisites, item.courseId = content.course.courseId
  misconceptionKps : ∀ item ∈ content.misconceptions, item.kpId ∈ content.knowledgePoints.map (·.kpId)
  mappingKps : ∀ item ∈ content.textbookMappings, item.kpId ∈ content.knowledgePoints.map (·.kpId)
  questionKps : ∀ item ∈ content.goldenQuestions, item.primaryKpId ∈ content.knowledgePoints.map (·.kpId)

theorem References.owned {content : Content K F D} (h : References content) : Owned content :=
  ⟨h.kpCourse, h.edgeCourse, h.misconceptionKps, fun item hitem => (h.mappingEnds item hitem).1,
    fun item hitem => h.questionKps item hitem _ List.mem_cons_self⟩

/-- What the statements of `replace_graph_content` leave when none of them fails. -/
structure Replaced (P : Platform K F D G) (t : Tables K F D G) (content : Content K F D)
    (t' : Tables K F D G) : Prop where
  courses : t'.courses = mergeRow (·.courseId) t.courses content.course
  knowledgePoints : t'.knowledgePoints
    = (t.deleteKnowledgePoints content.course.courseId).knowledgePoints ++ content.knowledgePoints
  prerequisites : t'.prerequisites
    = (t.deleteKnowledgePoints content.course.courseId).prerequisites ++ content.prerequisites
  misconceptions : t'.misconceptions
    = (t.deleteKnowledgePoints content.course.courseId).misconceptions ++ content.misconceptions
  textbooks : t'.textbooks = content.textbooks.foldl (mergeRow (·.textbookId)) t.textbooks
  textbookSections : ∃ ordered, orderSections content.textbookSections.length content.textbookSections ∅ []
      = .ok ordered ∧ ordered.foldlM (mergeSection t'.textbooks) t.textbookSections = .ok t'.textbookSections
  textbookMappings : t'.textbookMappings
    = (t.deleteKnowledgePoints content.course.courseId).textbookMappings ++ content.textbookMappings
  goldenQuestions : t'.goldenQuestions
    = (t.deleteKnowledgePoints content.course.courseId).goldenQuestions ++
      content.goldenQuestions.map (questionRow P)
  snapshots : t'.snapshots = t.snapshots
  kpIds : (t'.knowledgePoints.map (·.kpId)).Nodup
  kpCourses : ∀ item ∈ content.knowledgePoints, item.courseId ∈ t'.courses.map (·.courseId)
  unique : (t'.prerequisites.map (·.edgeId)).Nodup ∧
    (t'.prerequisites.map fun item =>
      (item.courseId, item.prerequisiteKpId, item.dependentKpId, item.relationType)).Nodup ∧
    (t'.misconceptions.map (·.misconceptionId)).Nodup ∧ (t'.textbookMappings.map (·.mappingId)).Nodup ∧
    (t'.textbookMappings.map fun item => (item.kpId, item.sectionId, item.mappingType)).Nodup ∧
    (t'.goldenQuestions.map (·.questionId)).Nodup
  edgeEnds : ∀ item ∈ content.prerequisites,
    item.prerequisiteKpId ∈ t'.kpIdsOf item.courseId ∧ item.dependentKpId ∈ t'.kpIdsOf item.courseId
  misconceptionKps : ∀ item ∈ content.misconceptions, item.kpId ∈ t'.knowledgePoints.map (·.kpId)
  mappingEnds : ∀ item ∈ content.textbookMappings, item.kpId ∈ t'.knowledgePoints.map (·.kpId) ∧
    item.sectionId ∈ t'.textbookSections.map (·.sectionId)
  questionKps : ∀ item ∈ content.goldenQuestions, item.primaryKpId ∈ t'.knowledgePoints.map (·.kpId)

theorem Tables.mem_kpIdsOf {c kpId : K} :
    kpId ∈ t.kpIdsOf c ↔ (c, kpId) ∈ t.knowledgePoints.map fun item => (item.courseId, item.kpId) := by
  simp only [kpIdsOf, pointsOf, List.mem_map, List.mem_filter, decide_eq_true_eq, Prod.mk.injEq, and_assoc]

/-- **What a successful write leaves.** -/
theorem replaceGraphContent_ok {P : Platform K F D G} {t t' : Tables K F D G} {content : Content K F D}
    (h : t.replaceGraphContent P content = .ok t') : Replaced P t content t' := by
  obtain ⟨t₁, h₁, h⟩ := bind_eq_ok.mp h
  obtain ⟨t₂, h₂, h⟩ := bind_eq_ok.mp h
  obtain ⟨t₃, h₃, h⟩ := bind_eq_ok.mp h
  obtain ⟨t₄, h₄, h⟩ := bind_eq_ok.mp h
  obtain ⟨-, h₁⟩ := unit_bind_eq_ok.mp h₁
  obtain rfl := return_eq_ok.mp h₁
  obtain ⟨hkpIds, h₂⟩ := unit_bind_eq_ok.mp h₂
  obtain ⟨hkpCourses, h₂⟩ := unit_bind_eq_ok.mp h₂
  obtain rfl := return_eq_ok.mp h₂
  obtain ⟨-, h₃⟩ := unit_bind_eq_ok.mp h₃
  obtain rfl := return_eq_ok.mp h₃
  obtain ⟨ordered, hordered, h₄⟩ := bind_eq_ok.mp h₄
  obtain ⟨rows, hrows, h₄⟩ := bind_eq_ok.mp h₄
  obtain rfl := return_eq_ok.mp h₄
  obtain ⟨hunique, h⟩ := unit_bind_eq_ok.mp h
  obtain ⟨hends, h⟩ := unit_bind_eq_ok.mp h
  obtain rfl := return_eq_ok.mp h
  rw [ensure_eq_ok] at hkpIds hkpCourses hunique hends
  obtain ⟨hedges, hmisconceptions, hmappings, hquestions⟩ := hends
  refine ⟨rfl, rfl, rfl, rfl, rfl, ⟨ordered, hordered, hrows⟩, rfl, rfl, rfl, hkpIds, hkpCourses, hunique, ?_,
    hmisconceptions, hmappings, hquestions⟩
  intro item hitem
  rw [Tables.mem_kpIdsOf, Tables.mem_kpIdsOf]
  exact hedges item hitem

/-! ### Merged sections -/

theorem orderSections_perm {fuel : ℕ} {pending ordered result : List (TextbookSection K D)}
    {emitted : Finset K} (h : orderSections fuel pending emitted ordered = .ok result) :
    result.Perm (ordered ++ pending) := by
  induction fuel generalizing pending emitted ordered with
  | zero =>
    cases pending with
    | nil =>
      cases h
      rw [List.append_nil]
    | cons first rest => cases h
  | succ fuel ih =>
    cases pending with
    | nil =>
      cases h
      rw [List.append_nil]
    | cons first rest =>
      simp only [orderSections] at h
      split_ifs at h with hnone
      refine (ih h).trans ?_
      rw [List.append_assoc, List.perm_append_left_iff]
      refine (perm_sortBy.append_right _).trans ?_
      simp only [decide_not]
      exact List.filter_append_perm _ _

theorem mergeSections_ok {textbooks : List (Textbook K D)} {ordered rows rows' : List (TextbookSection K D)}
    (h : ordered.foldlM (mergeSection textbooks) rows = .ok rows') :
    rows' = ordered.foldl (mergeRow (·.sectionId)) rows ∧
      (∀ item ∈ ordered, item.textbookId ∈ textbooks.map (·.textbookId)) ∧
      ∀ item ∈ ordered, ∀ parent ∈ item.parentSectionId, parent ∈ rows'.map (·.sectionId) := by
  induction ordered generalizing rows with
  | nil =>
    cases h
    exact ⟨rfl, by simp, by simp⟩
  | cons item ordered ih =>
    rw [List.foldlM_cons] at h
    obtain ⟨next, hnext, h⟩ := bind_eq_ok.mp h
    obtain ⟨htextbook, hnext⟩ := unit_bind_eq_ok.mp hnext
    obtain ⟨hparent, hnext⟩ := unit_bind_eq_ok.mp hnext
    obtain rfl := return_eq_ok.mp hnext
    rw [ensure_eq_ok] at htextbook hparent
    obtain ⟨rfl, htextbooks, hparents⟩ := ih h
    refine ⟨rfl, fun other hother => ?_, fun other hother parent hpar => ?_⟩
    · rcases List.mem_cons.mp hother with rfl | hother
      · exact htextbook
      · exact htextbooks other hother
    · rcases List.mem_cons.mp hother with rfl | hother
      · rw [mem_keys_foldl_mergeRow]
        exact .inr (mem_keys_mergeRow.mpr (.inr (hparent parent hpar)))
      · exact hparents other hother parent hpar

/-! ### The rows of the course and of the others -/

theorem filter_course_own {α : Type} {courseId : α → K} {rows new : List α} {c : K}
    (hrows : ∀ item ∈ rows, courseId item ≠ c) (hnew : ∀ item ∈ new, courseId item = c) :
    (rows ++ new).filter (fun item => courseId item = c) = new := by
  have hnone : rows.filter (fun item => courseId item = c) = [] := by simpa using hrows
  rw [List.filter_append, hnone, List.nil_append, List.filter_eq_self]
  exact fun item hitem => decide_eq_true (hnew item hitem)

theorem filter_append_other {α : Type} {p kept : α → Bool} {rows new : List α}
    (hkept : ∀ item, p item = true → kept item = true) (hnew : ∀ item ∈ new, ¬ p item = true) :
    (rows.filter kept ++ new).filter p = rows.filter p := by
  rw [List.filter_append, List.filter_eq_nil_iff.mpr hnew, List.append_nil, List.filter_filter]
  refine List.filter_congr fun item _ => ?_
  cases hitem : p item with
  | true => exact hkept item hitem
  | false => rfl

theorem filter_course_other {α : Type} {courseId : α → K} {rows new : List α} {kept : α → Bool} {c own : K}
    (hc : c ≠ own) (hkept : ∀ item, courseId item ≠ own → kept item = true)
    (hnew : ∀ item ∈ new, courseId item = own) :
    (rows.filter kept ++ new).filter (fun item => courseId item = c) =
      rows.filter fun item => courseId item = c := by
  refine filter_append_other (fun item hitem => hkept item (of_decide_eq_true hitem ▸ hc)) ?_
  exact fun item hitem heq => hc ((of_decide_eq_true heq).symm.trans (hnew item hitem))

namespace Replaced
variable {P : Platform K F D G} {t t' : Tables K F D G} {content : Content K F D}
  (hr : Replaced P t content t') (ho : Owned content)
include hr

theorem sections_eq : ∃ ordered : List (TextbookSection K D), ordered.Perm content.textbookSections ∧
    t'.textbookSections = ordered.foldl (mergeRow (·.sectionId)) t.textbookSections ∧
    (∀ item ∈ ordered, item.textbookId ∈ t'.textbooks.map (·.textbookId)) ∧
    ∀ item ∈ ordered, ∀ parent ∈ item.parentSectionId, parent ∈ t'.textbookSections.map (·.sectionId) := by
  obtain ⟨ordered, hordered, hmerge⟩ := hr.textbookSections
  have hperm := orderSections_perm hordered
  rw [List.nil_append] at hperm
  exact ⟨ordered, hperm, mergeSections_ok hmerge⟩

include ho

theorem pointsOf_own : t'.pointsOf content.course.courseId = content.knowledgePoints := by
  unfold Tables.pointsOf
  rw [hr.knowledgePoints]
  exact filter_course_own (fun item hitem => of_decide_eq_true (List.mem_filter.mp hitem).2) ho.kpCourse

theorem kpIdsOf_own : t'.kpIdsOf content.course.courseId = content.knowledgePoints.map (·.kpId) := by
  unfold Tables.kpIdsOf
  rw [hr.pointsOf_own ho]

theorem pointsOf_other (hc : c ≠ content.course.courseId) : t'.pointsOf c = t.pointsOf c := by
  unfold Tables.pointsOf
  rw [hr.knowledgePoints]
  exact filter_course_other hc (fun item hitem => decide_eq_true hitem) ho.kpCourse

theorem kpIdsOf_other (hc : c ≠ content.course.courseId) : t'.kpIdsOf c = t.kpIdsOf c := by
  unfold Tables.kpIdsOf
  rw [hr.pointsOf_other ho hc]

variable (ht : Integrity t)
include ht

omit ht in
theorem filter_rows_own {α : Type} {kpId : α → K} {rows new : List α}
    (hrows : ∀ item ∈ rows, kpId item ∈ t.knowledgePoints.map (·.kpId))
    (hnew : ∀ item ∈ new, kpId item ∈ content.knowledgePoints.map (·.kpId)) :
    ((rows.filter fun item => kpId item ∉ t.kpIdsOf content.course.courseId) ++ new).filter
        (fun item => kpId item ∈ t'.kpIdsOf content.course.courseId) = new := by
  rw [List.filter_append]
  have hall : new.filter (fun item => kpId item ∈ t'.kpIdsOf content.course.courseId) = new := by
    rw [List.filter_eq_self]
    intro item hitem
    rw [hr.kpIdsOf_own ho]
    exact decide_eq_true (hnew item hitem)
  suffices hnone : (rows.filter fun item => kpId item ∉ t.kpIdsOf content.course.courseId).filter
      (fun item => kpId item ∈ t'.kpIdsOf content.course.courseId) = [] by
    rw [hall, hnone, List.nil_append]
  rw [List.filter_eq_nil_iff]
  intro item hitem hmem
  obtain ⟨hitem, hgone⟩ := List.mem_filter.mp hitem
  obtain ⟨c, hc⟩ := Tables.mem_kpIds_iff.mp (hrows item hitem)
  have hcne : c ≠ content.course.courseId := by
    rintro rfl
    simp [hc] at hgone
  rw [← hr.kpIdsOf_other ho hcne] at hc
  exact hcne (Tables.course_unique hr.kpIds hc (of_decide_eq_true hmem))

theorem filter_rows_other {α : Type} {kpId : α → K} {rows new : List α}
    (hc : c ≠ content.course.courseId)
    (hnew : ∀ item ∈ new, kpId item ∈ content.knowledgePoints.map (·.kpId)) :
    ((rows.filter fun item => kpId item ∉ t.kpIdsOf content.course.courseId) ++ new).filter
        (fun item => kpId item ∈ t'.kpIdsOf c) = rows.filter fun item => kpId item ∈ t.kpIdsOf c := by
  rw [← hr.kpIdsOf_other ho hc]
  refine filter_append_other (fun item hitem => decide_eq_true fun hown => ?_) fun item hitem hmem => ?_
  · rw [hr.kpIdsOf_other ho hc] at hitem
    exact hc (Tables.course_unique ht.kpIds (of_decide_eq_true hitem) hown)
  · have hown := hnew item hitem
    rw [← hr.kpIdsOf_own ho] at hown
    exact hc (Tables.course_unique hr.kpIds (of_decide_eq_true hmem) hown)

theorem prerequisitesOf_own :
    t'.prerequisitesOf content.course.courseId = content.prerequisites := by
  unfold Tables.prerequisitesOf
  rw [hr.prerequisites]
  exact filter_course_own (fun item hitem => (ht.kept_prerequisite hitem).2) ho.edgeCourse

omit ht in
theorem prerequisitesOf_other (hc : c ≠ content.course.courseId) :
    t'.prerequisitesOf c = t.prerequisitesOf c := by
  unfold Tables.prerequisitesOf
  rw [hr.prerequisites]
  exact filter_course_other hc (fun item hitem => decide_eq_true fun h => hitem h.1) ho.edgeCourse

theorem misconceptionsOf_own :
    t'.misconceptionsOf content.course.courseId = content.misconceptions := by
  unfold Tables.misconceptionsOf
  rw [hr.misconceptions]
  exact hr.filter_rows_own ho ht.misconceptionKps ho.misconceptionKps

theorem mappingsOf_own : t'.mappingsOf content.course.courseId = content.textbookMappings := by
  unfold Tables.mappingsOf
  rw [hr.textbookMappings]
  exact hr.filter_rows_own ho (fun item hitem => (ht.mappingEnds item hitem).1) ho.mappingKps

theorem questionsOf_own :
    t'.questionsOf content.course.courseId = content.goldenQuestions.map (questionRow P) := by
  unfold Tables.questionsOf
  rw [hr.goldenQuestions]
  refine hr.filter_rows_own ho ht.questionKps fun item hitem => ?_
  obtain ⟨question, hquestion, rfl⟩ := List.mem_map.mp hitem
  exact ho.questionKps question hquestion

section other
variable {c : K} (hc : c ≠ content.course.courseId)
include hc

theorem misconceptionsOf_other : t'.misconceptionsOf c = t.misconceptionsOf c := by
  unfold Tables.misconceptionsOf
  rw [hr.misconceptions]
  exact hr.filter_rows_other ho ht hc ho.misconceptionKps

theorem mappingsOf_other : t'.mappingsOf c = t.mappingsOf c := by
  unfold Tables.mappingsOf
  rw [hr.textbookMappings]
  exact hr.filter_rows_other ho ht hc ho.mappingKps

theorem questionsOf_other : t'.questionsOf c = t.questionsOf c := by
  unfold Tables.questionsOf
  rw [hr.goldenQuestions]
  refine hr.filter_rows_other ho ht hc fun item hitem => ?_
  obtain ⟨question, hquestion, rfl⟩ := List.mem_map.mp hitem
  exact ho.questionKps question hquestion

end other

/-- **A successful write keeps the constraints.** -/
theorem integrity : Integrity t' := by
  obtain ⟨ordered, hperm, hsections, hsectionTextbooks, hsectionParents⟩ := hr.sections_eq
  obtain ⟨hedgeIds, hrelations, hmisconceptions, hmappings, hmappingRelations, hquestions⟩ := hr.unique
  have hkept : ∀ kpId, kpId ∈ t.knowledgePoints.map (·.kpId) →
      kpId ∉ t.kpIdsOf content.course.courseId → kpId ∈ t'.knowledgePoints.map (·.kpId) := by
    intro kpId hkp hnot
    obtain ⟨c, hc⟩ := Tables.mem_kpIds_iff.mp hkp
    have hcne : c ≠ content.course.courseId := fun h => hnot (h ▸ hc)
    exact Tables.mem_kpIds_iff.mpr ⟨c, by rwa [hr.kpIdsOf_other ho hcne]⟩
  refine ⟨?_, hr.kpIds, fun item hitem => ?_, hedgeIds, hrelations, fun item hitem => ?_, hmisconceptions,
    fun item hitem => ?_, ?_, ?_, fun item hitem => ?_, fun item hitem parent hparent => ?_, hmappings,
    hmappingRelations, fun item hitem => ?_, hquestions, fun item hitem => ?_⟩
  · rw [hr.courses]
    exact mergeRow_nodup ht.courseIds
  · rw [hr.knowledgePoints] at hitem
    rcases List.mem_append.mp hitem with hitem | hitem
    · rw [hr.courses, mem_keys_mergeRow]
      exact .inr (ht.kpCourses item (List.mem_filter.mp hitem).1)
    · exact hr.kpCourses item hitem
  · have hcases := hitem
    rw [hr.prerequisites] at hcases
    rcases List.mem_append.mp hcases with hold | hnew
    · obtain ⟨hold, hcne⟩ := ht.kept_prerequisite hold
      rw [hr.kpIdsOf_other ho hcne]
      exact ht.edgeEnds item hold
    · exact hr.edgeEnds item hnew
  · rw [hr.misconceptions] at hitem
    rcases List.mem_append.mp hitem with hold | hnew
    · obtain ⟨hold, hnot⟩ := List.mem_filter.mp hold
      exact hkept _ (ht.misconceptionKps item hold) (of_decide_eq_true hnot)
    · exact hr.misconceptionKps item hnew
  · rw [hr.textbooks]
    exact foldl_mergeRow_nodup ht.textbookIds
  · rw [hsections]
    exact foldl_mergeRow_nodup ht.sectionIds
  · rw [hsections] at hitem
    rcases of_mem_foldl_mergeRow hitem with hitem | hitem
    · exact hsectionTextbooks item hitem
    · rw [hr.textbooks, mem_keys_foldl_mergeRow]
      exact .inr (ht.sectionTextbooks item hitem)
  · have hcases := hitem
    rw [hsections] at hcases
    rcases of_mem_foldl_mergeRow hcases with hcases | hcases
    · exact hsectionParents item hcases parent hparent
    · rw [hsections, mem_keys_foldl_mergeRow]
      exact .inr (ht.sectionParents item hcases parent hparent)
  · rw [hr.textbookMappings] at hitem
    rcases List.mem_append.mp hitem with hold | hnew
    · obtain ⟨hold, hnot⟩ := List.mem_filter.mp hold
      refine ⟨hkept _ (ht.mappingEnds item hold).1 (of_decide_eq_true hnot), ?_⟩
      rw [hsections, mem_keys_foldl_mergeRow]
      exact .inr (ht.mappingEnds item hold).2
    · exact hr.mappingEnds item hnew
  · rw [hr.goldenQuestions] at hitem
    rcases List.mem_append.mp hitem with hold | hnew
    · obtain ⟨hold, hnot⟩ := List.mem_filter.mp hold
      exact hkept _ (ht.questionKps item hold) (of_decide_eq_true hnot)
    · obtain ⟨question, hquestion, rfl⟩ := List.mem_map.mp hnew
      exact hr.questionKps question hquestion

end Replaced

end CyberControl.Topic1
