import CyberControl.CourseReferences
import CyberControl.CourseSections

/-! # Rows that make a valid graph

The contract has rules that no constraint of the tables expresses: the questions of a course name its own
misconceptions, a section and its parent are in one textbook, the lists have greatest lengths. -/

namespace CyberControl.Topic1

open Collections Scheduling

variable {K F D G : Type} [LinearOrder K]

attribute [local instance] lawfulBEq_of_linearOrder

/-! ### The rules -/

section rules
variable (t : Tables K F D G) (c : K)

/-- The sections that the mappings of a course reach. -/
def Tables.sectionsOf : List (TextbookSection K D) :=
  t.loadSectionsWithAncestors ((t.mappingsOf c).map (·.sectionId))

/-- The textbooks of these sections. -/
def Tables.textbooksOf : List (Textbook K D) :=
  t.textbooks.filter fun item => item.textbookId ∈ (t.sectionsOf c).map (·.textbookId)

/-- The graph of a course, with its lists in another order. -/
def Tables.graphOf (course : Course K D) : Content K F D where
  course := course
  knowledgePoints := t.pointsOf course.courseId
  prerequisites := t.prerequisitesOf course.courseId
  misconceptions := t.misconceptionsOf course.courseId
  textbooks := t.textbooksOf course.courseId
  textbookSections := t.sectionsOf course.courseId
  textbookMappings := t.mappingsOf course.courseId
  goldenQuestions := t.questionsOf course.courseId

/-- The rows that belong to a course alone. -/
structure RowsFit : Prop where
  points : (t.pointsOf c).length ≤ 5000
  prerequisites : (t.prerequisitesOf c).length ≤ 20000
  misconceptions : (t.misconceptionsOf c).length ≤ 10000
  mappings : (t.mappingsOf c).length ≤ 20000
  questions : (t.questionsOf c).length ≤ 20000
  questionLists : ∀ item ∈ t.questionsOf c, item.relatedKpIds.Nodup ∧ item.misconceptionIds.Nodup
  questionKps : ∀ item ∈ t.questionsOf c, ∀ kpId ∈ item.primaryKpId :: item.relatedKpIds,
    kpId ∈ t.kpIdsOf c
  questionMisconceptions : ∀ item ∈ t.questionsOf c, ∀ misconceptionId ∈ item.misconceptionIds,
    misconceptionId ∈ (t.misconceptionsOf c).map (·.misconceptionId)

/-- The shared rows that the course reads. -/
structure SectionsFit : Prop where
  parents : ∀ row ∈ t.sectionsOf c, ∀ p ∈ row.parentSectionId,
    ∃ other ∈ t.textbookSections, other.sectionId = p ∧ other.textbookId = row.textbookId
  sections : (t.sectionsOf c).length ≤ 10000
  textbooks : (t.textbooksOf c).length ≤ 512

instance : Decidable (SectionsFit t c) :=
  decidable_of_iff ((∀ row ∈ t.sectionsOf c, ∀ p ∈ row.parentSectionId,
      ∃ other ∈ t.textbookSections, other.sectionId = p ∧ other.textbookId = row.textbookId) ∧
    (t.sectionsOf c).length ≤ 10000 ∧ (t.textbooksOf c).length ≤ 512)
    ⟨fun ⟨h, h', h''⟩ => ⟨h, h', h''⟩, fun ⟨h, h', h''⟩ => ⟨h, h', h''⟩⟩

/-- The chains of the sections of the tenant end. -/
def Acyclic : Prop := ∀ row ∈ t.textbookSections, Ends (parentOf t.textbookSections) row.sectionId

end rules

/-! ### Loading -/

section load
variable {P : Platform K F D G} {t : Tables K F D G} {c : K} (hi : Integrity t)
include hi

theorem Integrity.mem_sectionsOf {row : TextbookSection K D} :
    row ∈ t.sectionsOf c ↔ row ∈ t.textbookSections ∧ Reached (parentOf t.textbookSections)
      ((t.mappingsOf c).map (·.sectionId)).toFinset row.sectionId :=
  mem_loadSectionsWithAncestors hi.sectionIds

theorem Integrity.sectionsOf_nodup : ((t.sectionsOf c).map (·.sectionId)).Nodup := by
  unfold Tables.sectionsOf Tables.loadSectionsWithAncestors
  refine (perm_sortBy.map _).nodup_iff.mpr ?_
  exact (List.filter_sublist.map _).nodup hi.sectionIds

variable {x : K}

theorem Integrity.parentOf_sectionsOf (hx : x ∈ (t.sectionsOf c).map (·.sectionId)) :
    parentOf (t.sectionsOf c) x = parentOf t.textbookSections x := by
  obtain ⟨row, hrow, rfl⟩ := List.mem_map.mp hx
  rw [parentOf_eq hi.sectionsOf_nodup hrow, parentOf_eq hi.sectionIds (hi.mem_sectionsOf.mp hrow).1]

theorem Integrity.sectionsOf_closed : ∀ x ∈ ((t.sectionsOf c).map (·.sectionId)).toFinset,
    ∀ p ∈ parentOf t.textbookSections x, p ∈ ((t.sectionsOf c).map (·.sectionId)).toFinset := by
  intro x hx p hp
  obtain ⟨row, hrow, rfl⟩ := List.mem_map.mp (List.mem_toFinset.mp hx)
  obtain ⟨hmem, hreached⟩ := hi.mem_sectionsOf.mp hrow
  have hparent : row.parentSectionId = some p := (parentOf_eq hi.sectionIds hmem).symm.trans hp
  obtain ⟨other, hother, rfl⟩ := List.mem_map.mp (hi.sectionParents row hmem p hparent)
  exact List.mem_toFinset.mpr (List.mem_map_of_mem (hi.mem_sectionsOf.mpr ⟨hother, hreached.parent hp⟩))

theorem Integrity.mapped_sectionsOf {item : TextbookMapping K D} (h : item ∈ t.mappingsOf c) :
    item.sectionId ∈ (t.sectionsOf c).map (·.sectionId) := by
  have hknown := (hi.mappingEnds item (List.mem_filter.mp h).1).2
  obtain ⟨row, hrow, hid⟩ := List.mem_map.mp hknown
  rw [← hid]
  refine List.mem_map_of_mem (hi.mem_sectionsOf.mpr ⟨hrow, item.sectionId, ?_, hid ▸ .refl⟩)
  exact List.mem_toFinset.mpr (List.mem_map_of_mem h)

theorem Integrity.sectionsOf_hierarchy (hends : Acyclic t) (hs : SectionsFit t c) :
    Hierarchy (t.sectionsOf c) := by
  constructor
  · intro item hitem p hp
    obtain ⟨other, hother, rfl, htextbook⟩ := hs.parents item hitem p hp
    obtain ⟨hmem, hreached⟩ := hi.mem_sectionsOf.mp hitem
    have hparent : parentOf t.textbookSections item.sectionId = some other.sectionId :=
      (parentOf_eq hi.sectionIds hmem).trans hp
    exact ⟨other, hi.mem_sectionsOf.mpr ⟨hother, hreached.parent hparent⟩, rfl, htextbook⟩
  · intro item hitem
    refine (hends item (hi.mem_sectionsOf.mp hitem).1).congr hi.sectionsOf_closed (fun x hx => ?_)
      (List.mem_toFinset.mpr (List.mem_map_of_mem hitem))
    exact hi.parentOf_sectionsOf (List.mem_toFinset.mp hx)

theorem Integrity.reached_sectionsOf {start : List K}
    (hstart : ∀ x ∈ start, x ∈ (t.sectionsOf c).map (·.sectionId))
    (h : Reached (parentOf t.textbookSections) start.toFinset x) :
    Reached (parentOf (t.sectionsOf c)) start.toFinset x := by
  refine h.congr (hi.sectionsOf_closed (c := c)) (fun y hy => ?_) fun y hy => ?_
  · exact hi.parentOf_sectionsOf (List.mem_toFinset.mp hy)
  · exact List.mem_toFinset.mpr (hstart y (List.mem_toFinset.mp hy))

theorem Integrity.mapped_subset (hx : x ∈ (t.mappingsOf c).map (·.sectionId)) :
    x ∈ (t.sectionsOf c).map (·.sectionId) := by
  obtain ⟨mapping, hmapping, rfl⟩ := List.mem_map.mp hx
  exact hi.mapped_sectionsOf hmapping

omit hi in
/-- What is put together has the rows of the course in some order. -/
structure Gathered (P : Platform K F D G) (t : Tables K F D G) (course : Course K D) : Prop where
  misconceptions : (t.gatherContent P course).misconceptions
    = sortBy (·.misconceptionId) (t.misconceptionsOf course.courseId)
  textbooks : (t.gatherContent P course).textbooks
    = sortBy (·.textbookId) (t.textbooksOf course.courseId)
  sections : (t.gatherContent P course).textbookSections
    = sortBy (·.sectionId) (t.sectionsOf course.courseId)
  mappings : (t.gatherContent P course).textbookMappings
    = sortBy (·.mappingId) (t.mappingsOf course.courseId)
  questions : (t.gatherContent P course).goldenQuestions
    = sortBy (·.questionId) (t.questionsOf course.courseId)

omit hi in
theorem gathered (course : Course K D) : Gathered P t course := by
  have hkpIds : ∀ {α : Type} (kpId : α → K) (rows : List α), (rows.filter fun item =>
      kpId item ∈ (t.gatherContent P course).knowledgePoints.map (·.kpId))
        = rows.filter fun item => kpId item ∈ t.kpIdsOf course.courseId := by
    intro α kpId rows
    exact List.filter_congr fun item _ => decide_eq_decide.mpr gatherContent_kpIds
  have hmappings := hkpIds (fun item : TextbookMapping K D => item.kpId) t.textbookMappings
  have hsections : t.loadSectionsWithAncestors ((t.textbookMappings.filter fun item =>
      item.kpId ∈ (t.gatherContent P course).knowledgePoints.map (·.kpId)).map (·.sectionId))
        = t.sectionsOf course.courseId := by
    rw [hmappings]
    rfl
  refine ⟨congrArg _ (hkpIds _ _), ?_, congrArg _ hsections, congrArg _ hmappings, congrArg _ (hkpIds _ _)⟩
  have htextbooks := congrArg (fun sections : List (TextbookSection K D) => sortBy (·.textbookId)
    (t.textbooks.filter fun item => item.textbookId ∈ sections.map (·.textbookId))) hsections
  exact htextbooks

omit hi in
theorem gather_sameReferences (course : Course K D) :
    SameReferences (t.graphOf course) (t.gatherContent P course) := by
  have hg := gathered (P := P) (t := t) course
  refine ⟨rfl, (P.knowledgePointOrder.perm _).map _, (P.prerequisiteOrder.perm _).map _, ?_, ?_, ?_, ?_, ?_⟩
  · rw [hg.misconceptions]
    exact perm_sortBy.map _
  · rw [hg.textbooks]
    exact perm_sortBy.map _
  · rw [hg.sections]
    exact perm_sortBy.map _
  · rw [hg.mappings]
    exact perm_sortBy.map _
  · rw [hg.questions]
    exact perm_sortBy.map _

omit hi [LinearOrder K] in
theorem relations_nodup {edges : List (Prerequisite K D)} {c : K} (hc : ∀ item ∈ edges, item.courseId = c)
    (h : (edges.map fun item =>
      (item.courseId, item.prerequisiteKpId, item.dependentKpId, item.relationType)).Nodup) :
    (edges.map fun item => (item.prerequisiteKpId, item.dependentKpId, item.relationType)).Nodup := by
  refine List.Nodup.of_map (fun relation => (c, relation)) ?_
  have hsame : (edges.map fun item =>
        (item.prerequisiteKpId, item.dependentKpId, item.relationType)).map (fun relation => (c, relation))
      = edges.map fun item =>
        (item.courseId, item.prerequisiteKpId, item.dependentKpId, item.relationType) := by
    rw [List.map_map]
    refine List.map_congr_left fun item hitem => ?_
    rw [hc item hitem]
    rfl
  rwa [hsame]

/-- **Rows that keep the rules make a valid graph.** -/
theorem gathered_valid (hends : Acyclic t) {course : Course K D} (hr : RowsFit t course.courseId)
    (hs : SectionsFit t course.courseId) : validateContent (t.gatherContent P course) = .ok () := by
  have hsame := gather_sameReferences (P := P) (t := t) course
  rw [validateContent_ok, hsame.withinLimits_iff, hsame.references_iff]
  constructor
  · exact limits_iff.mpr ⟨hr.points, hr.prerequisites, hr.misconceptions, hs.textbooks, hs.sections,
      hr.mappings, hr.questions⟩
  · have hedge : ∀ item ∈ t.prerequisitesOf course.courseId, item.courseId = course.courseId :=
      fun item hitem => of_decide_eq_true (List.mem_filter.mp hitem).2
    refine ⟨(List.filter_sublist.map _).nodup hi.kpIds,
      fun item hitem => of_decide_eq_true (List.mem_filter.mp hitem).2,
      (List.filter_sublist.map _).nodup hi.edgeIds, ?_, hedge, fun item hitem => ?_,
      (List.filter_sublist.map _).nodup hi.misconceptionIds,
      fun item hitem => of_decide_eq_true (List.mem_filter.mp hitem).2,
      (List.filter_sublist.map _).nodup hi.textbookIds, hi.sectionsOf_nodup, fun item hitem => ?_,
      hi.sectionsOf_hierarchy hends hs, (List.filter_sublist.map _).nodup hi.mappingIds,
      (List.filter_sublist.map _).nodup hi.mappingRelations, fun item hitem => ?_,
      fun item hitem => hi.reached_sectionsOf (fun x hx => hi.mapped_subset hx)
        (hi.mem_sectionsOf.mp hitem).2,
      fun item hitem => of_decide_eq_true (List.mem_filter.mp hitem).2,
      (List.filter_sublist.map _).nodup hi.questionIds, hr.questionLists, hr.questionKps,
      hr.questionMisconceptions⟩
    · exact relations_nodup hedge ((List.filter_sublist.map _).nodup hi.edgeRelations)
    · have hends := hi.edgeEnds item (List.mem_filter.mp hitem).1
      rw [hedge item hitem] at hends
      exact hends
    · have hmem := (hi.mem_sectionsOf.mp hitem).1
      obtain ⟨book, hbook, hid⟩ := List.mem_map.mp (hi.sectionTextbooks item hmem)
      rw [← hid]
      refine List.mem_map_of_mem (List.mem_filter.mpr ⟨hbook, decide_eq_true ?_⟩)
      rw [hid]
      exact List.mem_map_of_mem hitem
    · exact ⟨of_decide_eq_true (List.mem_filter.mp hitem).2, hi.mapped_sectionsOf hitem⟩

end load

/-! ### Merged rows -/

section merge
variable {α β : Type} {f : α → β} {g : β → K} {rows new new' : List α}

theorem mem_merged (hnew : (new.map fun a => g (f a)).Nodup) {b : β} :
    b ∈ (new.foldl (mergeRow fun a => g (f a)) rows).map f ↔ b ∈ new.map f ∨
      ∃ a ∈ rows, f a = b ∧ g b ∉ new.map fun a => g (f a) := by
  simp only [List.mem_map (f := f), mem_foldl_mergeRow hnew]
  constructor
  · rintro ⟨a, ha | ⟨ha, hnot⟩, rfl⟩
    · exact .inl ⟨a, ha, rfl⟩
    · exact .inr ⟨a, ha, rfl, hnot⟩
  · rintro (⟨a, ha, rfl⟩ | ⟨a, ha, rfl, hnot⟩)
    · exact ⟨a, .inl ha, rfl⟩
    · exact ⟨a, .inr ⟨ha, hnot⟩, rfl⟩

omit [LinearOrder K] in
theorem nodup_of_keys (hrows : (rows.map fun a => g (f a)).Nodup) : (rows.map f).Nodup := by
  refine List.Nodup.of_map g ?_
  rwa [List.map_map]

variable (hrows : (rows.map fun a => g (f a)).Nodup) (hnew : (new.map fun a => g (f a)).Nodup)
include hrows hnew

theorem merged_perm (h : (new'.map f).Perm (new.map f)) :
    ((new'.foldl (mergeRow fun a => g (f a)) rows).map f).Perm
      ((new.foldl (mergeRow fun a => g (f a)) rows).map f) := by
  rw [List.perm_ext_iff_of_nodup (nodup_of_keys (foldl_mergeRow_nodup hrows))
    (nodup_of_keys (foldl_mergeRow_nodup hrows))]
  intro b
  rw [mem_merged (nodup_of_key h g hnew), mem_merged hnew, h.mem_iff]
  refine or_congr_right (exists_congr fun a => and_congr_right fun _ => and_congr_right fun _ => ?_)
  exact not_congr (mem_of_key h g)

theorem merged_self (h : ∀ b ∈ new.map f, b ∈ rows.map f) :
    ((new.foldl (mergeRow fun a => g (f a)) rows).map f).Perm (rows.map f) := by
  rw [List.perm_ext_iff_of_nodup (nodup_of_keys (foldl_mergeRow_nodup hrows)) (nodup_of_keys hrows)]
  intro b
  rw [mem_merged hnew]
  constructor
  · rintro (hb | ⟨a, ha, rfl, -⟩)
    · exact h b hb
    · exact List.mem_map_of_mem ha
  · intro hb
    obtain ⟨a, ha, rfl⟩ := List.mem_map.mp hb
    by_cases hkey : g (f a) ∈ new.map fun a => g (f a)
    · left
      obtain ⟨a', ha', hsame⟩ := List.mem_map.mp hkey
      obtain ⟨a'', ha'', heq⟩ := List.mem_map.mp (h _ (List.mem_map_of_mem ha'))
      have hrow : a'' = a := List.inj_on_of_nodup_map hrows ha'' ha ((congrArg g heq).trans hsame)
      rw [← hrow, heq]
      exact List.mem_map_of_mem ha'
    · exact .inr ⟨a, ha, rfl, hkey⟩

end merge

/-! ### What a course reads of the shared rows -/

theorem mem_textbookIdsOf {t : Tables K F D G} {c k : K} : k ∈ (t.textbooksOf c).map (·.textbookId) ↔
    k ∈ t.textbooks.map (·.textbookId) ∧ k ∈ (t.sectionsOf c).map (·.textbookId) := by
  unfold Tables.textbooksOf
  simp only [List.mem_map (f := fun item : Textbook K D => item.textbookId), List.mem_filter,
    decide_eq_true_eq]
  constructor
  · rintro ⟨item, ⟨hitem, hused⟩, rfl⟩
    exact ⟨⟨item, hitem, rfl⟩, hused⟩
  · rintro ⟨⟨item, hitem, rfl⟩, hused⟩
    exact ⟨item, ⟨hitem, hused⟩, rfl⟩

/-- Two states of the shared tables with the same identifiers, textbooks and parents. -/
structure SameShelf (t t' : Tables K F D G) : Prop where
  sectionIds : (t.textbookSections.map (·.sectionId)).Nodup
  textbookIds : (t.textbooks.map (·.textbookId)).Nodup
  sections : (t'.textbookSections.map fun item =>
      (item.sectionId, item.textbookId, item.parentSectionId)).Perm
    (t.textbookSections.map fun item => (item.sectionId, item.textbookId, item.parentSectionId))
  textbooks : (t'.textbooks.map (·.textbookId)).Perm (t.textbooks.map (·.textbookId))

namespace SameShelf
variable {t t' : Tables K F D G} (h : SameShelf t t') {c : K} (hm : t'.mappingsOf c = t.mappingsOf c)
include h

theorem parentOf_eq : parentOf t'.textbookSections = parentOf t.textbookSections :=
  parentOf_congr h.sections h.sectionIds

include hm

theorem sectionsOf_perm :
    ((t'.sectionsOf c).map fun item => (item.sectionId, item.textbookId, item.parentSectionId)).Perm
      ((t.sectionsOf c).map fun item => (item.sectionId, item.textbookId, item.parentSectionId)) := by
  have hids := h.sectionIds
  have hids' := nodup_of_key h.sections Prod.fst hids
  have hdistinct : ∀ {u : Tables K F D G}, (u.textbookSections.map (·.sectionId)).Nodup →
      ((u.sectionsOf c).map fun item => (item.sectionId, item.textbookId, item.parentSectionId)).Nodup := by
    intro u hu
    have hsub : ((u.sectionsOf c).map (·.sectionId)).Nodup := by
      unfold Tables.sectionsOf Tables.loadSectionsWithAncestors
      refine (perm_sortBy.map _).nodup_iff.mpr ?_
      exact (List.filter_sublist.map _).nodup hu
    exact nodup_of_keys (g := Prod.fst) hsub
  have hmem : ∀ {u : Tables K F D G} {key : K × K × Option K}, (u.textbookSections.map (·.sectionId)).Nodup →
      (key ∈ (u.sectionsOf c).map (fun item => (item.sectionId, item.textbookId, item.parentSectionId)) ↔
        key ∈ u.textbookSections.map (fun item =>
            (item.sectionId, item.textbookId, item.parentSectionId)) ∧
          Reached (parentOf u.textbookSections) ((u.mappingsOf c).map (·.sectionId)).toFinset key.1) := by
    intro u key hu
    simp only [List.mem_map, Tables.sectionsOf, mem_loadSectionsWithAncestors hu]
    constructor
    · rintro ⟨row, ⟨hrow, hreached⟩, rfl⟩
      exact ⟨⟨row, hrow, rfl⟩, hreached⟩
    · rintro ⟨⟨row, hrow, rfl⟩, hreached⟩
      exact ⟨row, ⟨hrow, hreached⟩, rfl⟩
  rw [List.perm_ext_iff_of_nodup (hdistinct hids') (hdistinct hids)]
  intro key
  rw [hmem hids', hmem hids, h.sections.mem_iff, h.parentOf_eq, hm]

/-- **Only these matter to a course.** -/
theorem sectionsFit (hs : SectionsFit t c) : SectionsFit t' c := by
  have hsections := h.sectionsOf_perm hm
  refine ⟨?_, ?_, ?_⟩
  · refine forall_of_key hsections (P := fun key => ∀ p ∈ key.2.2,
      ∃ other ∈ t'.textbookSections, other.sectionId = p ∧ other.textbookId = key.2.1)
      fun item hitem p hp => ?_
    obtain ⟨other, hother, rfl, htextbook⟩ := hs.parents item hitem p hp
    obtain ⟨found, hfound, hkey⟩ := List.mem_map.mp (h.sections.mem_iff.mpr (List.mem_map_of_mem hother))
    simp only [Prod.mk.injEq] at hkey
    exact ⟨found, hfound, hkey.1, hkey.2.1.trans htextbook⟩
  · have hlength := hsections.length_eq
    rw [List.length_map, List.length_map] at hlength
    rw [hlength]
    exact hs.sections
  · have hbooks : ((t'.textbooksOf c).map (·.textbookId)).Perm ((t.textbooksOf c).map (·.textbookId)) := by
      have hids' := h.textbooks.nodup_iff.mpr h.textbookIds
      have hdistinct : ∀ {u : Tables K F D G}, (u.textbooks.map (·.textbookId)).Nodup →
          ((u.textbooksOf c).map (·.textbookId)).Nodup := fun hu => (List.filter_sublist.map _).nodup hu
      rw [List.perm_ext_iff_of_nodup (hdistinct hids') (hdistinct h.textbookIds)]
      intro k
      rw [mem_textbookIdsOf, mem_textbookIdsOf, h.textbooks.mem_iff,
        mem_of_key hsections fun key => key.2.1]
    have hlength := hbooks.length_eq
    rw [List.length_map, List.length_map] at hlength
    rw [hlength]
    exact hs.textbooks

end SameShelf

/-! ### What a written content leaves -/

/-- The tables with the textbooks and sections of a content merged into the shared ones. -/
def Tables.withShelf (t : Tables K F D G) (content : Content K F D) : Tables K F D G :=
  { t with
    textbooks := content.textbooks.foldl (mergeRow (·.textbookId)) t.textbooks
    textbookSections := content.textbookSections.foldl (mergeRow (·.sectionId)) t.textbookSections }

namespace Replaced
variable {P : Platform K F D G} {t t' : Tables K F D G} {content : Content K F D}
  (hr : Replaced P t content t') (hi : Integrity t)
include hr hi

theorem sameShelf {content₀ : Content K F D} (h : SameReferences content₀ content)
    (hrefs : References content₀) : SameShelf (t.withShelf content₀) t' := by
  obtain ⟨ordered, hperm, hsections, -⟩ := hr.sections_eq
  refine ⟨foldl_mergeRow_nodup hi.sectionIds, foldl_mergeRow_nodup hi.textbookIds, ?_, ?_⟩
  · rw [hsections]
    exact merged_perm (g := Prod.fst) hi.sectionIds hrefs.sectionIds ((hperm.map _).trans h.sections)
  · rw [hr.textbooks]
    exact merged_perm (f := fun item : Textbook K D => item.textbookId) (g := id) hi.textbookIds
      hrefs.textbookIds h.textbooks

variable (hrefs : References content)
include hrefs

theorem merged : Merged t.textbookSections content.textbookSections t'.textbookSections := by
  obtain ⟨ordered, hperm, hsections, -⟩ := hr.sections_eq
  have hids : (ordered.map (·.sectionId)).Nodup := (hperm.map _).nodup_iff.mpr hrefs.sectionIds
  refine ⟨hi.sectionIds, hrefs.sectionIds, ?_, fun row => ?_, fun item hitem p hp => ?_⟩
  · rw [hsections]
    exact foldl_mergeRow_nodup hi.sectionIds
  · rw [hsections, mem_foldl_mergeRow hids, hperm.mem_iff, (hperm.map _).mem_iff]
  · obtain ⟨other, hother, rfl, -⟩ := hrefs.hierarchy.parent item hitem p hp
    exact List.mem_map_of_mem hother

theorem acyclic (hends : Acyclic t) : Acyclic t' :=
  (hr.merged hi hrefs).ends hends hrefs.hierarchy.ends

theorem mem_sectionsOf_own {row : TextbookSection K D} :
    row ∈ t'.sectionsOf content.course.courseId ↔ row ∈ content.textbookSections := by
  have hm := hr.merged hi hrefs
  have hi' := hr.integrity hrefs.owned hi
  have hstart : ((t'.mappingsOf content.course.courseId).map (·.sectionId)).toFinset
      ⊆ (content.textbookSections.map (·.sectionId)).toFinset := by
    rw [hr.mappingsOf_own hrefs.owned hi]
    intro x hx
    obtain ⟨mapping, hmapping, rfl⟩ := List.mem_map.mp (List.mem_toFinset.mp hx)
    exact List.mem_toFinset.mpr (hrefs.mappingEnds mapping hmapping).2
  rw [hi'.mem_sectionsOf, hm.reached_iff hstart, hr.mappingsOf_own hrefs.owned hi]
  constructor
  · rintro ⟨hrow, hreached⟩
    have hknown : row.sectionId ∈ (content.textbookSections.map (·.sectionId)).toFinset := by
      rw [hr.mappingsOf_own hrefs.owned hi] at hstart
      exact hreached.mem hstart hm.closed_items
    rcases (hm.mem row).mp hrow with hitem | ⟨-, hnot⟩
    · exact hitem
    · exact absurd (List.mem_toFinset.mp hknown) hnot
  · intro hitem
    exact ⟨(hm.mem row).mpr (.inl hitem), hrefs.sectionsReached row hitem⟩

theorem sectionsFit (hlimits : WithinLimits content) : SectionsFit t' content.course.courseId := by
  have hm := hr.merged hi hrefs
  have hi' := hr.integrity hrefs.owned hi
  have hperm : (t'.sectionsOf content.course.courseId).Perm content.textbookSections :=
    (List.perm_ext_iff_of_nodup hi'.sectionsOf_nodup.of_map hrefs.sectionIds.of_map).mpr
      fun row => hr.mem_sectionsOf_own hi hrefs
  obtain ⟨-, -, -, htextbooks, hsections, -⟩ := limits_iff.mp hlimits
  refine ⟨fun row hrow p hp => ?_, ?_, ?_⟩
  · rw [hr.mem_sectionsOf_own hi hrefs] at hrow
    obtain ⟨other, hother, hid, htextbook⟩ := hrefs.hierarchy.parent row hrow p hp
    exact ⟨other, (hm.mem other).mpr (.inl hother), hid, htextbook⟩
  · rw [hperm.length_eq]
    exact hsections
  · have hbooks : ((t'.textbooksOf content.course.courseId).map (·.textbookId)).Perm
        (content.textbooks.map (·.textbookId)) := by
      have hdistinct : ((t'.textbooksOf content.course.courseId).map (·.textbookId)).Nodup :=
        (List.filter_sublist.map _).nodup hi'.textbookIds
      rw [List.perm_ext_iff_of_nodup hdistinct hrefs.textbookIds]
      intro k
      rw [mem_textbookIdsOf, (hperm.map fun item => item.textbookId).mem_iff, hr.textbooks,
        mem_keys_foldl_mergeRow]
      constructor
      · rintro ⟨-, hused⟩
        obtain ⟨item, hitem, rfl⟩ := List.mem_map.mp hused
        exact hrefs.sectionTextbooks item hitem
      · intro hk
        obtain ⟨item, hitem, rfl⟩ := List.mem_map.mp hk
        exact ⟨.inl hk, hrefs.textbooksUsed item hitem⟩
    have hlength := hbooks.length_eq
    rw [List.length_map, List.length_map] at hlength
    rw [hlength]
    exact htextbooks

theorem rowsFit (hlimits : WithinLimits content) : RowsFit t' content.course.courseId := by
  have ho := hrefs.owned
  obtain ⟨hpoints, hedges, hmisconceptions, -, -, hmappings, hquestions⟩ := limits_iff.mp hlimits
  constructor
  case points => rwa [hr.pointsOf_own ho]
  case prerequisites => rwa [hr.prerequisitesOf_own ho hi]
  case misconceptions => rwa [hr.misconceptionsOf_own ho hi]
  case mappings => rwa [hr.mappingsOf_own ho hi]
  case questions => rwa [hr.questionsOf_own ho hi, List.length_map]
  case questionLists =>
      rw [hr.questionsOf_own ho hi]
      exact List.forall_mem_map.mpr fun item hitem => hrefs.questionLists item hitem
  case questionKps =>
      rw [hr.questionsOf_own ho hi, hr.kpIdsOf_own ho]
      exact List.forall_mem_map.mpr fun item hitem => hrefs.questionKps item hitem
  case questionMisconceptions =>
      rw [hr.questionsOf_own ho hi, hr.misconceptionsOf_own ho hi]
      exact List.forall_mem_map.mpr fun item hitem => hrefs.questionMisconceptions item hitem

omit hrefs in
theorem rowsFit_other (ho : Owned content) {c : K} (hc : c ≠ content.course.courseId)
    (h : RowsFit t c) : RowsFit t' c := by
  constructor
  case points =>
      rw [hr.pointsOf_other ho hc]
      exact h.points
  case prerequisites =>
      rw [hr.prerequisitesOf_other ho hc]
      exact h.prerequisites
  case misconceptions =>
      rw [hr.misconceptionsOf_other ho hi hc]
      exact h.misconceptions
  case mappings =>
      rw [hr.mappingsOf_other ho hi hc]
      exact h.mappings
  case questions =>
      rw [hr.questionsOf_other ho hi hc]
      exact h.questions
  case questionLists =>
      rw [hr.questionsOf_other ho hi hc]
      exact h.questionLists
  case questionKps =>
      rw [hr.questionsOf_other ho hi hc, hr.kpIdsOf_other ho hc]
      exact h.questionKps
  case questionMisconceptions =>
      rw [hr.questionsOf_other ho hi hc, hr.misconceptionsOf_other ho hi hc]
      exact h.questionMisconceptions

end Replaced

end CyberControl.Topic1
