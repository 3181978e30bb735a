import CyberControl.CourseReadable

/-! # Textbooks that courses share

Textbooks and their sections belong to the tenant: a course reads those that its mappings reach, and a write
merges its own into the tables. -/

namespace CyberControl.Topic1

open Collections Scheduling

variable {K F D G : Type} [LinearOrder K]

/-! ### What a course reads -/

/-- The rows that a course reads are still there, and it has the mappings that it had. -/
structure KeepsShelf (t t' : Tables K F D G) (c : K) : Prop where
  sections : ∀ row ∈ t.sectionsOf c, row ∈ t'.textbookSections
  textbooks : ∀ row ∈ t.textbooksOf c, row ∈ t'.textbooks
  mappings : t'.mappingsOf c = t.mappingsOf c

namespace KeepsShelf
variable {t t' : Tables K F D G} {c : K} (h : KeepsShelf t t' c) (hi : Integrity t)
  (hids : (t'.textbookSections.map (·.sectionId)).Nodup)
include h hi hids

theorem parentOf_eq {x : K} (hx : x ∈ (t.sectionsOf c).map (·.sectionId)) :
    parentOf t'.textbookSections x = parentOf t.textbookSections x := by
  obtain ⟨row, hrow, rfl⟩ := List.mem_map.mp hx
  rw [Topic1.parentOf_eq hids (h.sections row hrow),
    Topic1.parentOf_eq hi.sectionIds (hi.mem_sectionsOf.mp hrow).1]

theorem reached_iff {x : K} :
    Reached (parentOf t'.textbookSections) ((t.mappingsOf c).map (·.sectionId)).toFinset x ↔
      Reached (parentOf t.textbookSections) ((t.mappingsOf c).map (·.sectionId)).toFinset x := by
  have hsame : ∀ y ∈ ((t.sectionsOf c).map (·.sectionId)).toFinset,
      parentOf t'.textbookSections y = parentOf t.textbookSections y :=
    fun y hy => h.parentOf_eq hi hids (List.mem_toFinset.mp hy)
  have hstart : ((t.mappingsOf c).map (·.sectionId)).toFinset
      ⊆ ((t.sectionsOf c).map (·.sectionId)).toFinset :=
    fun y hy => List.mem_toFinset.mpr (hi.mapped_subset (List.mem_toFinset.mp hy))
  constructor
  · refine Reached.congr (fun y hy p hp => ?_) (fun y hy => (hsame y hy).symm) hstart
    rw [hsame y hy] at hp
    exact hi.sectionsOf_closed y hy p hp
  · exact Reached.congr hi.sectionsOf_closed hsame hstart

/-- **A course reads the sections that it read.** -/
theorem mem_sectionsOf {row : TextbookSection K D} : row ∈ t'.sectionsOf c ↔ row ∈ t.sectionsOf c := by
  have hmem : row ∈ t'.sectionsOf c ↔ row ∈ t'.textbookSections ∧ Reached (parentOf t'.textbookSections)
      ((t'.mappingsOf c).map (·.sectionId)).toFinset row.sectionId := mem_loadSectionsWithAncestors hids
  rw [hmem, h.mappings, h.reached_iff hi hids]
  constructor
  · rintro ⟨hrow, hreached⟩
    have hclosed : row.sectionId ∈ (t.sectionsOf c).map (·.sectionId) := by
      refine List.mem_toFinset.mp (hreached.mem (fun y hy => ?_) fun y hy p hp => ?_)
      · exact List.mem_toFinset.mpr (hi.mapped_subset (List.mem_toFinset.mp hy))
      · exact hi.sectionsOf_closed _ hy _ hp
    obtain ⟨other, hother, hid⟩ := List.mem_map.mp hclosed
    rwa [← List.inj_on_of_nodup_map hids (h.sections other hother) hrow hid]
  · intro hrow
    exact ⟨h.sections row hrow, (hi.mem_sectionsOf.mp hrow).2⟩

theorem sectionsOf_perm : (t'.sectionsOf c).Perm (t.sectionsOf c) := by
  have hids' : ((t'.sectionsOf c).map (·.sectionId)).Nodup := by
    unfold Tables.sectionsOf Tables.loadSectionsWithAncestors
    exact (perm_sortBy.map _).nodup_iff.mpr ((List.filter_sublist.map _).nodup hids)
  exact (List.perm_ext_iff_of_nodup hids'.of_map hi.sectionsOf_nodup.of_map).mpr
    fun row => h.mem_sectionsOf hi hids

variable (hbooks : (t'.textbooks.map (·.textbookId)).Nodup)
include hbooks

/-- **It reads the textbooks that it read.** -/
theorem textbooksOf_perm : (t'.textbooksOf c).Perm (t.textbooksOf c) := by
  have hsub : ∀ {u : Tables K F D G}, (u.textbooks.map (·.textbookId)).Nodup → (u.textbooksOf c).Nodup :=
    fun hu => ((List.filter_sublist.map _).nodup hu).of_map
  refine (List.perm_ext_iff_of_nodup (hsub hbooks) (hsub hi.textbookIds)).mpr fun row => ?_
  have hused := (h.sectionsOf_perm hi hids).map (·.textbookId)
  constructor
  · intro hrow
    obtain ⟨hmem, hread⟩ := List.mem_filter.mp hrow
    obtain ⟨item, hitem, hid⟩ := List.mem_map.mp (hused.mem_iff.mp (of_decide_eq_true hread))
    obtain ⟨book, hbook, hkey⟩ := List.mem_map.mp
      (hi.sectionTextbooks item (hi.mem_sectionsOf.mp hitem).1)
    have hold : book ∈ t.textbooksOf c :=
      List.mem_filter.mpr ⟨hbook, decide_eq_true (hkey ▸ List.mem_map_of_mem hitem)⟩
    rwa [← List.inj_on_of_nodup_map hbooks (h.textbooks book hold) hmem (hkey.trans hid)]
  · intro hrow
    refine List.mem_filter.mpr ⟨h.textbooks row hrow, decide_eq_true ?_⟩
    exact hused.mem_iff.mpr (of_decide_eq_true (List.mem_filter.mp hrow).2)

theorem sectionsFit (hs : SectionsFit t c) : SectionsFit t' c := by
  refine ⟨fun row hrow p hp => ?_, ?_, ?_⟩
  · rw [h.mem_sectionsOf hi hids] at hrow
    obtain ⟨other, hother, rfl, htextbook⟩ := hs.parents row hrow p hp
    refine ⟨other, h.sections other (hi.mem_sectionsOf.mpr ⟨hother, ?_⟩), rfl, htextbook⟩
    obtain ⟨hmem, hreached⟩ := hi.mem_sectionsOf.mp hrow
    exact hreached.parent ((Topic1.parentOf_eq hi.sectionIds hmem).trans hp)
  · rw [(h.sectionsOf_perm hi hids).length_eq]
    exact hs.sections
  · rw [(h.textbooksOf_perm hi hids hbooks).length_eq]
    exact hs.textbooks

/-- **With its own rows as they were, its graph is read as before.** -/
theorem gather_eq (P : Platform K F D G) (course : Course K D) (hc : course.courseId = c)
    (hpoints : t'.pointsOf c = t.pointsOf c) (hedges : t'.prerequisitesOf c = t.prerequisitesOf c)
    (hmisconceptions : t'.misconceptionsOf c = t.misconceptionsOf c)
    (hquestions : t'.questionsOf c = t.questionsOf c) :
    t'.gatherContent P course = t.gatherContent P course := by
  subst hc
  have hg := gathered (P := P) (t := t) course
  have hg' := gathered (P := P) (t := t') course
  apply Content.ext
  · rfl
  · exact congrArg P.knowledgePointOrder.order hpoints
  · exact congrArg P.prerequisiteOrder.order hedges
  · rw [hg.misconceptions, hg'.misconceptions, hmisconceptions]
  · rw [hg.textbooks, hg'.textbooks]
    refine (sortBy_eq_of_perm (h.textbooksOf_perm hi hids hbooks).symm ?_).symm
    exact (List.filter_sublist.map _).nodup hi.textbookIds
  · rw [hg.sections, hg'.sections]
    exact (sortBy_eq_of_perm (h.sectionsOf_perm hi hids).symm hi.sectionsOf_nodup).symm
  · rw [hg.mappings, hg'.mappings, h.mappings]
  · rw [hg.questions, hg'.questions, hquestions]

end KeepsShelf

/-! ### Writes that suit the other courses -/

/-- Each row of a content that another course reads stands as it is. -/
def SharedAlike (t : Tables K F D G) (content : Content K F D) : Prop :=
  ∀ course ∈ t.courses, course.courseId ≠ content.course.courseId →
    (∀ row ∈ t.sectionsOf course.courseId, ∀ item ∈ content.textbookSections,
      item.sectionId = row.sectionId → item = row) ∧
    ∀ row ∈ t.textbooksOf course.courseId, ∀ item ∈ content.textbooks,
      item.textbookId = row.textbookId → item = row

instance [DecidableEq D] (t : Tables K F D G) (content : Content K F D) : Decidable (SharedAlike t content) :=
  inferInstanceAs (Decidable (∀ _ ∈ _, _))

theorem mem_foldl_mergeRow_of_alike {α : Type} {key : α → K} {rows new : List α} (hnew : (new.map key).Nodup)
    {row : α} (hrow : row ∈ rows) (h : ∀ item ∈ new, key item = key row → item = row) :
    row ∈ new.foldl (mergeRow key) rows := by
  rw [mem_foldl_mergeRow hnew]
  by_cases hkey : key row ∈ new.map key
  · obtain ⟨item, hitem, hsame⟩ := List.mem_map.mp hkey
    exact .inl (h item hitem hsame ▸ hitem)
  · exact .inr ⟨hrow, hkey⟩

section shared
variable {P : Platform K F D G} {t t' : Tables K F D G} {content : Content K F D} (hi : Integrity t)
  (hrefs : References content) (h : SharedAlike t content)
include hi hrefs h

theorem SharedAlike.keepsShelf {course : Course K D} (hcourse : course ∈ t.courses)
    (hne : course.courseId ≠ content.course.courseId) :
    KeepsShelf t (t.withShelf content) course.courseId := by
  obtain ⟨hsections, hbooks⟩ := h course hcourse hne
  refine ⟨fun row hrow => ?_, fun row hrow => ?_, rfl⟩
  · exact mem_foldl_mergeRow_of_alike hrefs.sectionIds (hi.mem_sectionsOf.mp hrow).1 (hsections row hrow)
  · exact mem_foldl_mergeRow_of_alike hrefs.textbookIds (List.mem_filter.mp hrow).1 (hbooks row hrow)

theorem SharedAlike.leavesOthers (hfit : ∀ course ∈ t.courses, SectionsFit t course.courseId) :
    LeavesOthers t content := fun course hcourse hne =>
  (h.keepsShelf hi hrefs hcourse hne).sectionsFit hi (foldl_mergeRow_nodup hi.sectionIds)
    (foldl_mergeRow_nodup hi.textbookIds) (hfit course hcourse)

/-- **A write keeps the shelf of every other course.** -/
theorem Replaced.keepsShelf (hr : Replaced P t content t') {course : Course K D} (hcourse : course ∈ t.courses)
    (hne : course.courseId ≠ content.course.courseId) : KeepsShelf t t' course.courseId := by
  obtain ⟨hsections, hbooks⟩ := h course hcourse hne
  obtain ⟨ordered, hperm, hmerged, -⟩ := hr.sections_eq
  refine ⟨fun row hrow => ?_, fun row hrow => ?_, hr.mappingsOf_other hrefs.owned hi hne⟩
  · rw [hmerged]
    refine mem_foldl_mergeRow_of_alike ((hperm.map _).nodup_iff.mpr hrefs.sectionIds)
      (hi.mem_sectionsOf.mp hrow).1 fun item hitem => ?_
    exact hsections row hrow item (hperm.mem_iff.mp hitem)
  · rw [hr.textbooks]
    exact mem_foldl_mergeRow_of_alike hrefs.textbookIds (List.mem_filter.mp hrow).1 (hbooks row hrow)

end shared

theorem Replaced.mem_textbooksOf_own {P : Platform K F D G} {t t' : Tables K F D G} {content : Content K F D}
    (hr : Replaced P t content t') (hi : Integrity t) (hrefs : References content) {row : Textbook K D} :
    row ∈ t'.textbooksOf content.course.courseId ↔ row ∈ content.textbooks := by
  have hmem : row ∈ t'.textbooks ↔ row ∈ content.textbooks ∨
      (row ∈ t.textbooks ∧ row.textbookId ∉ content.textbooks.map (·.textbookId)) := by
    rw [hr.textbooks, mem_foldl_mergeRow hrefs.textbookIds]
  have hused : row.textbookId ∈ (t'.sectionsOf content.course.courseId).map (·.textbookId) ↔
      row.textbookId ∈ content.textbookSections.map (·.textbookId) := by
    simp only [List.mem_map, hr.mem_sectionsOf_own hi hrefs]
  unfold Tables.textbooksOf
  rw [List.mem_filter, decide_eq_true_eq, hmem, hused]
  constructor
  · rintro ⟨hrow | ⟨-, hnot⟩, hread⟩
    · exact hrow
    · obtain ⟨item, hitem, hid⟩ := List.mem_map.mp hread
      exact absurd (hid ▸ hrefs.sectionTextbooks item hitem) hnot
  · intro hrow
    exact ⟨.inl hrow, hrefs.textbooksUsed row hrow⟩

end CyberControl.Topic1
