import CyberControl.CourseHistory

/-! # Contents with the same references

Normalising a content and rolling it forward changes derived fields and stamps and sorts the lists; the
identifiers and references stay, so the validator says the same of both (`SameReferences.references_iff`). -/

namespace CyberControl.Topic1

open Collections Scheduling

variable {K F D G : Type} [LinearOrder K]

/-! ### References -/

/-- The lists of two contents have the same identifiers and references, in some order. -/
structure SameReferences (content content' : Content K F D) : Prop where
  course : content'.course.courseId = content.course.courseId
  points : (content'.knowledgePoints.map fun item => (item.kpId, item.courseId)).Perm
    (content.knowledgePoints.map fun item => (item.kpId, item.courseId))
  prerequisites : (content'.prerequisites.map fun item =>
      (item.edgeId, item.courseId, item.prerequisiteKpId, item.dependentKpId, item.relationType)).Perm
    (content.prerequisites.map fun item =>
      (item.edgeId, item.courseId, item.prerequisiteKpId, item.dependentKpId, item.relationType))
  misconceptions : (content'.misconceptions.map fun item => (item.misconceptionId, item.kpId)).Perm
    (content.misconceptions.map fun item => (item.misconceptionId, item.kpId))
  textbooks : (content'.textbooks.map (·.textbookId)).Perm (content.textbooks.map (·.textbookId))
  sections : (content'.textbookSections.map fun item =>
      (item.sectionId, item.textbookId, item.parentSectionId)).Perm
    (content.textbookSections.map fun item => (item.sectionId, item.textbookId, item.parentSectionId))
  mappings : (content'.textbookMappings.map fun item =>
      (item.mappingId, item.kpId, item.sectionId, item.mappingType)).Perm
    (content.textbookMappings.map fun item =>
      (item.mappingId, item.kpId, item.sectionId, item.mappingType))
  questions : (content'.goldenQuestions.map fun item =>
      (item.questionId, item.primaryKpId, item.relatedKpIds, item.misconceptionIds)).Perm
    (content.goldenQuestions.map fun item =>
      (item.questionId, item.primaryKpId, item.relatedKpIds, item.misconceptionIds))

section perm
variable {α β γ : Type} {key : α → β} {l l' : List α} (h : (l'.map key).Perm (l.map key))
include h

theorem perm_of_key (f : β → γ) : (l'.map fun a => f (key a)).Perm (l.map fun a => f (key a)) := by
  have hmap := h.map f
  rwa [List.map_map, List.map_map] at hmap

theorem nodup_of_key (f : β → γ) (hl : (l.map fun a => f (key a)).Nodup) :
    (l'.map fun a => f (key a)).Nodup :=
  (perm_of_key h f).nodup_iff.mpr hl

theorem mem_of_key (f : β → γ) {c : γ} :
    c ∈ l'.map (fun a => f (key a)) ↔ c ∈ l.map fun a => f (key a) :=
  (perm_of_key h f).mem_iff

theorem forall_of_key {P : β → Prop} (hl : ∀ a ∈ l, P (key a)) : ∀ a ∈ l', P (key a) := by
  intro a ha
  obtain ⟨b, hb, hkey⟩ := List.mem_map.mp (h.mem_iff.mp (List.mem_map_of_mem ha))
  exact hkey ▸ hl b hb

end perm

theorem parentOf_congr {sections sections' : List (TextbookSection K D)}
    (h : (sections'.map fun item => (item.sectionId, item.textbookId, item.parentSectionId)).Perm
      (sections.map fun item => (item.sectionId, item.textbookId, item.parentSectionId)))
    (hids : (sections.map (·.sectionId)).Nodup) : parentOf sections' = parentOf sections := by
  have hids' := nodup_of_key h Prod.fst hids
  have hsub : ∀ {a b : List (TextbookSection K D)},
      (a.map fun item => (item.sectionId, item.textbookId, item.parentSectionId)).Perm
        (b.map fun item => (item.sectionId, item.textbookId, item.parentSectionId)) →
      (b.map (·.sectionId)).Nodup → ∀ x p, parentOf a x = some p → parentOf b x = some p := by
    intro a b hperm hb x p hp
    obtain ⟨item, hitem, rfl, hparent⟩ := parentOf_eq_some hp
    obtain ⟨other, hother, hkey⟩ := List.mem_map.mp (hperm.mem_iff.mp (List.mem_map_of_mem hitem))
    simp only [Prod.mk.injEq] at hkey
    rw [← hkey.1, parentOf_eq hb hother, hkey.2.2, hparent]
  funext x
  cases hx : parentOf sections x with
  | some p => exact hsub h.symm hids' x p hx
  | none =>
    cases hx' : parentOf sections' x with
    | none => rfl
    | some p =>
      rw [hsub h hids x p hx'] at hx
      cases hx

namespace SameReferences
variable {content content' : Content K F D}

omit [LinearOrder K] in
theorem symm (h : SameReferences content content') : SameReferences content' content :=
  ⟨h.course.symm, h.points.symm, h.prerequisites.symm, h.misconceptions.symm, h.textbooks.symm,
    h.sections.symm, h.mappings.symm, h.questions.symm⟩

variable (h : SameReferences content content')
include h

theorem references (hr : References content) : References content' := by
  have hparents := parentOf_congr h.sections hr.sectionIds
  have hkps : ∀ {kpId : K}, kpId ∈ content.knowledgePoints.map (·.kpId) →
      kpId ∈ content'.knowledgePoints.map (·.kpId) := (mem_of_key h.points Prod.fst).mpr
  have hsectionIds : ∀ {sectionId : K}, sectionId ∈ content.textbookSections.map (·.sectionId) →
      sectionId ∈ content'.textbookSections.map (·.sectionId) := (mem_of_key h.sections Prod.fst).mpr
  have hmisconceptionIds : ∀ {id : K}, id ∈ content.misconceptions.map (·.misconceptionId) →
      id ∈ content'.misconceptions.map (·.misconceptionId) := (mem_of_key h.misconceptions Prod.fst).mpr
  have hstart : (content'.textbookMappings.map (·.sectionId)).toFinset
      = (content.textbookMappings.map (·.sectionId)).toFinset :=
    List.toFinset_eq_of_perm _ _ (perm_of_key h.mappings fun key => key.2.2.1)
  constructor
  case kpIds => exact nodup_of_key h.points Prod.fst hr.kpIds
  case kpCourse =>
      rw [h.course]
      exact forall_of_key h.points (P := fun key => key.2 = content.course.courseId) hr.kpCourse
  case edgeIds => exact nodup_of_key h.prerequisites Prod.fst hr.edgeIds
  case edgeRelations => exact nodup_of_key h.prerequisites (fun key => key.2.2) hr.edgeRelations
  case edgeCourse =>
      rw [h.course]
      exact forall_of_key h.prerequisites (P := fun key => key.2.1 = content.course.courseId) hr.edgeCourse
  case edgeEnds =>
      refine forall_of_key h.prerequisites (P := fun key =>
        key.2.2.1 ∈ content'.knowledgePoints.map (·.kpId) ∧
          key.2.2.2.1 ∈ content'.knowledgePoints.map (·.kpId)) fun item hitem => ?_
      exact ⟨hkps (hr.edgeEnds item hitem).1, hkps (hr.edgeEnds item hitem).2⟩
  case misconceptionIds => exact nodup_of_key h.misconceptions Prod.fst hr.misconceptionIds
  case misconceptionKps =>
      exact forall_of_key h.misconceptions (P := fun key =>
        key.2 ∈ content'.knowledgePoints.map (·.kpId)) fun item hitem => hkps (hr.misconceptionKps item hitem)
  case textbookIds => exact h.textbooks.nodup_iff.mpr hr.textbookIds
  case sectionIds => exact nodup_of_key h.sections Prod.fst hr.sectionIds
  case sectionTextbooks =>
      exact forall_of_key h.sections (P := fun key => key.2.1 ∈ content'.textbooks.map (·.textbookId))
        fun item hitem => h.textbooks.mem_iff.mpr (hr.sectionTextbooks item hitem)
  case hierarchy =>
      constructor
      · refine forall_of_key h.sections (P := fun key => ∀ p ∈ key.2.2,
          ∃ other ∈ content'.textbookSections, other.sectionId = p ∧ other.textbookId = key.2.1)
          fun item hitem p hp => ?_
        obtain ⟨other, hother, rfl, htextbook⟩ := hr.hierarchy.parent item hitem p hp
        obtain ⟨found, hfound, hkey⟩ := List.mem_map.mp (h.sections.mem_iff.mpr (List.mem_map_of_mem hother))
        simp only [Prod.mk.injEq] at hkey
        exact ⟨found, hfound, hkey.1, hkey.2.1.trans htextbook⟩
      · rw [hparents]
        exact forall_of_key h.sections (P := fun key => Ends (parentOf content.textbookSections) key.1)
          hr.hierarchy.ends
  case mappingIds => exact nodup_of_key h.mappings Prod.fst hr.mappingIds
  case mappingRelations => exact nodup_of_key h.mappings (fun key => key.2) hr.mappingRelations
  case mappingEnds =>
      refine forall_of_key h.mappings (P := fun key => key.2.1 ∈ content'.knowledgePoints.map (·.kpId) ∧
        key.2.2.1 ∈ content'.textbookSections.map (·.sectionId)) fun item hitem => ?_
      exact ⟨hkps (hr.mappingEnds item hitem).1, hsectionIds (hr.mappingEnds item hitem).2⟩
  case sectionsReached =>
      rw [hparents, hstart]
      exact forall_of_key h.sections (P := fun key => Reached (parentOf content.textbookSections)
        (content.textbookMappings.map (·.sectionId)).toFinset key.1) hr.sectionsReached
  case textbooksUsed =>
      intro item hitem
      obtain ⟨before, hbefore, hid⟩ := List.mem_map.mp (h.textbooks.mem_iff.mp (List.mem_map_of_mem hitem))
      rw [← hid]
      exact (mem_of_key h.sections fun key => key.2.1).mpr (hr.textbooksUsed before hbefore)
  case questionIds => exact nodup_of_key h.questions Prod.fst hr.questionIds
  case questionLists =>
      exact forall_of_key h.questions (P := fun key => key.2.2.1.Nodup ∧ key.2.2.2.Nodup) hr.questionLists
  case questionKps =>
      exact forall_of_key h.questions (P := fun key => ∀ kpId ∈ key.2.1 :: key.2.2.1,
        kpId ∈ content'.knowledgePoints.map (·.kpId)) fun item hitem kpId hkpId =>
          hkps (hr.questionKps item hitem kpId hkpId)
  case questionMisconceptions =>
      exact forall_of_key h.questions (P := fun key => ∀ id ∈ key.2.2.2,
        id ∈ content'.misconceptions.map (·.misconceptionId)) fun item hitem id hid =>
          hmisconceptionIds (hr.questionMisconceptions item hitem id hid)

theorem references_iff : References content' ↔ References content := ⟨h.symm.references, h.references⟩

omit [LinearOrder K] in
theorem withinLimits_iff : WithinLimits content' ↔ WithinLimits content := by
  have hlengths : lengths content' = lengths content := by
    have hp := h.points.length_eq
    have he := h.prerequisites.length_eq
    have hm := h.misconceptions.length_eq
    have ht := h.textbooks.length_eq
    have hs := h.sections.length_eq
    have hmap := h.mappings.length_eq
    have hq := h.questions.length_eq
    simp only [List.length_map] at hp he hm ht hs hmap hq
    unfold lengths
    rw [hp, he, hm, ht, hs, hmap, hq]
  unfold WithinLimits
  rw [hlengths]

end SameReferences

theorem Normalized.sameReferences {A : FloatArithmetic F} {content content' : Content K F D} {now : ℤ}
    {metrics : Metrics K F} (hn : Normalized A content now metrics content') :
    SameReferences content content' := by
  refine ⟨by rw [hn.course], ?_, ?_, ?_, ?_, ?_, ?_, ?_⟩
  · rw [hn.knowledgePoints]
    refine (perm_sortBy.map _).trans ?_
    rw [List.map_map]
    exact List.Perm.refl _
  · rw [hn.prerequisites]
    exact perm_sortBy.map _
  · rw [hn.misconceptions]
    exact perm_sortBy.map _
  · rw [hn.textbooks]
    exact perm_sortBy.map _
  · rw [hn.textbookSections]
    exact perm_sortBy.map _
  · rw [hn.textbookMappings]
    exact perm_sortBy.map _
  · rw [hn.goldenQuestions]
    exact perm_sortBy.map _

omit [LinearOrder K] in
theorem rollForward_sameReferences (content : Content K F D) (graphVersion : ℕ) (now : ℤ) :
    SameReferences content (rollForwardContent content graphVersion now) := by
  constructor <;> simp only [rollForwardContent, List.map_map] <;> exact List.Perm.refl _

omit [LinearOrder K] in
theorem limits_iff {content : Content K F D} : WithinLimits content ↔
    content.knowledgePoints.length ≤ 5000 ∧ content.prerequisites.length ≤ 20000 ∧
      content.misconceptions.length ≤ 10000 ∧ content.textbooks.length ≤ 512 ∧
      content.textbookSections.length ≤ 10000 ∧ content.textbookMappings.length ≤ 20000 ∧
      content.goldenQuestions.length ≤ 20000 := by
  unfold WithinLimits lengths
  simp only [List.forall_mem_cons, List.not_mem_nil, false_imp_iff, implies_true, and_true]

/-! ### Kept contents -/

/-- The JSONB column keeps every field; the weights of knowledge points are left out, as they are computed
again. -/
structure Kept (P : Platform K F D G) (content : Content K F D) : Prop where
  course : P.jsonb content.course.fields = content.course.fields
  points : ∀ item ∈ content.knowledgePoints,
    P.jsonb item.fields = item.fields ∧ P.jsonbFloat item.difficultyScore = item.difficultyScore
  prerequisites : ∀ item ∈ content.prerequisites, P.jsonb item.fields = item.fields
  misconceptions : ∀ item ∈ content.misconceptions, P.jsonb item.fields = item.fields
  textbooks : ∀ item ∈ content.textbooks, P.jsonb item.fields = item.fields
  sections : ∀ item ∈ content.textbookSections, P.jsonb item.fields = item.fields
  mappings : ∀ item ∈ content.textbookMappings, P.jsonb item.fields = item.fields
  questions : ∀ item ∈ content.goldenQuestions,
    P.jsonb item.fields = item.fields ∧ P.jsonb item.answerDocument = item.answerDocument

theorem map_eq_self_iff {α : Type} {f : α → α} {l : List α} : l.map f = l ↔ ∀ a ∈ l, f a = a := by
  induction l with
  | nil => simp
  | cons a l ih => rw [List.map_cons, List.cons.injEq, ih, List.forall_mem_cons]

/-- Computed weights survive a JSONB column. -/
def KeepsWeights (P : Platform K F D G) : Prop :=
  ∀ n d l m, P.jsonbFloat (topologyWeight P.arithmetic n d l m) = topologyWeight P.arithmetic n d l m

theorem storedContent_eq_iff {P : Platform K F D G} {content : Content K F D} :
    storedContent P content = content ↔ Kept P content ∧
      ∀ item ∈ content.knowledgePoints, P.jsonbFloat item.topologyWeight = item.topologyWeight := by
  constructor
  · intro h
    have hcourse := congrArg (fun c => c.course.fields) h
    have hpoints := map_eq_self_iff.mp (congrArg Content.knowledgePoints h)
    have hedges := map_eq_self_iff.mp (congrArg Content.prerequisites h)
    have hmisconceptions := map_eq_self_iff.mp (congrArg Content.misconceptions h)
    have htextbooks := map_eq_self_iff.mp (congrArg Content.textbooks h)
    have hsections := map_eq_self_iff.mp (congrArg Content.textbookSections h)
    have hmappings := map_eq_self_iff.mp (congrArg Content.textbookMappings h)
    have hquestions := map_eq_self_iff.mp (congrArg Content.goldenQuestions h)
    refine ⟨⟨hcourse, fun item hitem => ⟨?_, ?_⟩, fun item hitem => ?_, fun item hitem => ?_,
      fun item hitem => ?_, fun item hitem => ?_, fun item hitem => ?_, fun item hitem => ⟨?_, ?_⟩⟩,
      fun item hitem => ?_⟩
    · exact congrArg (·.fields) (hpoints item hitem)
    · exact congrArg (·.difficultyScore) (hpoints item hitem)
    · exact congrArg (·.fields) (hedges item hitem)
    · exact congrArg (·.fields) (hmisconceptions item hitem)
    · exact congrArg (·.fields) (htextbooks item hitem)
    · exact congrArg (·.fields) (hsections item hitem)
    · exact congrArg (·.fields) (hmappings item hitem)
    · exact congrArg (·.fields) (hquestions item hitem)
    · exact congrArg (·.answerDocument) (hquestions item hitem)
    · exact congrArg (·.topologyWeight) (hpoints item hitem)
  · rintro ⟨h, hweights⟩
    have hpoints : (storedContent P content).knowledgePoints = content.knowledgePoints :=
      map_eq_self_iff.mpr fun item hitem => by
        rw [(h.points item hitem).1, (h.points item hitem).2, hweights item hitem]
    have hedges : (storedContent P content).prerequisites = content.prerequisites :=
      map_eq_self_iff.mpr fun item hitem => by rw [h.prerequisites item hitem]
    have hmisconceptions : (storedContent P content).misconceptions = content.misconceptions :=
      map_eq_self_iff.mpr fun item hitem => by rw [h.misconceptions item hitem]
    have htextbooks : (storedContent P content).textbooks = content.textbooks :=
      map_eq_self_iff.mpr fun item hitem => by rw [h.textbooks item hitem]
    have hsections : (storedContent P content).textbookSections = content.textbookSections :=
      map_eq_self_iff.mpr fun item hitem => by rw [h.sections item hitem]
    have hmappings : (storedContent P content).textbookMappings = content.textbookMappings :=
      map_eq_self_iff.mpr fun item hitem => by rw [h.mappings item hitem]
    have hquestions : (storedContent P content).goldenQuestions = content.goldenQuestions :=
      map_eq_self_iff.mpr fun item hitem => by
        rw [(h.questions item hitem).1, (h.questions item hitem).2]
    have hcourse : (storedContent P content).course = content.course := by
      simp only [storedContent, h.course]
    exact Content.ext hcourse hpoints hedges hmisconceptions htextbooks hsections hmappings hquestions

end CyberControl.Topic1
