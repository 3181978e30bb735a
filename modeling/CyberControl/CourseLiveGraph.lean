import CyberControl.CourseCanonical
import CyberControl.CourseShelves

/-! # The live graph and its latest snapshot

Each mutation of Topic 1 writes one content twice: into the rows of the course, by deletion and insertion or,
for the textbooks and sections of the tenant, by a merge; and into a snapshot. -/

namespace CyberControl.Topic1

open Collections Scheduling Transition Versions

variable {K F D G : Type}

/-! ### Resources -/

inductive Resource (K F D : Type) where
  | course (item : Course K D)
  | knowledgePoint (item : KnowledgePoint K F D)
  | prerequisite (item : Prerequisite K D)
  | misconception (item : Misconception K D)
  | textbook (item : Textbook K D)
  | textbookSection (item : TextbookSection K D)
  | textbookMapping (item : TextbookMapping K D)
  | goldenQuestion (item : GoldenQuestion K D)

/-- The resource is in the graph. -/
def Content.Has (content : Content K F D) : Resource K F D → Prop
  | .course item => item = content.course
  | .knowledgePoint item => item ∈ content.knowledgePoints
  | .prerequisite item => item ∈ content.prerequisites
  | .misconception item => item ∈ content.misconceptions
  | .textbook item => item ∈ content.textbooks
  | .textbookSection item => item ∈ content.textbookSections
  | .textbookMapping item => item ∈ content.textbookMappings
  | .goldenQuestion item => item ∈ content.goldenQuestions

/-- The same but for the derived fields, the revision and the time of the last write of a knowledge point. -/
def SameButDerived : Resource K F D → Resource K F D → Prop
  | .knowledgePoint a, .knowledgePoint b => a.kpId = b.kpId ∧ a.courseId = b.courseId ∧
      a.stamp.createdAt = b.stamp.createdAt ∧
      { a.toKnowledgePointDocument with difficultyLevel := 0 }
        = { b.toKnowledgePointDocument with difficultyLevel := 0 }
  | a, b => a = b

theorem SameButDerived.refl (a : Resource K F D) : SameButDerived a a := by
  cases a with
  | knowledgePoint item => exact ⟨rfl, rfl, rfl, rfl⟩
  | _ => rfl

theorem SameGraph.has_iff {content content' : Content K F D} (h : SameGraph content content')
    (a : Resource K F D) : content'.Has a ↔ content.Has a := by
  cases a with
  | course item =>
    unfold Content.Has
    rw [h.course]
  | knowledgePoint item => exact h.knowledgePoints.mem_iff
  | prerequisite item => exact h.prerequisites.mem_iff
  | misconception item => exact h.misconceptions.mem_iff
  | textbook item => exact h.textbooks.mem_iff
  | textbookSection item => exact h.textbookSections.mem_iff
  | textbookMapping item => exact h.textbookMappings.mem_iff
  | goldenQuestion item => exact h.goldenQuestions.mem_iff

/-- A stamp that has only the time of the creation. -/
def Stamp.created (stamp : Stamp) : Stamp := ⟨1, stamp.createdAt, stamp.createdAt, Nat.one_pos⟩

/-- A content up to the revisions and the times of the last writes. -/
def Content.unrevised (content : Content K F D) : Content K F D where
  course := { content.course with stamp := content.course.stamp.created }
  knowledgePoints := content.knowledgePoints.map fun item => { item with stamp := item.stamp.created }
  prerequisites := content.prerequisites.map fun item => { item with stamp := item.stamp.created }
  misconceptions := content.misconceptions.map fun item => { item with stamp := item.stamp.created }
  textbooks := content.textbooks.map fun item => { item with stamp := item.stamp.created }
  textbookSections := content.textbookSections.map fun item => { item with stamp := item.stamp.created }
  textbookMappings := content.textbookMappings.map fun item => { item with stamp := item.stamp.created }
  goldenQuestions := content.goldenQuestions.map fun item => { item with stamp := item.stamp.created }

theorem SameGraph.unrevised {content content' : Content K F D} (h : SameGraph content content') :
    SameGraph content.unrevised content'.unrevised := by
  refine ⟨?_, h.knowledgePoints.map _, h.prerequisites.map _, h.misconceptions.map _, h.textbooks.map _,
    h.textbookSections.map _, h.textbookMappings.map _, h.goldenQuestions.map _⟩
  unfold Content.unrevised
  rw [h.course]

variable [LinearOrder K]

/-- The resource is the one that the mutation is about, or goes with a knowledge point that is deleted;
imports and rollbacks are about all of them. -/
def Mutation.Touches : Mutation K F D → Resource K F D → Prop
  | .importBundle _, _ => True
  | .rollbackSnapshot _ _, _ => True
  | .upsertCourse _ _ _, .course _ => True
  | .upsertKnowledgePoint _ kpId _ _, .knowledgePoint item => item.kpId = kpId
  | .deleteKnowledgePoint _ kpId _, .knowledgePoint item => item.kpId = kpId
  | .deleteKnowledgePoint _ kpId _, .prerequisite item => kpId ∈ [item.prerequisiteKpId, item.dependentKpId]
  | .deleteKnowledgePoint _ kpId _, .misconception item => item.kpId = kpId
  | .deleteKnowledgePoint _ kpId _, .textbookMapping item => item.kpId = kpId
  | .deleteKnowledgePoint _ kpId _, .goldenQuestion item => kpId ∈ item.primaryKpId :: item.relatedKpIds
  | .upsertPrerequisite _ edgeId _ _, .prerequisite item => item.edgeId = edgeId
  | .deletePrerequisite _ edgeId _, .prerequisite item => item.edgeId = edgeId
  | _, _ => False

/-- A graph has the other resources that it had, and no new ones. -/
structure Undisturbed (mutation : Mutation K F D) (before after : Content K F D) : Prop where
  kept : ∀ a, before.Has a → ¬ mutation.Touches a → ∃ b, after.Has b ∧ SameButDerived a b
  known : ∀ b, after.Has b → ¬ mutation.Touches b → ∃ a, before.Has a ∧ SameButDerived a b

/-! ### Laws -/

section laws
variable (P : Platform K F D G) (t : Tables K F D G)

/-- The queries list the rows in the order of the snapshots: the collation is the order of the identifiers,
and no two prerequisites join the same knowledge points. -/
def ListedAlike (content : Content K F D) : Prop :=
  (∀ x y, P.collate x ≤ P.collate y ↔ x ≤ y) ∧
    (content.prerequisites.map fun item => (item.prerequisiteKpId, item.dependentKpId)).Nodup

/-- The graph of a course is that of its latest snapshot, and a freeze leaves it as it is. -/
structure Live [DecidableEq G] (c : K) : Prop where
  same : ∃ live snapshot, t.loadGraphContent P c = .ok (some live) ∧
    t.latestSnapshot P c = .ok (some snapshot) ∧ SameGraph snapshot.content live ∧
    (ListedAlike P snapshot.content → live = snapshot.content)
  frozen : ∀ now snapshotId t', step P t ⟨.freezeGraph c, now, snapshotId⟩ = some t' →
    t'.loadGraphContent P c = t.loadGraphContent P c ∧
      (t'.latestSnapshot P c).map (Option.map (·.content)) = (t.latestSnapshot P c).map (Option.map (·.content))

/-- The course that a call mutates. -/
def Concerns (call : Call K F D) (c : K) : Prop :=
  match call.mutation with
  | .upsertCourse courseId _ _ => courseId = c
  | .upsertKnowledgePoint courseId _ _ _ => courseId = c
  | .deleteKnowledgePoint courseId _ _ => courseId = c
  | .upsertPrerequisite courseId _ _ _ => courseId = c
  | .deletePrerequisite courseId _ _ => courseId = c
  | .importBundle bundle => bundle.content.course.courseId = c
  | .freezeGraph courseId => courseId = c
  | .rollbackSnapshot snapshotId _ => ∃ row ∈ t.snapshots, row.snapshotId = snapshotId ∧ row.courseId = c

/-- What a committed call does to the graphs of the courses. -/
structure Lawful (call : Call K F D) (t' : Tables K F D G) : Prop where
  others : ∀ c, ¬ Concerns t call c → t'.loadGraphContent P c = t.loadGraphContent P c
  resources : ∀ c before after, Concerns t call c → t.loadGraphContent P c = .ok (some before) →
    t'.loadGraphContent P c = .ok (some after) → Undisturbed call.mutation before after
  restored : ∀ snapshotId advancedAt, call.mutation = .rollbackSnapshot snapshotId advancedAt →
    ∀ row ∈ t.snapshots, row.snapshotId = snapshotId →
      ∃ live, t'.loadGraphContent P row.courseId = .ok (some live) ∧
        SameGraph row.content.unrevised live.unrevised

/-- No other course reads a section or a textbook of the content. -/
def SharesNothing (content : Content K F D) : Prop :=
  ∀ course ∈ t.courses, course.courseId ≠ content.course.courseId →
    (∀ row ∈ t.sectionsOf course.courseId, row.sectionId ∉ content.textbookSections.map (·.sectionId)) ∧
    ∀ row ∈ t.textbooksOf course.courseId, row.textbookId ∉ content.textbooks.map (·.textbookId)

instance (content : Content K F D) : Decidable (SharesNothing t content) :=
  inferInstanceAs (Decidable (∀ _ ∈ _, _))

/-- What a call must meet. -/
def LiveCall (call : Call K F D) : Prop :=
  match call.mutation with
  | .importBundle bundle => Kept P bundle.content ∧ SharedAlike t bundle.content
  | .rollbackSnapshot snapshotId _ =>
    ∀ row ∈ t.snapshots, row.snapshotId = snapshotId → SharesNothing t row.content
  | _ => SoundCall P t call

end laws

/-! ### Faithful states -/

/-- The invariant. -/
structure Faithful (P : Platform K F D G) (t : Tables K F D G) : Prop where
  sound : Sound P t
  canonical : ∀ row ∈ t.snapshots, Canonical P.arithmetic row.content
  sections : ∀ c, ∀ row ∈ (t.snapshotsOf c).head?, (t.sectionsOf c).Perm row.content.textbookSections
  textbooks : ∀ c, ∀ row ∈ (t.snapshotsOf c).head?, (t.textbooksOf c).Perm row.content.textbooks

theorem Faithful.empty (P : Platform K F D G) : Faithful P Tables.empty := by
  refine ⟨Sound.empty P, ?_, ?_, ?_⟩
  all_goals simp [Tables.empty, Tables.snapshotsOf]

variable {course : Course K D} {c : K}

section faithful
variable {P : Platform K F D G} {t : Tables K F D G} (hf : Faithful P t)
include hf

/-- **The rows of a course are the graph of its latest snapshot.** -/
theorem Faithful.newest (hcourse : course ∈ t.courses) :
    ∃ row ∈ (t.snapshotsOf course.courseId).head?, row.content.course = course ∧
      SameGraph row.content (t.gatherContent P course) := by
  obtain ⟨row, hrow, hmirror, rfl⟩ := hf.sound.committed.newest hcourse
  have hkept := (hf.sound.snapshots row (List.mem_filter.mp (List.mem_of_mem_head? hrow)).1).kept
  have hg := gathered (P := P) (t := t) row.content.course
  refine ⟨row, hrow, rfl, rfl, ?_, ?_, ?_, ?_, ?_, ?_, ?_⟩
  · exact (P.knowledgePointOrder.perm _).trans (.of_eq hmirror.points)
  · exact (P.prerequisiteOrder.perm _).trans (.of_eq hmirror.prerequisites)
  · rw [hg.misconceptions]
    exact perm_sortBy.trans (.of_eq hmirror.misconceptions)
  · rw [hg.textbooks]
    exact perm_sortBy.trans (hf.textbooks _ row hrow)
  · rw [hg.sections]
    exact perm_sortBy.trans (hf.sections _ row hrow)
  · rw [hg.mappings]
    exact perm_sortBy.trans (.of_eq hmirror.mappings)
  · rw [hg.questions]
    refine perm_sortBy.trans (.of_eq ?_)
    rw [hmirror.questions, map_eq_self_iff]
    intro item hitem
    unfold questionRow
    rw [(hkept.questions item hitem).2]

theorem Faithful.load (hcourse : course ∈ t.courses) :
    t.loadGraphContent P course.courseId = .ok (some (t.gatherContent P course)) := by
  unfold Tables.loadGraphContent
  rw [find?_key_eq_some hf.sound.committed.integrity.courseIds hcourse]
  exact unit_bind_eq_ok.mpr ⟨validateContent_ok.mpr (hf.sound.gathered hcourse), rfl⟩

theorem Faithful.latest [DecidableEq G] {row : Snapshot K F D G}
    (hrow : row ∈ (t.snapshotsOf c).head?) : t.latestSnapshot P c = .ok (some row) := by
  unfold Tables.latestSnapshot
  rw [(hf.sound.committed.chained c).latest, Option.mem_def.mp hrow]
  simp only [(hf.sound.snapshots row (List.mem_filter.mp (List.mem_of_mem_head? hrow)).1).read]
  rfl

end faithful

theorem eq_of_sorted {α κ : Type*} [LinearOrder κ] (key : α → κ) {l l' : List α} (hperm : l.Perm l')
    (hl : l.Pairwise fun a b => key a ≤ key b) (hl' : l'.Pairwise fun a b => key a ≤ key b)
    (hkeys : (l'.map key).Nodup) : l = l' := by
  have hsort : sortBy key l = l := List.Pairwise.insertionSort_eq hl
  have hsort' : sortBy key l' = l' := List.Pairwise.insertionSort_eq hl'
  rw [← hsort, ← hsort']
  exact sortBy_eq_of_perm hperm ((hperm.map key).nodup_iff.mpr hkeys)

theorem sortBy_eq_of_sorted {α κ : Type*} [LinearOrder κ] {key : α → κ} {rows l : List α}
    (hl : l = sortBy key l) (hperm : (sortBy key rows).Perm l) (hkeys : (l.map key).Nodup) :
    sortBy key rows = l := by
  have hrows : rows.Perm l := perm_sortBy.symm.trans hperm
  exact (sortBy_eq_of_perm hrows ((hrows.map key).nodup_iff.mpr hkeys)).trans hl.symm

variable {content : Content K F D}

theorem eq_of_listedAlike {P : Platform K F D G} {t : Tables K F D G}
    (hcanonical : Canonical P.arithmetic content) (hrefs : References content)
    (hsame : SameGraph content (t.gatherContent P course)) (hlisted : ListedAlike P content) :
    t.gatherContent P course = content := by
  obtain ⟨hcollate, hends⟩ := hlisted
  obtain ⟨metrics, hnormalized⟩ := hcanonical
  obtain ⟨-, -, hpoints, hedges, hmisconceptions, htextbooks, hsections, hmappings, hquestions⟩ := hnormalized 0
  have hg := gathered (P := P) (t := t) course
  have hinj : ∀ x y, P.collate x = P.collate y → x = y := fun x y h =>
    le_antisymm ((hcollate x y).mp h.le) ((hcollate y x).mp h.ge)
  have hless : ∀ x y, P.collate x < P.collate y ↔ x < y := fun x y => by
    rw [lt_iff_not_ge, lt_iff_not_ge, hcollate]
  apply Content.ext
  · exact hsame.course
  · refine eq_of_sorted (fun item => toLex (item.topologyLevel, item.kpId)) hsame.knowledgePoints
      ((P.knowledgePointOrder.sorted _).imp fun {a b} hab => ?_) ?_ ?_
    · rw [Prod.Lex.toLex_le_toLex] at hab ⊢
      simpa only [hcollate] using hab
    · rw [hpoints]
      exact pairwise_sortBy
    · refine List.Nodup.of_map (fun key => (ofLex key).2) ?_
      rw [List.map_map]
      exact hrefs.kpIds
  · refine eq_of_sorted (fun item => toLex (item.prerequisiteKpId, item.dependentKpId))
      hsame.prerequisites ((P.prerequisiteOrder.sorted _).imp fun {a b} hab => ?_) ?_ ?_
    · rw [Prod.Lex.toLex_le_toLex] at hab ⊢
      simp only [hcollate, hless] at hab
      exact hab.imp_right fun h => ⟨hinj _ _ h.1, h.2⟩
    · rw [hedges]
      refine pairwise_sortBy.imp fun {a b} hab => ?_
      rw [Prod.Lex.toLex_le_toLex] at hab ⊢
      refine hab.imp_right fun h => ⟨h.1, ?_⟩
      have hrest := h.2
      rw [Prod.Lex.toLex_le_toLex] at hrest
      exact hrest.elim le_of_lt fun h => h.1.le
    · exact List.Nodup.of_map (fun key => ofLex key) (by rwa [List.map_map])
  · rw [hg.misconceptions]
    exact sortBy_eq_of_sorted hmisconceptions (hg.misconceptions ▸ hsame.misconceptions) hrefs.misconceptionIds
  · rw [hg.textbooks]
    exact sortBy_eq_of_sorted htextbooks (hg.textbooks ▸ hsame.textbooks) hrefs.textbookIds
  · rw [hg.sections]
    exact sortBy_eq_of_sorted hsections (hg.sections ▸ hsame.textbookSections) hrefs.sectionIds
  · rw [hg.mappings]
    exact sortBy_eq_of_sorted hmappings (hg.mappings ▸ hsame.textbookMappings) hrefs.mappingIds
  · rw [hg.questions]
    exact sortBy_eq_of_sorted hquestions (hg.questions ▸ hsame.goldenQuestions) hrefs.questionIds

/-! ### Calls that meet the condition -/

section shared
variable {P : Platform K F D G} {t : Tables K F D G}

theorem sharedAlike_of_loaded (hi : Integrity t) (course : Course K D)
    (htextbooks : content.textbooks = (t.gatherContent P course).textbooks)
    (hsections : content.textbookSections = (t.gatherContent P course).textbookSections) :
    SharedAlike t content := by
  have hg := gathered (P := P) (t := t) course
  refine fun other _ _ => ⟨fun row hrow item hitem hid => ?_, fun row hrow item hitem hid => ?_⟩
  · rw [hsections, hg.sections, mem_sortBy, hi.mem_sectionsOf] at hitem
    exact List.inj_on_of_nodup_map hi.sectionIds hitem.1 (hi.mem_sectionsOf.mp hrow).1 hid
  · rw [htextbooks, hg.textbooks, mem_sortBy] at hitem
    exact List.inj_on_of_nodup_map hi.textbookIds (List.mem_filter.mp hitem).1 (List.mem_filter.mp hrow).1 hid

theorem SharedAlike.of_perm {content content' : Content K F D} (h : SharedAlike t content)
    (hcourse : content'.course.courseId = content.course.courseId)
    (htextbooks : content'.textbooks.Perm content.textbooks)
    (hsections : content'.textbookSections.Perm content.textbookSections) : SharedAlike t content' := by
  intro course hmem hne
  rw [hcourse] at hne
  obtain ⟨hrows, hbooks⟩ := h course hmem hne
  exact ⟨fun row hrow item hitem => hrows row hrow item (hsections.mem_iff.mp hitem),
    fun row hrow item hitem => hbooks row hrow item (htextbooks.mem_iff.mp hitem)⟩

theorem SharesNothing.rollForward (h : SharesNothing t content) (graphVersion : ℕ)
    (now : ℤ) : SharedAlike t (rollForwardContent content graphVersion now) := by
  intro course hmem hne
  obtain ⟨hrows, hbooks⟩ := h course hmem hne
  refine ⟨fun row hrow item hitem hid => ?_, fun row hrow item hitem hid => ?_⟩
  · obtain ⟨before, hbefore, rfl⟩ := List.mem_map.mp hitem
    refine absurd ?_ (hrows row hrow)
    rw [← hid]
    exact List.mem_map.mpr ⟨before, hbefore, rfl⟩
  · obtain ⟨before, hbefore, rfl⟩ := List.mem_map.mp hitem
    refine absurd ?_ (hbooks row hrow)
    rw [← hid]
    exact List.mem_map.mpr ⟨before, hbefore, rfl⟩

theorem SharesNothing.alike (h : SharesNothing t content) :
    SharedAlike t content := by
  intro course hmem hne
  obtain ⟨hrows, hbooks⟩ := h course hmem hne
  refine ⟨fun row hrow item hitem hid => ?_, fun row hrow item hitem hid => ?_⟩
  · exact absurd (hid ▸ List.mem_map_of_mem hitem) (hrows row hrow)
  · exact absurd (hid ▸ List.mem_map_of_mem hitem) (hbooks row hrow)

theorem LiveCall.sound (hf : Faithful P t) {call : Call K F D} (h : LiveCall P t call) :
    SoundCall P t call := by
  have hi := hf.sound.committed.integrity
  obtain ⟨mutation, now, snapshotId⟩ := call
  cases mutation with
  | importBundle bundle =>
    exact ⟨h.1, h.2.leavesOthers hi (validateContent_ok.mp bundle.valid).2 hf.sound.sectionsFit⟩
  | rollbackSnapshot source advancedAt =>
    intro row hrow hid
    exact (h row hrow hid).alike.leavesOthers hi (hf.sound.snapshots row hrow).references
      hf.sound.sectionsFit
  | upsertCourse courseId document expected => exact h
  | upsertKnowledgePoint courseId kpId document expected => exact h
  | deleteKnowledgePoint courseId kpId expected => exact h
  | upsertPrerequisite courseId edgeId document expected => exact h
  | deletePrerequisite courseId edgeId expected => exact h
  | freezeGraph courseId => exact h

theorem LiveCall.sharedAlike [DecidableEq G] (hf : Faithful P t) {call : Call K F D} (hcall : LiveCall P t call)
    (h : edited P t call = .ok content) : SharedAlike t content := by
  have hi := hf.sound.committed.integrity
  cases edited_ok h with
  | createCourse hload hnew hvalid =>
    exact fun other _ _ => ⟨fun row _ item hitem => absurd hitem List.not_mem_nil,
      fun row _ item hitem => absurd hitem List.not_mem_nil⟩
  | @updateCourse course => exact sharedAlike_of_loaded hi course rfl rfl
  | @upsertKnowledgePoint course => exact sharedAlike_of_loaded hi course rfl rfl
  | @deleteKnowledgePoint course => exact sharedAlike_of_loaded hi course rfl rfl
  | @upsertPrerequisite course => exact sharedAlike_of_loaded hi course rfl rfl
  | @deletePrerequisite course => exact sharedAlike_of_loaded hi course rfl rfl
  | importBundle => exact hcall.2
  | @freezeGraph course => exact sharedAlike_of_loaded hi course rfl rfl
  | @rollbackSnapshot row target latest _ _ _ hrow hread hlatest =>
    obtain rfl := Except.ok.inj ((hf.sound.snapshots row hrow).read.symm.trans hread)
    exact (hcall row hrow rfl).rollForward _ _

end shared

/-! ### Steps -/

section step
variable [DecidableEq G] {P : Platform K F D G} {t t' : Tables K F D G} {call : Call K F D}

/-- What a call that meets the condition writes. -/
structure Writes (P : Platform K F D G) (t t' : Tables K F D G) (content normal : Content K F D) : Prop where
  references : References normal
  shared : SharedAlike t normal
  shelves : ∀ course ∈ t.courses, course.courseId ≠ normal.course.courseId → KeepsShelf t t' course.courseId
  sections : (t'.sectionsOf normal.course.courseId).Perm normal.textbookSections
  textbooks : (t'.textbooksOf normal.course.courseId).Perm normal.textbooks

theorem LiveCall.writes (hf : Faithful P t) (hcall : LiveCall P t call) (e : Executed P t call t') :
    Writes P t t' e.content e.normal := by
  have hi := hf.sound.committed.integrity
  have hr := e.replaced
  have hrefs := e.normalized.sameReferences.references (edited_sound hf.sound (hcall.sound hf) e).references
  have hshared : SharedAlike t e.normal := by
    refine (hcall.sharedAlike hf e.edited_eq).of_perm (congrArg (·.courseId) e.normalized.course) ?_ ?_
    · rw [e.normalized.textbooks]
      exact perm_sortBy
    · rw [e.normalized.textbookSections]
      exact perm_sortBy
  have hi' := hr.integrity hrefs.owned hi
  have hsectionsOf : t'.sectionsOf e.normal.course.courseId = e.written.sectionsOf e.normal.course.courseId :=
    (congrArg (fun u : Tables K F D G => u.sectionsOf e.normal.course.courseId) e.tables_eq).trans rfl
  have htextbooksOf : t'.textbooksOf e.normal.course.courseId
      = e.written.textbooksOf e.normal.course.courseId :=
    (congrArg (fun u : Tables K F D G => u.textbooksOf e.normal.course.courseId) e.tables_eq).trans rfl
  refine ⟨hrefs, hshared, fun course hcourse hne => ?_, ?_, ?_⟩
  · obtain ⟨hsections, hbooks, hmappings⟩ := hr.keepsShelf hi hrefs hshared hcourse hne
    refine ⟨fun row hrow => ?_, fun row hrow => ?_, ?_⟩
    · exact congrArg Tables.textbookSections e.tables_eq ▸ hsections row hrow
    · exact congrArg Tables.textbooks e.tables_eq ▸ hbooks row hrow
    · exact (congrArg (fun u : Tables K F D G => u.mappingsOf course.courseId) e.tables_eq).trans hmappings
  · rw [hsectionsOf]
    exact (List.perm_ext_iff_of_nodup hi'.sectionsOf_nodup.of_map hrefs.sectionIds.of_map).mpr
      fun row => hr.mem_sectionsOf_own hi hrefs
  · rw [htextbooksOf]
    refine (List.perm_ext_iff_of_nodup ?_ hrefs.textbookIds.of_map).mpr
      fun row => hr.mem_textbooksOf_own hi hrefs
    exact ((List.filter_sublist.map _).nodup hi'.textbookIds).of_map

omit [DecidableEq G] in
theorem Faithful.course_of_newest (hf : Faithful P t) {row : Snapshot K F D G}
    (hrow : row ∈ (t.snapshotsOf c).head?) : ∃ course ∈ t.courses, course.courseId = c := by
  obtain ⟨hmem, hc⟩ := List.mem_filter.mp (List.mem_of_mem_head? hrow)
  refine ⟨row.content.course, (hf.sound.committed.mirrors c row hrow).course, ?_⟩
  rw [← hf.sound.committed.own row hmem]
  exact of_decide_eq_true hc

/-- **A call that meets the condition keeps the state faithful.** -/
theorem Faithful.commit (hweights : KeepsWeights P) (hA : ComparableWeights P.arithmetic) (hf : Faithful P t)
    (hcall : LiveCall P t call) (e : Executed P t call t') : Faithful P t' := by
  have hi := hf.sound.committed.integrity
  have hw := hcall.writes hf e
  have hsound := hf.sound.commit hweights (hcall.sound hf) e
  have hi' := hsound.committed.integrity
  refine ⟨hsound, fun row hrow => ?_, fun c row hrow => ?_, fun c row hrow => ?_⟩
  · rw [e.snapshots_eq] at hrow
    rcases List.mem_cons.mp hrow with rfl | hold
    · exact e.normalized.canonical hA
    · exact hf.canonical row hold
  · by_cases hc : c = e.normal.course.courseId
    · rw [hc, e.snapshotsOf_own] at hrow
      obtain rfl := Option.mem_some.mp hrow
      exact hc ▸ hw.sections
    · rw [e.snapshotsOf_other hc] at hrow
      obtain ⟨course, hcourse, rfl⟩ := hf.course_of_newest hrow
      exact ((hw.shelves course hcourse hc).sectionsOf_perm hi hi'.sectionIds).trans (hf.sections _ row hrow)
  · by_cases hc : c = e.normal.course.courseId
    · rw [hc, e.snapshotsOf_own] at hrow
      obtain rfl := Option.mem_some.mp hrow
      exact hc ▸ hw.textbooks
    · rw [e.snapshotsOf_other hc] at hrow
      obtain ⟨course, hcourse, rfl⟩ := hf.course_of_newest hrow
      exact ((hw.shelves course hcourse hc).textbooksOf_perm hi hi'.sectionIds hi'.textbookIds).trans
        (hf.textbooks _ row hrow)

end step

/-! ### What is read -/

section read
variable {P : Platform K F D G} {t t' : Tables K F D G}

theorem loadGraphContent_of_notMem (h : c ∉ t.courses.map (·.courseId)) :
    t.loadGraphContent P c = .ok none := by
  unfold Tables.loadGraphContent
  have hnone : t.courses.find? (fun course => course.courseId = c) = none := by
    rw [List.find?_eq_none]
    intro course hcourse hc
    exact h (List.mem_map.mpr ⟨course, hcourse, of_decide_eq_true hc⟩)
  rw [hnone]

/-- **The latest snapshot decides what is read.** -/
theorem Faithful.load_congr [DecidableEq G] (hf : Faithful P t) (hf' : Faithful P t')
    (h : (t'.snapshotsOf c).head?.map (·.content) = (t.snapshotsOf c).head?.map (·.content)) :
    t'.loadGraphContent P c = t.loadGraphContent P c := by
  have hknown : ∀ {u : Tables K F D G}, Faithful P u → (u.snapshotsOf c).head? = none →
      u.loadGraphContent P c = .ok none := by
    intro u hu hnone
    refine loadGraphContent_of_notMem fun hmem => ?_
    obtain ⟨course, hcourse, rfl⟩ := List.mem_map.mp hmem
    exact hu.sound.committed.snapshotted course hcourse (List.head?_eq_none_iff.mp hnone)
  cases hhead : (t.snapshotsOf c).head? with
  | none =>
    rw [hhead, Option.map_none, Option.map_eq_none_iff] at h
    rw [hknown hf hhead, hknown hf' h]
  | some row =>
    rw [hhead] at h
    obtain ⟨row', hhead', hcontent⟩ := Option.map_eq_some_iff.mp h
    have hsame : row'.content = row.content := hcontent
    obtain ⟨course, hcourse, rfl⟩ := hf.course_of_newest hhead
    have hm := hf.sound.committed.mirrors _ row hhead
    have hm' := hf'.sound.committed.mirrors _ row' hhead'
    obtain ⟨found, hfound, hrow, -⟩ := hf.newest hcourse
    obtain rfl := Option.some.inj (hhead.symm.trans hfound)
    have hcourse' := hm'.course
    rw [hsame, hrow] at hcourse'
    rw [hf.load hcourse, hf'.load hcourse']
    have hsections := (hf'.sections _ row' hhead').trans (hsame ▸ (hf.sections _ row hhead).symm)
    have hbooks := (hf'.textbooks _ row' hhead').trans (hsame ▸ (hf.textbooks _ row hhead).symm)
    have hi := hf.sound.committed.integrity
    have hi' := hf'.sound.committed.integrity
    obtain ⟨-, hpoints, hedges, hmisconceptions, hmappings, hquestions⟩ := hm
    obtain ⟨-, hpoints', hedges', hmisconceptions', hmappings', hquestions'⟩ := hm'
    rw [hsame] at hpoints' hedges' hmisconceptions' hmappings' hquestions'
    rw [hrow] at hpoints hedges hmisconceptions hmappings hquestions
    rw [hrow] at hpoints' hedges' hmisconceptions' hmappings' hquestions'
    have hshelf : KeepsShelf t t' course.courseId := by
      refine ⟨fun item hitem => ?_, fun item hitem => ?_, hmappings'.trans hmappings.symm⟩
      · exact (hi'.mem_sectionsOf.mp (hsections.mem_iff.mpr hitem)).1
      · exact (List.mem_filter.mp (hbooks.mem_iff.mpr hitem)).1
    rw [hshelf.gather_eq hi hi'.sectionIds hi'.textbookIds P course rfl (hpoints'.trans hpoints.symm)
      (hedges'.trans hedges.symm) (hmisconceptions'.trans hmisconceptions.symm)
      (hquestions'.trans hquestions.symm)]

/-- **In a faithful state the live graph is the latest snapshot.** -/
theorem Faithful.live [DecidableEq G] (hweights : KeepsWeights P) (hA : ComparableWeights P.arithmetic)
    (hf : Faithful P t) (hcourse : course ∈ t.courses) : Live P t course.courseId := by
  obtain ⟨row, hrow, hsame, hgraph⟩ := hf.newest hcourse
  have hmem := (List.mem_filter.mp (List.mem_of_mem_head? hrow)).1
  constructor
  · exact ⟨_, row, hf.load hcourse, hf.latest hrow, hgraph,
      eq_of_listedAlike (hf.canonical row hmem) (hf.sound.snapshots row hmem).references hgraph⟩
  · intro now snapshotId t' hstep
    obtain ⟨e⟩ := step_eq_some hstep
    have hcall : LiveCall P t ⟨.freezeGraph course.courseId, now, snapshotId⟩ := trivial
    have hf' := hf.commit hweights hA hcall e
    obtain ⟨found, hfound, hid, hcontent, -⟩ := requiredContent_ok e.edited_eq
    obtain rfl := List.inj_on_of_nodup_map hf.sound.committed.integrity.courseIds hfound hcourse hid
    have hnormalized := e.normalized
    rw [hcontent] at hnormalized
    have hnormal : e.normal = row.content :=
      (hf.canonical row hmem).eq_of_sameGraph (hf.sound.snapshots row hmem).references hgraph hnormalized
    have hown := e.snapshotsOf_own
    rw [hnormal, hsame] at hown
    have hhead' := congrArg List.head? hown
    refine ⟨hf.load_congr hf' ?_, ?_⟩
    · rw [hhead', Option.mem_def.mp hrow]
      rfl
    · rw [hf.latest hrow, hf'.latest (Option.mem_def.mpr hhead')]
      rfl

/-! ### What a call changes -/

section edits
variable [DecidableEq G] {call : Call K F D} {content : Content K F D}

theorem edited_rollback (h : edited P t call = .ok content) {source : ℕ} {advancedAt : ℤ}
    (hmutation : call.mutation = .rollbackSnapshot source advancedAt) :
    ∃ row ∈ t.snapshots, ∃ target version, row.snapshotId = source ∧ readSnapshot P row = .ok target ∧
      content = rollForwardContent target.content version advancedAt := by
  cases edited_ok h with
  | @rollbackSnapshot row target latest _ _ _ hrow hread hlatest =>
    cases hmutation
    exact ⟨row, hrow, target, _, rfl, hread, rfl⟩
  | _ => cases hmutation

theorem edited_concerns (hf : Faithful P t) (h : edited P t call = .ok content) :
    Concerns t call c ↔ content.course.courseId = c := by
  cases edited_ok h with
  | @rollbackSnapshot row target latest _ _ _ hrow hread hlatest =>
    have hsound := hf.sound.snapshots row hrow
    obtain rfl := Except.ok.inj (hsound.read.symm.trans hread)
    change (∃ other ∈ t.snapshots, other.snapshotId = row.snapshotId ∧ other.courseId = c) ↔
      row.content.course.courseId = c
    rw [← hsound.course]
    constructor
    · rintro ⟨other, hother, hsource, rfl⟩
      rw [List.inj_on_of_nodup_map hf.sound.committed.snapshotIds hother hrow hsource]
    · intro hc
      exact ⟨row, hrow, rfl, hc⟩
  | _ => rfl

omit [DecidableEq G] in
theorem mem_exchanged {α : Type} (key : α → K) {rows : List α} {item new : α} {k : K} (hnew : key new = k)
    (hitem : key item ≠ k) : item ∈ (rows.filter fun other => key other ≠ k) ++ [new] ↔ item ∈ rows := by
  rw [List.mem_append, List.mem_filter, List.mem_singleton]
  constructor
  · rintro (⟨hmem, -⟩ | rfl)
    · exact hmem
    · exact absurd hnew hitem
  · intro hmem
    exact .inl ⟨hmem, decide_eq_true hitem⟩

omit [DecidableEq G] [LinearOrder K] in
theorem mem_kept {α : Type} {p : α → Prop} [DecidablePred p] {rows : List α} {item : α} (h : p item) :
    item ∈ rows.filter (fun other => p other) ↔ item ∈ rows := by
  rw [List.mem_filter, and_iff_left (decide_eq_true h)]

theorem edited_has_iff (h : edited P t call = .ok content) {before : Content K F D}
    (hbefore : t.loadGraphContent P content.course.courseId = .ok (some before)) {a : Resource K F D}
    (ha : ¬ call.mutation.Touches a) : content.Has a ↔ before.Has a := by
  have hloads {course : Course K D} (hload : Loads P t course)
      (hid : content.course.courseId = course.courseId) : before = t.gatherContent P course := by
    rw [hid, load_of_required hload.required] at hbefore
    exact (Option.some.inj (Except.ok.inj hbefore)).symm
  cases edited_ok h with
  | createCourse hload hnew hvalid => cases hload.symm.trans hbefore
  | updateCourse hload hcourse hvalid =>
    obtain rfl := Option.some.inj (Except.ok.inj (hload.symm.trans hbefore))
    cases a with
    | course item => exact absurd trivial ha
    | _ => rfl
  | upsertKnowledgePoint hload =>
    obtain rfl := hloads hload rfl
    cases a with
    | knowledgePoint item => exact mem_exchanged (fun item : KnowledgePoint K F D => item.kpId) rfl ha
    | _ => rfl
  | deleteKnowledgePoint hload =>
    obtain rfl := hloads hload rfl
    cases a with
    | knowledgePoint item => exact mem_kept ha
    | prerequisite item => exact mem_kept ha
    | misconception item => exact mem_kept ha
    | textbookMapping item => exact mem_kept ha
    | goldenQuestion item => exact mem_kept ha
    | _ => rfl
  | upsertPrerequisite edge hload hcourse hstamp =>
    obtain rfl := hloads hload rfl
    cases a with
    | prerequisite item => exact mem_exchanged (fun item : Prerequisite K D => item.edgeId) rfl ha
    | _ => rfl
  | deletePrerequisite hload =>
    obtain rfl := hloads hload rfl
    cases a with
    | prerequisite item => exact mem_kept ha
    | _ => rfl
  | importBundle => exact absurd trivial ha
  | freezeGraph hload =>
    obtain rfl := hloads hload rfl
    rfl
  | rollbackSnapshot hrow hread hlatest => exact absurd trivial ha

end edits

theorem touches_congr {mutation : Mutation K F D} {a b : Resource K F D} (h : SameButDerived a b) :
    mutation.Touches a ↔ mutation.Touches b := by
  cases a with
  | knowledgePoint item =>
    cases b with
    | knowledgePoint other =>
      obtain ⟨hid, -⟩ := h
      cases mutation <;> simp [Mutation.Touches, hid]
    | _ => cases h
  | _ =>
    obtain rfl := h
    exact Iff.rfl

theorem Normalized.has {A : FloatArithmetic F} {content normal : Content K F D} {now : ℤ}
    {metrics : Metrics K F} (hn : Normalized A content now metrics normal) :
    (∀ a, content.Has a → ∃ b, normal.Has b ∧ SameButDerived a b) ∧
      ∀ b, normal.Has b → ∃ a, content.Has a ∧ SameButDerived a b := by
  have hpoint : ∀ item : KnowledgePoint K F D, SameButDerived (.knowledgePoint item)
      (.knowledgePoint (normalizePoint A metrics content.prerequisites now item)) := by
    intro item
    refine ⟨rfl, rfl, ?_, rfl⟩
    unfold normalizePoint
    dsimp only
    split_ifs <;> rfl
  have hother : ∀ a : Resource K F D, (∀ item, a ≠ .knowledgePoint item) → (normal.Has a ↔ content.Has a) := by
    intro a ha
    cases a with
    | course item =>
      unfold Content.Has
      rw [hn.course]
    | knowledgePoint item => exact absurd rfl (ha item)
    | prerequisite item => exact hn.mem_prerequisites
    | misconception item =>
      change item ∈ normal.misconceptions ↔ item ∈ content.misconceptions
      rw [hn.misconceptions, mem_sortBy]
    | textbook item =>
      change item ∈ normal.textbooks ↔ item ∈ content.textbooks
      rw [hn.textbooks, mem_sortBy]
    | textbookSection item =>
      change item ∈ normal.textbookSections ↔ item ∈ content.textbookSections
      rw [hn.textbookSections, mem_sortBy]
    | textbookMapping item =>
      change item ∈ normal.textbookMappings ↔ item ∈ content.textbookMappings
      rw [hn.textbookMappings, mem_sortBy]
    | goldenQuestion item =>
      change item ∈ normal.goldenQuestions ↔ item ∈ content.goldenQuestions
      rw [hn.goldenQuestions, mem_sortBy]
  constructor
  · intro a ha
    cases a with
    | knowledgePoint item =>
      exact ⟨.knowledgePoint _, hn.mem_knowledgePoints.mpr ⟨item, ha, rfl⟩, hpoint item⟩
    | _ => exact ⟨_, (hother _ (by simp)).mpr ha, .refl _⟩
  · intro b hb
    cases b with
    | knowledgePoint item =>
      obtain ⟨before, hbefore, rfl⟩ := hn.mem_knowledgePoints.mp hb
      exact ⟨.knowledgePoint before, hbefore, hpoint before⟩
    | _ => exact ⟨_, (hother _ (by simp)).mp hb, .refl _⟩

theorem map_perm_of_sorted {α β κ : Type*} [LinearOrder κ] {key : α → κ} {e : α → β} {g : α → α} {l l' : List α}
    (h : l' = sortBy key (l.map g)) (hg : ∀ a ∈ l, e (g a) = e a) : (l'.map e).Perm (l.map e) := by
  rw [h]
  refine (perm_sortBy.map e).trans (.of_eq ?_)
  rw [List.map_map]
  exact List.map_congr_left hg

/-- **A snapshot that is rolled forward and normalised again is the snapshot up to the stamps.** -/
theorem unrevised_rollForward {A : FloatArithmetic F} {content normal : Content K F D} {graphVersion : ℕ}
    {advancedAt now : ℤ} {metrics : Metrics K F} (hc : Canonical A content) (hrefs : References content)
    (hn : Normalized A (rollForwardContent content graphVersion advancedAt) now metrics normal) :
    SameGraph content.unrevised normal.unrevised := by
  obtain ⟨own, hown⟩ := hc
  have hids : (rollForwardContent content graphVersion advancedAt).knowledgePoints.map (·.kpId)
      = content.knowledgePoints.map (·.kpId) := by
    simp [rollForwardContent]
  have hedges : topologyEdges (rollForwardContent content graphVersion advancedAt).prerequisites
      = topologyEdges content.prerequisites := by
    simp [rollForwardContent, topologyEdges]
  obtain rfl : own = metrics := by
    have hanalyzed := hn.analyzed
    rw [hids, hedges] at hanalyzed
    exact Except.ok.inj ((hown now).analyzed.symm.trans hanalyzed)
  refine ⟨?_, ?_, ?_, ?_, ?_, ?_, ?_, ?_⟩
  · unfold Content.unrevised
    rw [hn.course]
    rfl
  · have hpoints := hn.knowledgePoints
    change _ = sortBy _ (List.map _ (List.map _ content.knowledgePoints)) at hpoints
    rw [List.map_map] at hpoints
    refine map_perm_of_sorted hpoints fun item hitem => ?_
    have hpoint := Canonical.normalizePoint_eq (hown now) hrefs.kpIds hitem
    have hderived : ∀ stamp : Stamp, derived A own (rollForwardContent content graphVersion
        advancedAt).prerequisites { item with stamp := stamp } = derived A own content.prerequisites item := by
      intro stamp
      unfold derived rollForwardContent
      dsimp only
      rw [List.countP_map]
      rfl
    have hlevel : (derived A own content.prerequisites item).difficultyLevel = item.difficultyLevel :=
      congrArg (·.difficultyLevel) hpoint
    have htopology : (derived A own content.prerequisites item).topologyLevel = item.topologyLevel :=
      congrArg (·.topologyLevel) hpoint
    have hweight : (derived A own content.prerequisites item).topologyWeight = item.topologyWeight :=
      congrArg (·.topologyWeight) hpoint
    unfold normalizePoint
    simp only [Function.comp_apply, hderived, hlevel, htopology, hweight]
    split_ifs <;> rfl
  · exact map_perm_of_sorted hn.prerequisites fun item _ => rfl
  · exact map_perm_of_sorted hn.misconceptions fun item _ => rfl
  · exact map_perm_of_sorted hn.textbooks fun item _ => rfl
  · exact map_perm_of_sorted hn.textbookSections fun item _ => rfl
  · exact map_perm_of_sorted hn.textbookMappings fun item _ => rfl
  · exact map_perm_of_sorted hn.goldenQuestions fun item _ => rfl

end read

/-! ### Runs -/

section run
variable [DecidableEq G] {P : Platform K F D G} {t t' : Tables K F D G} {call : Call K F D}

theorem Faithful.written (hf' : Faithful P t') (e : Executed P t call t') :
    ∃ live, t'.loadGraphContent P e.normal.course.courseId = .ok (some live) ∧ SameGraph e.normal live := by
  have hhead : (t'.snapshotsOf e.normal.course.courseId).head?
      = some (plannedSnapshot P e.normal e.latest call.mutation.restoredFrom call.snapshotId) :=
    congrArg List.head? e.snapshotsOf_own
  obtain ⟨course, hcourse, hid⟩ := hf'.course_of_newest (Option.mem_def.mpr hhead)
  obtain ⟨row, hrow, -, hgraph⟩ := hf'.newest hcourse
  rw [hid] at hrow
  obtain rfl := Option.some.inj (hhead.symm.trans hrow)
  exact ⟨_, hid ▸ hf'.load hcourse, hgraph⟩

/-- **What a call that meets the condition does.** -/
theorem Faithful.lawful (hweights : KeepsWeights P) (hA : ComparableWeights P.arithmetic) (hf : Faithful P t)
    (hcall : LiveCall P t call) (e : Executed P t call t') : Lawful P t call t' := by
  have hf' := hf.commit hweights hA hcall e
  have hcourse : e.normal.course.courseId = e.content.course.courseId :=
    congrArg (·.courseId) e.normalized.course
  have hconcerns : ∀ {c}, Concerns t call c ↔ e.normal.course.courseId = c := by
    intro c
    rw [hcourse]
    exact edited_concerns hf e.edited_eq
  obtain ⟨live, hlive, hgraph⟩ := hf'.written e
  obtain ⟨hhas, hhad⟩ := e.normalized.has
  constructor
  case others =>
      intro c hc
      refine hf.load_congr hf' ?_
      rw [e.snapshotsOf_other fun heq => hc (hconcerns.mpr heq.symm)]
  case resources =>
      intro c before after hc hbefore hafter
      obtain rfl := hconcerns.mp hc
      obtain rfl := Option.some.inj (Except.ok.inj (hlive.symm.trans hafter))
      rw [hcourse] at hbefore
      constructor
      · intro a ha hnot
        obtain ⟨b, hb, hsame⟩ := hhas a ((edited_has_iff e.edited_eq hbefore hnot).mpr ha)
        exact ⟨b, (hgraph.has_iff b).mpr hb, hsame⟩
      · intro b hb hnot
        obtain ⟨a, ha, hsame⟩ := hhad b ((hgraph.has_iff b).mp hb)
        have hnot' : ¬ call.mutation.Touches a := fun htouches => hnot ((touches_congr hsame).mp htouches)
        exact ⟨a, (edited_has_iff e.edited_eq hbefore hnot').mp ha, hsame⟩
  case restored =>
      intro source advancedAt hmutation row hrow hid
      have hnormalized := e.normalized
      obtain ⟨found, hfound, target, version, hsource, hread, hcontent⟩ := edited_rollback e.edited_eq hmutation
      obtain rfl := List.inj_on_of_nodup_map hf.sound.committed.snapshotIds hfound hrow (hsource.trans hid.symm)
      have hsound := hf.sound.snapshots found hfound
      obtain rfl := Except.ok.inj (hsound.read.symm.trans hread)
      have howner : e.normal.course.courseId = found.courseId := by
        rw [hcourse, hcontent, hsound.course]
        rfl
      rw [hcontent] at hnormalized
      refine ⟨live, howner ▸ hlive, ?_⟩
      have hback := unrevised_rollForward (hf.canonical found hfound) hsound.references hnormalized
      exact hback.trans hgraph.unrevised

/-- **The latest snapshot is the live graph** in every state that calls meeting the condition reach, and each
further one changes its own course and resources alone. -/
theorem live_of_run (hweights : KeepsWeights P) (hA : ComparableWeights P.arithmetic)
    {calls : List (Call K F D)} (h : run (step P) Tables.empty calls = some t)
    (hcalls : AllSteps (step P) (LiveCall P) Tables.empty calls) :
    (∀ course ∈ t.courses, Live P t course.courseId) ∧
      (∀ c, Chained (·.graphVersion) (·.snapshotId) (·.parentSnapshotId) (t.snapshotsOf c)) ∧
      ∀ call t', LiveCall P t call → step P t call = some t' → Lawful P t call t' := by
  have hf : Faithful P t := run_invariant_of (I := Faithful P)
    (fun s call s' hs hcall hstep => hs.commit hweights hA hcall (step_eq_some hstep).some) (Faithful.empty P)
    hcalls h
  exact ⟨fun course hcourse => hf.live hweights hA hcourse, hf.sound.committed.chained,
    fun call t' hcall hstep => hf.lawful hweights hA hcall (step_eq_some hstep).some⟩

end run

/-! ### A sample -/

section sample

instance (P : Platform ℕ ℚ ℕ (Content ℕ ℚ ℕ)) (t : Tables ℕ ℚ ℕ (Content ℕ ℚ ℕ)) (call : Call ℕ ℚ ℕ) :
    Decidable (LiveCall P t call) :=
  match call with
  | ⟨.upsertCourse _ _ _, _, _⟩ => inferInstanceAs (Decidable (_ = _))
  | ⟨.upsertKnowledgePoint _ _ _ _, _, _⟩ => inferInstanceAs (Decidable (_ ∧ _))
  | ⟨.deleteKnowledgePoint _ _ _, _, _⟩ => inferInstanceAs (Decidable (Dispensable _ _ _))
  | ⟨.upsertPrerequisite _ _ _ _, _, _⟩ => inferInstanceAs (Decidable (_ ∧ _))
  | ⟨.deletePrerequisite _ _ _, _, _⟩ => isTrue trivial
  | ⟨.importBundle _, _, _⟩ => inferInstanceAs (Decidable (_ ∧ _))
  | ⟨.freezeGraph _, _, _⟩ => isTrue trivial
  | ⟨.rollbackSnapshot _ _, _, _⟩ => inferInstanceAs (Decidable (∀ _ ∈ _, _))

/-- A course whose knowledge point is mapped to a section of the textbook 50. -/
def bookContent (courseId : ℕ) (courseCode : String) (title : ℕ) : Content ℕ ℚ ℕ where
  course := { courseCode, fields := 0, courseId, stamp := .first 5 }
  knowledgePoints := [{ samplePoint 7 with
    kpId := 10 * courseId, courseId, stamp := .first 5, topologyLevel := 0, topologyWeight := 0 }]
  prerequisites := []
  misconceptions := []
  textbooks := [⟨50, none, title, .first 5⟩]
  textbookSections := [⟨60, 50, none, 0, .first 5, by decide⟩]
  textbookMappings := [⟨70 + courseId, 10 * courseId, 60, .PRIMARY, 0, .first 5⟩]
  goldenQuestions := []

def firstBundle : ImportBundle ℕ ℚ ℕ := ⟨none, bookContent 1 "ATC" 7, by decide +kernel⟩

/-- Another course, whose bundle gives the textbook another title. -/
def secondBundle : ImportBundle ℕ ℚ ℕ := ⟨none, bookContent 2 "CNC" 8, by decide +kernel⟩

def sampleSharing : List (Call ℕ ℚ ℕ) :=
  [⟨.importBundle firstBundle, 10, 100⟩, ⟨.importBundle secondBundle, 20, 101⟩]

/-- The first course is imported, renamed and rolled back. -/
def sampleRestoring : List (Call ℕ ℚ ℕ) :=
  [⟨.importBundle firstBundle, 10, 100⟩, ⟨.upsertCourse 1 ⟨"CTL", 0⟩ (some 1), 20, 101⟩,
    ⟨.rollbackSnapshot 100 30, 30, 102⟩]

theorem live_of_run_sample : ∃ t, run (step samplePlatform) Tables.empty sampleRestoring = some t ∧
    ∀ course ∈ t.courses, Live samplePlatform t course.courseId := by
  obtain ⟨t, h⟩ := Option.isSome_iff_exists.mp
    (show (run (step samplePlatform) Tables.empty sampleRestoring).isSome by decide +kernel)
  exact ⟨t, h, (live_of_run (fun _ _ _ _ => rfl) (fun _ _ _ _ => decide_eq_true rfl) h (by decide +kernel)).1⟩

/-- **An import that changes a textbook of another course**: the live graph of that course is no longer that of
its latest snapshot. -/
theorem shared_textbook : ∃ t ∈ run (step samplePlatform) Tables.empty sampleSharing,
    ∃ course ∈ t.courses, ¬ Live samplePlatform t course.courseId := by
  have hchanged : ∃ t ∈ run (step samplePlatform) Tables.empty sampleSharing, ∃ course ∈ t.courses,
      ∃ live ∈ (requiredContent samplePlatform t course.courseId).toOption,
        ∃ row ∈ (t.latestSnapshot samplePlatform course.courseId).toOption.join,
          ∃ book ∈ live.textbooks, book ∉ row.content.textbooks := by
    decide +kernel
  obtain ⟨t, ht, course, hcourse, live, hlive, row, hrow, book, hbook, hnot⟩ := hchanged
  refine ⟨t, ht, course, hcourse, fun hall => ?_⟩
  obtain ⟨found, latest, hload, hlatest, hsame, -⟩ := hall.same
  have hread := hload.symm.trans (load_of_required (eq_ok_of_toOption hlive))
  rw [hlatest] at hrow
  obtain rfl := Option.some.inj hrow
  obtain rfl := Option.some.inj (Except.ok.inj hread)
  exact hnot (hsame.textbooks.mem_iff.mp hbook)

end sample

end CyberControl.Topic1
