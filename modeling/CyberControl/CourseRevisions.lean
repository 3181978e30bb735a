import CyberControl.CourseHistory
import CyberControl.Revisions
import Mathlib.Data.Rat.Floor

/-! # Revisions of courses, knowledge points and prerequisites

A client sends the revision that it has read, and `_check_revision` compares it with the live one.  That
detects every lost update as long as no revision of an identifier comes back with another content. -/

namespace CyberControl.Topic1

open Collections Revisions Scheduling Transition Versions

variable {K F D G : Type} [LinearOrder K]

/-! ### Histories -/

/-- The contents that a course has had, newest first. -/
def Tables.contentsOf (t : Tables K F D G) (c : K) : List (Content K F D) :=
  (t.snapshotsOf c).map (·.content)

/-- The revisions of each resource of a course advance. -/
structure RevisionsAdvance (history : List (Content K F D)) : Prop where
  course : Advances (fun content : Content K F D => [content.course]) (·.courseId) (·.stamp.revision) history
  points : Advances (fun content : Content K F D => content.knowledgePoints) (·.kpId) (·.stamp.revision)
    history
  prerequisites : Advances (fun content : Content K F D => content.prerequisites) (·.edgeId)
    (·.stamp.revision) history

/-- An identifier and a revision stand for one content. -/
def SingleContents (history : List (Content K F D)) : Prop :=
  ∀ v ∈ history, ∀ w ∈ history,
    (v.course.stamp.revision = w.course.stamp.revision → v.course = w.course) ∧
    (∀ a ∈ v.knowledgePoints, ∀ b ∈ w.knowledgePoints, a.kpId = b.kpId →
      a.stamp.revision = b.stamp.revision → a = b) ∧
    ∀ a ∈ v.prerequisites, ∀ b ∈ w.prerequisites, a.edgeId = b.edgeId →
      a.stamp.revision = b.stamp.revision → a = b

/-- A revision that was read and passes the check belongs to the live content. -/
def ReadsLive (read live : Content K F D) : Prop :=
  (checkRevision (some live.course.stamp.revision) (some read.course.stamp.revision) = .ok () →
    live.course = read.course) ∧
  (∀ a ∈ read.knowledgePoints, ∀ b ∈ live.knowledgePoints, b.kpId = a.kpId →
    checkRevision (some b.stamp.revision) (some a.stamp.revision) = .ok () → b = a) ∧
  ∀ a ∈ read.prerequisites, ∀ b ∈ live.prerequisites, b.edgeId = a.edgeId →
    checkRevision (some b.stamp.revision) (some a.stamp.revision) = .ok () → b = a

/-! ### The condition -/

section condition
variable (t : Tables K F D G)

/-- Each resource of a content is a live one or has a revision above all that its identifier has had. -/
structure NewRevisions (content : Content K F D) : Prop where
  course : content.course ∈ t.courses ∨
    Exceeds (fun content : Content K F D => [content.course]) (·.courseId) (·.stamp.revision)
      (t.contentsOf content.course.courseId) content.course.courseId content.course.stamp.revision
  points : ∀ item ∈ content.knowledgePoints, item ∈ t.knowledgePoints ∨
    Exceeds (fun content : Content K F D => content.knowledgePoints) (·.kpId) (·.stamp.revision)
      (t.contentsOf content.course.courseId) item.kpId item.stamp.revision
  prerequisites : ∀ item ∈ content.prerequisites, item ∈ t.prerequisites ∨
    Exceeds (fun content : Content K F D => content.prerequisites) (·.edgeId) (·.stamp.revision)
      (t.contentsOf content.course.courseId) item.edgeId item.stamp.revision

/-- No revision that a resource of the content has had since is as high as the next graph version. -/
structure VersionAbove (content : Content K F D) (next : ℕ) : Prop where
  course : Overtakes (fun content : Content K F D => [content.course]) (·.courseId) (·.stamp.revision)
    (t.contentsOf content.course.courseId) content.course.courseId content.course.stamp.revision next
  points : ∀ item ∈ content.knowledgePoints,
    Overtakes (fun content : Content K F D => content.knowledgePoints) (·.kpId) (·.stamp.revision)
      (t.contentsOf content.course.courseId) item.kpId item.stamp.revision next
  prerequisites : ∀ item ∈ content.prerequisites,
    Overtakes (fun content : Content K F D => content.prerequisites) (·.edgeId) (·.stamp.revision)
      (t.contentsOf content.course.courseId) item.edgeId item.stamp.revision next

instance [DecidableEq F] [DecidableEq D] (content : Content K F D) : Decidable (NewRevisions t content) :=
  decidable_of_iff (_ ∧ _ ∧ _) ⟨fun ⟨h, h', h''⟩ => ⟨h, h', h''⟩,
    fun ⟨h, h', h''⟩ => ⟨h, h', h''⟩⟩

instance (content : Content K F D) (next : ℕ) : Decidable (VersionAbove t content next) :=
  decidable_of_iff (_ ∧ _ ∧ _) ⟨fun ⟨h, h', h''⟩ => ⟨h, h', h''⟩,
    fun ⟨h, h', h''⟩ => ⟨h, h', h''⟩⟩

/-- What is created has an identifier that the course never had, what is imported has new revisions, and what
is rolled back has had no revision since that the next graph version is not above. -/
def FreshRevisions (call : Call K F D) : Prop :=
  match call.mutation with
  | .upsertKnowledgePoint courseId kpId _ _ =>
    kpId ∈ t.kpIdsOf courseId ∨ ∀ content ∈ t.contentsOf courseId, kpId ∉ content.knowledgePoints.map (·.kpId)
  | .upsertPrerequisite courseId edgeId _ _ =>
    edgeId ∈ (t.prerequisitesOf courseId).map (·.edgeId) ∨
      ∀ content ∈ t.contentsOf courseId, edgeId ∉ content.prerequisites.map (·.edgeId)
  | .importBundle bundle => NewRevisions t bundle.content
  | .rollbackSnapshot snapshotId _ => ∀ row ∈ t.snapshots, row.snapshotId = snapshotId →
    VersionAbove t row.content (nextVersion (latestVersion (·.graphVersion) (t.snapshotsOf row.courseId)))
  | _ => True

instance [DecidableEq F] [DecidableEq D] (call : Call K F D) : Decidable (FreshRevisions t call) :=
  match call with
  | ⟨.upsertKnowledgePoint _ _ _ _, _, _⟩ => inferInstanceAs (Decidable (_ ∨ _))
  | ⟨.upsertPrerequisite _ _ _ _, _, _⟩ => inferInstanceAs (Decidable (_ ∨ _))
  | ⟨.importBundle bundle, _, _⟩ => inferInstanceAs (Decidable (NewRevisions t bundle.content))
  | ⟨.rollbackSnapshot _ _, _, _⟩ => inferInstanceAs (Decidable (∀ _ ∈ _, _))
  | ⟨.upsertCourse _ _ _, _, _⟩ => isTrue trivial
  | ⟨.deleteKnowledgePoint _ _ _, _, _⟩ => isTrue trivial
  | ⟨.deletePrerequisite _ _ _, _, _⟩ => isTrue trivial
  | ⟨.freezeGraph _, _, _⟩ => isTrue trivial

end condition

/-! ### What a mutation does to the resources -/

/-- `a` is a row of the course or has a greater revision than the row with its key. -/
def Continues {α : Type} (rows : List α) (key : α → K) (revision : α → ℕ) (a : α) : Prop :=
  ∃ b ∈ rows, a = b ∨ (key b = key a ∧ revision b < revision a)

variable {content : Content K F D}

section edited
variable [DecidableEq G] {P : Platform K F D G} {t : Tables K F D G}

/-- The resources of the edited content come from the rows, or are new and exceed all before. -/
structure Continued (t : Tables K F D G) (content : Content K F D) : Prop where
  course : Continues t.courses (·.courseId) (·.stamp.revision) content.course ∨
    Exceeds (fun content : Content K F D => [content.course]) (·.courseId) (·.stamp.revision)
      (t.contentsOf content.course.courseId) content.course.courseId content.course.stamp.revision
  points : ∀ item ∈ content.knowledgePoints,
    Continues (t.pointsOf content.course.courseId) (·.kpId) (·.stamp.revision) item ∨
      Exceeds (fun content : Content K F D => content.knowledgePoints) (·.kpId) (·.stamp.revision)
        (t.contentsOf content.course.courseId) item.kpId item.stamp.revision
  prerequisites : ∀ item ∈ content.prerequisites,
    Continues (t.prerequisitesOf content.course.courseId) (·.edgeId) (·.stamp.revision) item ∨
      Exceeds (fun content : Content K F D => content.prerequisites) (·.edgeId) (·.stamp.revision)
        (t.contentsOf content.course.courseId) item.edgeId item.stamp.revision

omit [DecidableEq G] in
theorem NewRevisions.continued (ho : Owned content)
    (h : NewRevisions t content) : Continued t content := by
  refine ⟨h.course.imp_left fun hmem => ⟨_, hmem, .inl rfl⟩, fun item hitem => ?_, fun item hitem => ?_⟩
  · refine (h.points item hitem).imp_left fun hmem => ⟨item, ?_, .inl rfl⟩
    exact List.mem_filter.mpr ⟨hmem, decide_eq_true (ho.kpCourse item hitem)⟩
  · refine (h.prerequisites item hitem).imp_left fun hmem => ⟨item, ?_, .inl rfl⟩
    exact List.mem_filter.mpr ⟨hmem, decide_eq_true (ho.edgeCourse item hitem)⟩

omit [DecidableEq G] in
theorem continued_of_subset {course : Course K D} (hcourse : course ∈ t.courses)
    (hsame : content.course = course)
    (hpoints : ∀ item ∈ content.knowledgePoints, item ∈ (t.gatherContent P course).knowledgePoints)
    (hedges : ∀ item ∈ content.prerequisites, item ∈ (t.gatherContent P course).prerequisites) :
    Continued t content := by
  refine ⟨.inl ⟨course, hcourse, .inl hsame⟩, fun item hitem => .inl ⟨item, ?_, .inl rfl⟩,
    fun item hitem => .inl ⟨item, ?_, .inl rfl⟩⟩
  · rw [hsame]
    exact mem_gathered_points.mp (hpoints item hitem)
  · rw [hsame]
    exact mem_gathered_prerequisites.mp (hedges item hitem)

omit [LinearOrder K] [DecidableEq G] in
theorem nextVersion_eq {latest newest : Option (Snapshot K F D G)}
    (h : latest.map (fun snapshot => (snapshot.graphVersion, snapshot.snapshotId))
      = newest.map fun snapshot => (snapshot.graphVersion, snapshot.snapshotId)) :
    nextVersion latest = nextVersion newest := by
  have hversion := congrArg (Option.map Prod.fst) h
  rw [Option.map_map, Option.map_map] at hversion
  unfold nextVersion
  cases latest <;> cases newest <;> simp_all

/-- **What each mutation does to the resources of its course.** -/
theorem edited_continued {call : Call K F D} (hc : Committed P t)
    (h : edited P t call = .ok content) (hfresh : FreshRevisions t call) : Continued t content := by
  have ho := edited_owned h
  cases edited_ok h with
  | @createCourse courseId document _ _ _ hload hnew hvalid =>
    refine ⟨.inr ?_, by simp [upsertedCourse], by simp [upsertedCourse]⟩
    intro version hversion
    change version ∈ (t.snapshotsOf courseId).map _ at hversion
    rw [hc.snapshotsOf_eq_nil hnew] at hversion
    exact absurd hversion List.not_mem_nil
  | @updateCourse course document _ _ _ hload hcourse hvalid =>
    refine ⟨.inl ⟨course, hcourse, .inr ⟨rfl, ?_⟩⟩, fun item hitem => .inl ⟨item, ?_, .inl rfl⟩,
      fun item hitem => .inl ⟨item, ?_, .inl rfl⟩⟩
    · exact Nat.lt_succ_self course.stamp.revision
    · exact mem_gathered_points.mp hitem
    · exact mem_gathered_prerequisites.mp hitem
  | @upsertKnowledgePoint course kpId document _ now _ hload =>
    refine ⟨.inl ⟨course, hload.mem, .inl rfl⟩, fun item hitem => ?_,
      fun item hitem => .inl ⟨item, mem_gathered_prerequisites.mp hitem, .inl rfl⟩⟩
    rcases List.mem_append.mp hitem with hold | hlast
    · exact .inl ⟨item, mem_gathered_points.mp (List.mem_filter.mp hold).1, .inl rfl⟩
    · rw [List.mem_singleton.mp hlast]
      rcases hfresh with hexists | hnever
      · left
        obtain ⟨existing, hexisting, rfl⟩ := List.mem_map.mp hexists
        rw [find?_key_eq_some hload.references.kpIds (mem_gathered_points.mpr hexisting)]
        exact ⟨existing, hexisting, .inr ⟨rfl, Nat.lt_succ_self existing.stamp.revision⟩⟩
      · exact .inr fun version hversion b hb hkey =>
          absurd (List.mem_map.mpr ⟨b, hb, hkey⟩) (hnever version hversion)
  | deleteKnowledgePoint hload =>
    exact continued_of_subset hload.mem rfl (fun item hitem => (List.mem_filter.mp hitem).1)
      fun item hitem => (List.mem_filter.mp hitem).1
  | @upsertPrerequisite course edge _ _ _ hload _ hstamp =>
    refine ⟨.inl ⟨course, hload.mem, .inl rfl⟩,
      fun item hitem => .inl ⟨item, mem_gathered_points.mp hitem, .inl rfl⟩, fun item hitem => ?_⟩
    rcases List.mem_append.mp hitem with hold | hlast
    · exact .inl ⟨item, mem_gathered_prerequisites.mp (List.mem_filter.mp hold).1, .inl rfl⟩
    · rw [List.mem_singleton.mp hlast]
      rcases hfresh with hexists | hnever
      · left
        obtain ⟨existing, hexisting, hid⟩ := List.mem_map.mp hexists
        rw [← hid, find?_key_eq_some hload.references.edgeIds (mem_gathered_prerequisites.mpr hexisting)] at hstamp
        refine ⟨existing, hexisting, .inr ⟨hid, ?_⟩⟩
        change existing.stamp.revision < edge.stamp.revision
        rw [hstamp]
        exact Nat.lt_succ_self existing.stamp.revision
      · exact .inr fun version hversion b hb hkey =>
          absurd (List.mem_map.mpr ⟨b, hb, hkey⟩) (hnever version hversion)
  | deletePrerequisite hload =>
    exact continued_of_subset hload.mem rfl (fun item hitem => hitem)
      fun item hitem => (List.mem_filter.mp hitem).1
  | importBundle => exact hfresh.continued ho
  | freezeGraph hload =>
    exact continued_of_subset hload.mem rfl (fun item hitem => hitem) fun item hitem => hitem
  | @rollbackSnapshot row target latest _ _ _ hrow hread hlatest =>
    obtain ⟨rfl, -⟩ := readSnapshot_ok hread
    have habove := hfresh row hrow rfl
    rw [← nextVersion_eq (latestSnapshot_ok hlatest)] at habove
    refine ⟨.inr habove.course.exceeds, fun item hitem => .inr ?_, fun item hitem => .inr ?_⟩
    · obtain ⟨stored, hstored, rfl⟩ := List.mem_map.mp hitem
      obtain ⟨old, hold, rfl⟩ := List.mem_map.mp hstored
      exact (habove.points old hold).exceeds
    · obtain ⟨stored, hstored, rfl⟩ := List.mem_map.mp hitem
      obtain ⟨old, hold, rfl⟩ := List.mem_map.mp hstored
      exact (habove.prerequisites old hold).exceeds

end edited

/-! ### Steps and runs -/

section step
variable [DecidableEq G] {P : Platform K F D G} {t t' : Tables K F D G} {call : Call K F D}

variable (P) in
/-- The weight of a knowledge point has been computed. -/
def Weighed (item : KnowledgePoint K F D) : Prop :=
  ∃ n d l m, item.topologyWeight = topologyWeight P.arithmetic n d l m

variable {metrics : Metrics K F}

omit [DecidableEq G] in
theorem normalized_weighed (now : ℤ)
    (hmetrics : analyzeWeights P.arithmetic (content.knowledgePoints.map (·.kpId)).toFinset
      (topologyEdges content.prerequisites) = .ok metrics) (item : KnowledgePoint K F D) :
    Weighed P (normalizePoint P.arithmetic metrics content.prerequisites now item) := by
  obtain ⟨m, -, h⟩ := bind_eq_ok.mp hmetrics
  obtain ⟨a, -, h⟩ := bind_eq_ok.mp h
  obtain rfl := return_eq_ok.mp h
  exact ⟨_, _, _, _, rfl⟩

variable {item : KnowledgePoint K F D}

omit [DecidableEq G] in
theorem normalizePoint_cases (hw : ExactWeights P.arithmetic)
    (now : ℤ) (hitem : Weighed P item)
    (hmetrics : analyzeWeights P.arithmetic (content.knowledgePoints.map (·.kpId)).toFinset
      (topologyEdges content.prerequisites) = .ok metrics) :
    normalizePoint P.arithmetic metrics content.prerequisites now item = item ∨
      item.stamp.revision
        < (normalizePoint P.arithmetic metrics content.prerequisites now item).stamp.revision := by
  cases hchanges : (derived P.arithmetic metrics content.prerequisites item).changes P.arithmetic item with
  | true =>
    right
    rw [normalizePoint_stamp, if_pos hchanges]
    exact Nat.lt_succ_self item.stamp.revision
  | false =>
    left
    refine normalizePoint_eq_self hchanges ?_
    obtain ⟨n, d, l, m, hold⟩ := hitem
    obtain ⟨n', d', l', m', hnew⟩ := normalized_weighed now hmetrics item
    have hequal : P.arithmetic.equal item.topologyWeight (metrics.weights item.kpId) = true := by
      simp only [Derived.changes, Bool.or_eq_false_iff, Bool.not_eq_false'] at hchanges
      exact hchanges.2
    change metrics.weights item.kpId = _ at hnew
    rw [hold, hnew] at hequal ⊢
    exact (hw n d l m n' d' l' m' hequal).symm

variable {c : K}

omit [DecidableEq G] in
theorem Committed.newest_content (hc : Committed P t) (hcourse : c ∈ t.courses.map (·.courseId)) :
    ∃ newest ∈ (t.contentsOf c).head?, newest.course ∈ t.courses ∧ newest.course.courseId = c ∧
      t.pointsOf c = newest.knowledgePoints ∧ t.prerequisitesOf c = newest.prerequisites := by
  obtain ⟨course, hmem, rfl⟩ := List.mem_map.mp hcourse
  obtain ⟨snapshot, hhead, hmirror, hsame⟩ := hc.newest hmem
  refine ⟨snapshot.content, ?_, hmirror.course, congrArg _ hsame, ?_, ?_⟩
  · unfold Tables.contentsOf
    rw [List.head?_map, Option.mem_def.mp hhead]
    rfl
  · rw [← hmirror.points, hsame]
  · rw [← hmirror.prerequisites, hsame]

omit [DecidableEq G] in
theorem Committed.mem_contents (hc : Committed P t)
    (h : content ∈ t.contentsOf c) : (content.knowledgePoints.map (·.kpId)).Nodup ∧
      (content.prerequisites.map (·.edgeId)).Nodup ∧ content.course.courseId = c := by
  obtain ⟨snapshot, hsnapshot, rfl⟩ := List.mem_map.mp h
  obtain ⟨hmem, hid⟩ := List.mem_filter.mp hsnapshot
  exact ⟨hc.kpIds snapshot hmem, hc.edgeIds snapshot hmem,
    (hc.own snapshot hmem).symm.trans (of_decide_eq_true hid)⟩

omit [DecidableEq G] in
theorem Committed.pointsOf_course (hc : Committed P t)
    (h : item ∈ t.pointsOf c) : c ∈ t.courses.map (·.courseId) := by
  obtain ⟨hmem, hid⟩ := List.mem_filter.mp h
  exact of_decide_eq_true hid ▸ hc.integrity.kpCourses item hmem

omit [DecidableEq G] in
theorem Committed.prerequisitesOf_course (hc : Committed P t) {item : Prerequisite K D}
    (h : item ∈ t.prerequisitesOf c) : c ∈ t.courses.map (·.courseId) := by
  obtain ⟨hmem, hid⟩ := List.mem_filter.mp h
  have hends := (hc.integrity.edgeEnds item hmem).1
  rw [of_decide_eq_true hid] at hends
  obtain ⟨point, hpoint, -⟩ := List.mem_map.mp hends
  exact hc.pointsOf_course hpoint

theorem Executed.weighed (e : Executed P t call t') (hweighed : ∀ item ∈ t.knowledgePoints, Weighed P item) :
    ∀ item ∈ t'.knowledgePoints, Weighed P item := by
  intro item hitem
  rw [e.tables_eq] at hitem
  change item ∈ e.written.knowledgePoints at hitem
  rw [e.replaced.knowledgePoints] at hitem
  rcases List.mem_append.mp hitem with hitem | hitem
  · exact hweighed item (List.mem_filter.mp hitem).1
  · obtain ⟨before, -, rfl⟩ := e.normalized.mem_knowledgePoints.mp hitem
    exact normalized_weighed call.now e.normalized.analyzed before

theorem Executed.contentsOf_own (e : Executed P t call t') :
    t'.contentsOf e.normal.course.courseId = e.normal :: t.contentsOf e.normal.course.courseId := by
  unfold Tables.contentsOf
  rw [e.snapshotsOf_own]
  rfl

theorem Executed.contentsOf_other (e : Executed P t call t') (hc : c ≠ e.normal.course.courseId) :
    t'.contentsOf c = t.contentsOf c := by
  unfold Tables.contentsOf
  rw [e.snapshotsOf_other hc]

/-- **A call that meets the condition keeps the revisions advancing.** -/
theorem RevisionsAdvance.commit (hw : ExactWeights P.arithmetic) (hc : Committed P t)
    (hweighed : ∀ item ∈ t.knowledgePoints, Weighed P item)
    (h : ∀ c, RevisionsAdvance (t.contentsOf c)) (e : Executed P t call t')
    (hfresh : FreshRevisions t call) (c : K) : RevisionsAdvance (t'.contentsOf c) := by
  by_cases hown : c = e.normal.course.courseId
  · subst hown
    rw [e.contentsOf_own]
    have hcontinued := edited_continued hc e.edited_eq hfresh
    have hcourse := e.normalized.course
    have hid : e.content.course.courseId = e.normal.course.courseId := by rw [hcourse]
    rw [← hid]
    have hadvance := h e.content.course.courseId
    have hnewest := fun hmem => hc.newest_content (c := e.content.course.courseId) hmem
    refine ⟨Advances.cons ?_ hadvance.course fun a ha => ?_,
      Advances.cons ?_ hadvance.points fun a ha => ?_,
      Advances.cons ?_ hadvance.prerequisites fun a ha => ?_⟩
    · exact fun _ _ => List.nodup_singleton _
    · obtain rfl := List.mem_singleton.mp ha
      rw [hcourse]
      rcases hcontinued.course with ⟨b, hb, hcases⟩ | hexceeds
      · left
        have hbid : b.courseId = e.content.course.courseId := by
          rcases hcases with heq | ⟨hkey, -⟩
          · rw [heq]
          · exact hkey
        obtain ⟨newest, hnewest, hmem, hnewestId, -⟩ := hnewest (hbid ▸ List.mem_map_of_mem hb)
        have hb' : newest.course = b := List.inj_on_of_nodup_map hc.integrity.courseIds hmem hb
          (hnewestId.trans hbid.symm)
        exact ⟨newest, hnewest, b, by simp [hb'], hcases⟩
      · exact .inr hexceeds
    · exact fun version hversion => (hc.mem_contents hversion).1
    · obtain ⟨before, hbefore, rfl⟩ := e.normalized.mem_knowledgePoints.mp ha
      have hmetrics := e.normalized.analyzed
      have hrevision : before.stamp.revision
          ≤ (normalizePoint P.arithmetic e.metrics e.content.prerequisites call.now before).stamp.revision := by
        rw [normalizePoint_stamp]
        split_ifs
        · exact Nat.le_succ before.stamp.revision
        · exact le_refl _
      rcases hcontinued.points before hbefore with ⟨b, hb, hcases⟩ | hexceeds
      · left
        obtain ⟨newest, hnewest, -, -, hpoints, -⟩ := hnewest (hc.pointsOf_course hb)
        rw [hpoints] at hb
        refine ⟨newest, hnewest, b, hb, ?_⟩
        rcases hcases with rfl | ⟨hkey, hlt⟩
        · have hmem := List.mem_filter.mp (hpoints ▸ hb : before ∈ t.pointsOf e.content.course.courseId)
          rcases normalizePoint_cases hw call.now (hweighed before hmem.1) hmetrics with heq | hlt
          · exact .inl heq
          · exact .inr ⟨rfl, hlt⟩
        · exact .inr ⟨hkey, hlt.trans_le hrevision⟩
      · exact .inr fun version hversion b hb hkey => (hexceeds version hversion b hb hkey).trans_le hrevision
    · exact fun version hversion => (hc.mem_contents hversion).2.1
    · rcases hcontinued.prerequisites a (e.normalized.mem_prerequisites.mp ha) with ⟨b, hb, hcases⟩ | hexceeds
      · left
        obtain ⟨newest, hnewest, -, -, -, hedges⟩ := hnewest (hc.prerequisitesOf_course hb)
        rw [hedges] at hb
        exact ⟨newest, hnewest, b, hb, hcases⟩
      · exact .inr hexceeds
  · rw [e.contentsOf_other hown]
    exact h c

omit [LinearOrder K] [DecidableEq G] in
theorem distinct_course (history : List (Content K F D)) :
    DistinctKeys (fun content : Content K F D => [content.course]) (·.courseId) history :=
  fun content _ => List.nodup_singleton content.course.courseId

omit [LinearOrder K] in
/-- Where revisions advance, an identifier and a revision stand for one content. -/
theorem RevisionsAdvance.singleContents {history : List (Content K F D)}
    (h : RevisionsAdvance history)
    (hkeys : ∀ content ∈ history, (content.knowledgePoints.map (·.kpId)).Nodup ∧
      (content.prerequisites.map (·.edgeId)).Nodup ∧ content.course.courseId = c) :
    SingleContents history := by
  intro v hv w hw
  refine ⟨fun hrevision => ?_, fun a ha b hb => ?_, fun a ha b hb => ?_⟩
  · have hcourse := (hkeys v hv).2.2.trans (hkeys w hw).2.2.symm
    exact h.course.item_unique (distinct_course history) hv hw List.mem_cons_self
      List.mem_cons_self hcourse hrevision
  · exact h.points.item_unique (fun content hcontent => (hkeys content hcontent).1) hv hw ha hb
  · exact h.prerequisites.item_unique (fun content hcontent => (hkeys content hcontent).2.1) hv hw ha hb

omit [DecidableEq G] in
theorem Committed.loaded_content (hc : Committed P t)
    (h : requiredContent P t c = .ok content) : ∃ newest ∈ t.contentsOf c, newest.course = content.course ∧
      (∀ a ∈ content.knowledgePoints, a ∈ newest.knowledgePoints) ∧
      ∀ a ∈ content.prerequisites, a ∈ newest.prerequisites := by
  obtain ⟨course, hcourse, rfl, rfl, -⟩ := requiredContent_ok h
  obtain ⟨newest, hnewest, hmem, hid, hpoints, hedges⟩ := hc.newest_content (List.mem_map_of_mem hcourse)
  refine ⟨newest, List.mem_of_mem_head? hnewest, ?_, fun a ha => ?_, fun a ha => ?_⟩
  · exact List.inj_on_of_nodup_map hc.integrity.courseIds hmem hcourse hid
  · rw [← hpoints]
    exact mem_gathered_points.mp ha
  · rw [← hedges]
    exact mem_gathered_prerequisites.mp ha

/-- **Revisions detect every lost update** where no identifier is used again, bundles have new revisions, and
the graph version is above the revisions that a rollback undoes. -/
theorem revisions_advance (hw : ExactWeights P.arithmetic) {as bs : List (Call K F D)}
    {s s' : Tables K F D G} (h : run (step P) Tables.empty as = some s) (h' : run (step P) s bs = some s')
    (hfresh : AllSteps (step P) FreshRevisions Tables.empty (as ++ bs)) (c : K) :
    RevisionsAdvance (s'.contentsOf c) ∧ SingleContents (s'.contentsOf c) ∧
      ∀ read live, requiredContent P s c = .ok read → requiredContent P s' c = .ok live →
        ReadsLive read live := by
  have hc := run_committed Committed.empty h
  have hc' := run_committed hc h'
  obtain ⟨-, -, hadvance⟩ : Committed P s' ∧ (∀ item ∈ s'.knowledgePoints, Weighed P item) ∧
      ∀ c, RevisionsAdvance (s'.contentsOf c) := by
    refine run_invariant_of (I := fun t : Tables K F D G => Committed P t ∧
      (∀ item ∈ t.knowledgePoints, Weighed P item) ∧ ∀ c, RevisionsAdvance (t.contentsOf c))
      (fun t call t' ht hcall hstep => ?_) ⟨Committed.empty, ?_, fun c => ⟨trivial, trivial, trivial⟩⟩
      hfresh (run_append_eq_some.mpr ⟨s, h, h'⟩)
    · obtain ⟨e⟩ := step_eq_some hstep
      exact ⟨ht.1.commit e, e.weighed ht.2.1, RevisionsAdvance.commit hw ht.1 ht.2.1 ht.2.2 e hcall⟩
    · exact fun item hitem => absurd hitem List.not_mem_nil
  have hsingle := (hadvance c).singleContents fun content hcontent => hc'.mem_contents hcontent
  refine ⟨hadvance c, hsingle, fun read live hread hlive => ?_⟩
  obtain ⟨v, hv, hvcourse, hvpoints, hvedges⟩ := hc.loaded_content hread
  obtain ⟨w, hw', hwcourse, hwpoints, hwedges⟩ := hc'.loaded_content hlive
  have hstays : v ∈ s'.contentsOf c := by
    obtain ⟨snapshot, hsnapshot, rfl⟩ := List.mem_map.mp hv
    obtain ⟨hmem, hid⟩ := List.mem_filter.mp hsnapshot
    exact List.mem_map_of_mem (List.mem_filter.mpr ⟨run_snapshots h' snapshot hmem, hid⟩)
  obtain ⟨hcourses, hpoints, hedges⟩ := hsingle w hw' v hstays
  refine ⟨fun hcheck => ?_, fun a ha b hb hid hcheck => ?_, fun a ha b hb hid hcheck => ?_⟩
  · rw [← hvcourse, ← hwcourse]
    refine hcourses ?_
    rw [hvcourse, hwcourse]
    exact (Option.some.inj (checkRevision_ok.mp hcheck)).symm
  · exact hpoints b (hwpoints b hb) a (hvpoints a ha) hid (Option.some.inj (checkRevision_ok.mp hcheck)).symm
  · exact hedges b (hwedges b hb) a (hvedges a ha) hid (Option.some.inj (checkRevision_ok.mp hcheck)).symm

end step

/-! ### A sample -/

section sample

instance {history : List (Content ℕ ℚ ℕ)} : Decidable (SingleContents history) :=
  inferInstanceAs (Decidable (∀ _ ∈ _, _))

instance {read live : Content ℕ ℚ ℕ} : Decidable (ReadsLive read live) := inferInstanceAs (Decidable (_ ∧ _))

/-- Exact numbers. -/
def sampleArithmetic : FloatArithmetic ℚ where
  literal m e := (m : ℚ) / 10 ^ e
  add := (· + ·)
  mul := (· * ·)
  minimum := min
  quotient m n := (m : ℚ) / n
  round6 x := (⌊x * 1000000 + 1 / 2⌋ : ℚ) / 1000000
  ceil x := ⌈x⌉
  equal x y := x = y

theorem sampleArithmetic_exact : ExactWeights sampleArithmetic := fun _ _ _ _ _ _ _ _ h => of_decide_eq_true h

/-- A platform whose JSON columns keep everything, with contents for digests. -/
def samplePlatform : Platform ℕ ℚ ℕ (Content ℕ ℚ ℕ) where
  arithmetic := sampleArithmetic
  canonicalSha256 := id
  bundleSize _ := 1000
  jsonb := id
  jsonbFloat := id
  collate := id
  knowledgePointOrder := RowOrder.stable _
  prerequisiteOrder := RowOrder.stable _

def samplePoint (fields : ℕ) : KnowledgePointDocument ℚ ℕ :=
  ⟨["objective"], 1, 1 / 2, 90, [], fields⟩

/-- A course with a knowledge point. -/
def sampleCreation : List (Call ℕ ℚ ℕ) :=
  [⟨.upsertCourse 1 ⟨"ATC", 0⟩ none, 10, 100⟩, ⟨.upsertKnowledgePoint 1 2 (samplePoint 7) none, 20, 101⟩]

/-- The knowledge point is changed at the revision that it has. -/
def sampleChange : Call ℕ ℚ ℕ := ⟨.upsertKnowledgePoint 1 2 (samplePoint 8) (some 2), 30, 102⟩

/-- The change is rolled back after a freeze. -/
def sampleUpdate : List (Call ℕ ℚ ℕ) :=
  [sampleChange, ⟨.freezeGraph 1, 40, 103⟩, ⟨.rollbackSnapshot 101 50, 50, 104⟩]

/-- The change is rolled back at once, at the graph version that is its revision. -/
def sampleRollback : List (Call ℕ ℚ ℕ) := [sampleChange, ⟨.rollbackSnapshot 101 40, 40, 103⟩]

/-- The knowledge point is deleted and created again with other fields. -/
def sampleRecreation : List (Call ℕ ℚ ℕ) :=
  [⟨.deleteKnowledgePoint 1 2 2, 30, 102⟩, ⟨.upsertKnowledgePoint 1 2 (samplePoint 8) none, 40, 103⟩]

theorem revisions_advance_sample : ∃ s s',
    run (step samplePlatform) Tables.empty sampleCreation = some s ∧
      run (step samplePlatform) s sampleUpdate = some s' ∧
      RevisionsAdvance (s'.contentsOf 1) ∧ SingleContents (s'.contentsOf 1) := by
  obtain ⟨s', h⟩ := Option.isSome_iff_exists.mp (show
    (run (step samplePlatform) Tables.empty (sampleCreation ++ sampleUpdate)).isSome by decide +kernel)
  obtain ⟨s, hs, hs'⟩ := run_append_eq_some.mp h
  have hadvance := revisions_advance sampleArithmetic_exact hs hs' (by decide +kernel) 1
  exact ⟨s, s', hs, hs', hadvance.1, hadvance.2.1⟩

/-- **A knowledge point that is created again starts over**: its revision stands for two contents, and the
check lets a client through that has read the first.  A rollback can reach the revision of what it undoes. -/
theorem recreated_point : ∃ s ∈ run (step samplePlatform) Tables.empty sampleCreation,
    (∃ s' ∈ run (step samplePlatform) s sampleRecreation, ¬ SingleContents (s'.contentsOf 1) ∧
      ∃ read ∈ (requiredContent samplePlatform s 1).toOption,
        ∃ live ∈ (requiredContent samplePlatform s' 1).toOption, ¬ ReadsLive read live) ∧
      ∃ s' ∈ run (step samplePlatform) s sampleRollback, ¬ SingleContents (s'.contentsOf 1) := by
  decide +kernel

end sample

end CyberControl.Topic1
