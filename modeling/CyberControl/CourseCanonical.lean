import CyberControl.CourseFit
import CyberControl.CourseTopology

/-! # Normalised graphs

`_normalize_content` computes the derived fields and puts every list into one order, so a graph that has been
normalised is left as it is, however its lists came back from the database. -/

namespace CyberControl.Topic1

open Collections Scheduling

variable {K F D : Type}

/-! ### Listings of a graph -/

/-- Two contents with the same resources. -/
structure SameGraph (content content' : Content K F D) : Prop where
  course : content'.course = content.course
  knowledgePoints : content'.knowledgePoints.Perm content.knowledgePoints
  prerequisites : content'.prerequisites.Perm content.prerequisites
  misconceptions : content'.misconceptions.Perm content.misconceptions
  textbooks : content'.textbooks.Perm content.textbooks
  textbookSections : content'.textbookSections.Perm content.textbookSections
  textbookMappings : content'.textbookMappings.Perm content.textbookMappings
  goldenQuestions : content'.goldenQuestions.Perm content.goldenQuestions

theorem SameGraph.trans {content₁ content₂ content₃ : Content K F D} (h : SameGraph content₁ content₂)
    (h' : SameGraph content₂ content₃) : SameGraph content₁ content₃ :=
  ⟨h'.course.trans h.course, h'.knowledgePoints.trans h.knowledgePoints,
    h'.prerequisites.trans h.prerequisites, h'.misconceptions.trans h.misconceptions,
    h'.textbooks.trans h.textbooks, h'.textbookSections.trans h.textbookSections,
    h'.textbookMappings.trans h.textbookMappings, h'.goldenQuestions.trans h.goldenQuestions⟩

/-! ### Normalisation -/

variable [LinearOrder K]

theorem analyzeWeights_congr {A : FloatArithmetic F} {nodeIds : Finset K}
    {edges edges' : List (Topology.TopologyEdge K)} {metrics : Metrics K F}
    (hedges : ∀ edge, edge ∈ edges' ↔ edge ∈ edges) (h : analyzeWeights A nodeIds edges = .ok metrics) :
    analyzeWeights A nodeIds edges' = .ok metrics := by
  rw [analyzeWeights_eq] at h ⊢
  cases hrun : analyzeMetrics A nodeIds edges with
  | error error =>
    rw [hrun] at h
    cases h
  | ok found =>
    rw [hrun] at h
    rw [analyzeMetrics_congr hedges hrun]
    exact h

/-- A computed weight compares as equal to itself: it is a number. -/
def ComparableWeights (A : FloatArithmetic F) : Prop :=
  ∀ n d l m, A.equal (topologyWeight A n d l m) (topologyWeight A n d l m) = true

section normalize
variable {A : FloatArithmetic F} {content content' graph : Content K F D} {metrics : Metrics K F} {now : ℤ}

theorem sortBy_sortBy {α κ : Type*} [LinearOrder κ] (key : α → κ) (l : List α) :
    sortBy key (sortBy key l) = sortBy key l :=
  List.Pairwise.insertionSort_eq pairwise_sortBy

theorem derived_normalizePoint {prerequisites prerequisites' : List (Prerequisite K D)}
    (h : prerequisites'.Perm prerequisites) (item : KnowledgePoint K F D) :
    derived A metrics prerequisites' (normalizePoint A metrics prerequisites now item)
      = derived A metrics prerequisites item := by
  unfold derived
  rw [h.countP_eq]
  rfl

theorem analyzed_weight (h : analyzeWeights A (content.knowledgePoints.map (·.kpId)).toFinset
    (topologyEdges content.prerequisites) = .ok metrics) (k : K) :
    ∃ n d l m, metrics.weights k = topologyWeight A n d l m := by
  obtain ⟨found, -, h⟩ := bind_eq_ok.mp h
  obtain ⟨a, -, h⟩ := bind_eq_ok.mp h
  obtain rfl := return_eq_ok.mp h
  exact ⟨_, _, _, _, rfl⟩

theorem normalizePoint_normalizePoint (hA : ComparableWeights A)
    (hanalyzed : analyzeWeights A (content.knowledgePoints.map (·.kpId)).toFinset
      (topologyEdges content.prerequisites) = .ok metrics) {prerequisites : List (Prerequisite K D)}
    (h : prerequisites.Perm content.prerequisites) (now' : ℤ) (item : KnowledgePoint K F D) :
    normalizePoint A metrics prerequisites now' (normalizePoint A metrics content.prerequisites now item)
      = normalizePoint A metrics content.prerequisites now item := by
  apply normalizePoint_eq_self
  · rw [derived_normalizePoint h]
    obtain ⟨n, d, l, m, hweight⟩ := analyzed_weight hanalyzed item.kpId
    have hequal := hA n d l m
    rw [← hweight] at hequal
    simp [Derived.changes, normalizePoint, derived, hequal]
  · rfl

/-- A content that `_normalize_content` leaves as it is. -/
def Canonical (A : FloatArithmetic F) (content : Content K F D) : Prop :=
  ∃ metrics, ∀ now, Normalized A content now metrics content

/-- **What `_normalize_content` returns is left as it is.** -/
theorem Normalized.canonical (hn : Normalized A content now metrics content') (hA : ComparableWeights A) :
    Canonical A content' := by
  have hedges : content'.prerequisites.Perm content.prerequisites := by
    rw [hn.prerequisites]
    exact perm_sortBy
  refine ⟨metrics, fun now' => ?_⟩
  constructor
  case analyzed =>
      have hnodes : (content'.knowledgePoints.map (·.kpId)).toFinset
          = (content.knowledgePoints.map (·.kpId)).toFinset := List.toFinset_eq_of_perm _ _ hn.kpIds_perm
      rw [hnodes]
      refine analyzeWeights_congr (fun edge => ?_) hn.analyzed
      exact (hedges.map _).mem_iff
  case course => rfl
  case knowledgePoints =>
      have hsame : content'.knowledgePoints.map (normalizePoint A metrics content'.prerequisites now')
          = content'.knowledgePoints := by
        rw [map_eq_self_iff]
        intro item hitem
        obtain ⟨before, -, rfl⟩ := hn.mem_knowledgePoints.mp hitem
        exact normalizePoint_normalizePoint hA hn.analyzed hedges now' before
      rw [hsame, hn.knowledgePoints, sortBy_sortBy]
  case prerequisites => rw [hn.prerequisites, sortBy_sortBy]
  case misconceptions => rw [hn.misconceptions, sortBy_sortBy]
  case textbooks => rw [hn.textbooks, sortBy_sortBy]
  case textbookSections => rw [hn.textbookSections, sortBy_sortBy]
  case textbookMappings => rw [hn.textbookMappings, sortBy_sortBy]
  case goldenQuestions => rw [hn.goldenQuestions, sortBy_sortBy]

theorem Canonical.normalizePoint_eq {own : Metrics K F} (hown : Normalized A content now own content)
    (hids : (content.knowledgePoints.map (·.kpId)).Nodup) {item : KnowledgePoint K F D}
    (hitem : item ∈ content.knowledgePoints) : normalizePoint A own content.prerequisites now item = item := by
  obtain ⟨before, hbefore, heq⟩ := hown.mem_knowledgePoints.mp hitem
  have hid : before.kpId = item.kpId := congrArg (·.kpId) heq
  rwa [List.inj_on_of_nodup_map hids hbefore hitem hid] at heq

omit [LinearOrder K] in
theorem sortBy_eq_of_ids {α κ : Type*} [LinearOrder κ] {key : α → κ} {ident : α → K} (ofKey : κ → K)
    (hident : ∀ a, ofKey (key a) = ident a) {l l' : List α} (hperm : l.Perm l') (h : (l.map ident).Nodup) :
    sortBy key l = sortBy key l' := by
  refine sortBy_eq_of_perm hperm (List.Nodup.of_map ofKey ?_)
  rw [List.map_map]
  exact (List.map_congr_left fun a _ => hident a) ▸ h

/-- **Each listing of the graph of a canonical content is normalised to that content.** -/
theorem Canonical.eq_of_sameGraph (hc : Canonical A content) (hrefs : References content)
    (h : SameGraph content graph) (hn : Normalized A graph now metrics content') : content' = content := by
  obtain ⟨own, hown⟩ := hc
  obtain ⟨hanalyzed, -, hpoints, hedges, hmisconceptions, htextbooks, hsections, hmappings, hquestions⟩ :=
    hown now
  have hnodes : (graph.knowledgePoints.map (·.kpId)).toFinset
      = (content.knowledgePoints.map (·.kpId)).toFinset :=
    List.toFinset_eq_of_perm _ _ (h.knowledgePoints.map _)
  obtain rfl : own = metrics := by
    have hgraph := hn.analyzed
    rw [hnodes] at hgraph
    refine Except.ok.inj ((analyzeWeights_congr (fun edge => ?_) hanalyzed).symm.trans hgraph)
    exact (h.prerequisites.map _).mem_iff
  have hderived : graph.knowledgePoints.map (normalizePoint A own graph.prerequisites now)
      = graph.knowledgePoints.map (normalizePoint A own content.prerequisites now) := by
    refine List.map_congr_left fun item _ => ?_
    unfold normalizePoint derived
    rw [h.prerequisites.countP_eq]
  have hperm : (graph.knowledgePoints.map (normalizePoint A own content.prerequisites now)).Perm
      (content.knowledgePoints.map (normalizePoint A own content.prerequisites now)) :=
    h.knowledgePoints.map _
  have hids : ((graph.knowledgePoints.map (normalizePoint A own content.prerequisites now)).map
      (·.kpId)).Nodup := by
    rw [List.map_map]
    exact (h.knowledgePoints.map (·.kpId)).nodup_iff.mpr hrefs.kpIds
  apply Content.ext
  · exact hn.course.trans h.course
  · rw [hn.knowledgePoints, hpoints, hderived]
    exact sortBy_eq_of_ids (fun key => (ofLex key).2) (fun item => rfl) hperm hids
  · rw [hn.prerequisites, hedges]
    exact sortBy_eq_of_ids (fun key => (ofLex (ofLex (ofLex key).2).2).2) (fun item => rfl)
      h.prerequisites ((h.prerequisites.map _).nodup_iff.mpr hrefs.edgeIds)
  · rw [hn.misconceptions, hmisconceptions]
    exact sortBy_eq_of_perm h.misconceptions ((h.misconceptions.map _).nodup_iff.mpr hrefs.misconceptionIds)
  · rw [hn.textbooks, htextbooks]
    exact sortBy_eq_of_perm h.textbooks ((h.textbooks.map _).nodup_iff.mpr hrefs.textbookIds)
  · rw [hn.textbookSections, hsections]
    exact sortBy_eq_of_perm h.textbookSections ((h.textbookSections.map _).nodup_iff.mpr hrefs.sectionIds)
  · rw [hn.textbookMappings, hmappings]
    exact sortBy_eq_of_perm h.textbookMappings ((h.textbookMappings.map _).nodup_iff.mpr hrefs.mappingIds)
  · rw [hn.goldenQuestions, hquestions]
    exact sortBy_eq_of_perm h.goldenQuestions ((h.goldenQuestions.map _).nodup_iff.mpr hrefs.questionIds)

end normalize

end CyberControl.Topic1
