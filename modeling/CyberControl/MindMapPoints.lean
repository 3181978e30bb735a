import CyberControl.MindMap
import Mathlib.Data.Set.Card

/-! # The points of a mind map

The points that `_build_content` (`topic3/agents/mindmap.py`) puts into a mind map, and their order. -/

namespace CyberControl.MindMap

open Topic1 Collections Saturation
open Relation

variable {F D : Type} (context : MindMapContext F D)

/-! ### Around the targets -/

/-- `a` is a prerequisite of `b`. -/
def Requires (edges : List (Prerequisite String D)) (a b : String) : Prop :=
  ∃ edge ∈ edges, edge.prerequisiteKpId = a ∧ edge.dependentKpId = b

/-- A target is reached from the point over prerequisites. -/
def Needed (x : String) : Prop :=
  ∃ target ∈ context.targetKpIds, ReflTransGen (Requires context.graph.prerequisites) x target

/-- The point is needed, or the learner is advanced and it follows a target. -/
def Around (x : String) : Prop :=
  Needed context x ∨ (3 / 4 : ℚ) ≤ context.knowledgeMastery ∧
    ∃ target ∈ context.targetKpIds, Requires context.graph.prerequisites target x

/-- The point is a target or one of the first 256 around the targets. -/
def Kept (x : String) : Prop :=
  Around context x ∧ (x ∈ context.targetKpIds ∨ {y | Around context y ∧ y < x}.ncard < 256)

/-- What the contracts of the graph, of the command and of the personalization, and the planner, accept. -/
structure Accepted (platform : Platform D) : Prop where
  references : References context.graph
  kpIds : ∀ point ∈ context.graph.knowledgePoints, 6 ≤ point.kpId.length ∧ point.kpId.length ≤ 120
  titles : ∀ point ∈ context.graph.knowledgePoints,
    1 ≤ (platform.title point.fields).length ∧ (platform.title point.fields).length ≤ 255
  targets : 1 ≤ context.targetKpIds.length ∧ context.targetKpIds.length ≤ 128
  known : ∀ target ∈ context.targetKpIds, target ∈ context.graph.knowledgePoints.map (·.kpId)
  memories : ∀ memory ∈ context.memoryStates, 0 ≤ memory.retrievability ∧ memory.retrievability ≤ 1
  mastery : 0 ≤ context.knowledgeMastery ∧ context.knowledgeMastery ≤ 1

/-- The kept points by level and identifier. -/
structure Listed (points : List (KnowledgePoint String F D)) : Prop where
  ordered : points.Pairwise fun point other => pointKey point < pointKey other
  mem : ∀ point, point ∈ points ↔ point ∈ context.graph.knowledgePoints ∧ Kept context point.kpId

/-! ### `while changed` -/

variable {x : String}

section loop
variable {edges : List (Prerequisite String D)}

theorem subset_includePrerequisites (edges : List (Prerequisite String D)) (s : Finset String) :
    s ⊆ includePrerequisites edges s := by
  induction edges generalizing s with
  | nil => exact Finset.Subset.refl s
  | cons edge edges ih =>
    refine Finset.Subset.trans ?_ (ih _)
    dsimp only
    split_ifs
    · exact Finset.subset_insert _ _
    · exact Finset.Subset.refl s

variable {s : Finset String}

theorem mem_includePrerequisites {edge : Prerequisite String D} (hedge : edge ∈ edges)
    (hs : edge.dependentKpId ∈ s) : edge.prerequisiteKpId ∈ includePrerequisites edges s := by
  induction edges generalizing s with
  | nil => cases hedge
  | cons first edges ih =>
    unfold includePrerequisites
    rw [List.foldl_cons]
    cases hedge with
    | head =>
      rw [if_pos hs]
      exact subset_includePrerequisites edges _ (Finset.mem_insert_self _ _)
    | tail _ hedge =>
      apply ih hedge
      split_ifs
      · exact Finset.mem_insert_of_mem hs
      · exact hs

theorem includePrerequisites_sound {edges all : List (Prerequisite String D)} (hall : edges ⊆ all)
    (hx : x ∈ includePrerequisites edges s) :
    (∃ y ∈ s, ReflTransGen (Requires all) x y) ∧
      (x ∈ s ∨ x ∈ (all.map (·.prerequisiteKpId)).toFinset) := by
  induction edges generalizing s with
  | nil => exact ⟨⟨x, hx, .refl⟩, .inl hx⟩
  | cons edge edges ih =>
    have hedge : edge ∈ all := hall List.mem_cons_self
    unfold includePrerequisites at hx
    rw [List.foldl_cons] at hx
    obtain ⟨⟨y, hy, hxy⟩, hold⟩ := ih (fun e he => hall (List.mem_cons_of_mem _ he)) hx
    split_ifs at hy hold with hdependent
    · constructor
      · cases Finset.mem_insert.mp hy with
        | inl heq =>
          rw [heq] at hxy
          exact ⟨edge.dependentKpId, hdependent, hxy.tail ⟨edge, hedge, rfl, rfl⟩⟩
        | inr hy => exact ⟨y, hy, hxy⟩
      · cases hold with
        | inl hold =>
          cases Finset.mem_insert.mp hold with
          | inl heq => exact .inr (List.mem_toFinset.mpr (heq ▸ List.mem_map_of_mem hedge))
          | inr hold => exact .inl hold
        | inr hold => exact .inr hold
    · exact ⟨⟨y, hy, hxy⟩, hold⟩

/-- **The loop ends with the points from which one of the first points is reached.** -/
theorem mem_includeAll :
    x ∈ includeAll edges s ↔ ∃ y ∈ s, ReflTransGen (Requires edges) x y := by
  have hfixed : includePrerequisites edges (includeAll edges s) = includeAll edges s := by
    have hs : s ⊆ s ∪ (edges.map (·.prerequisiteKpId)).toFinset := Finset.subset_union_left
    refine saturate_fixed (subset_includePrerequisites edges) ?_ hs ?_
    · intro t ht x hx
      cases (includePrerequisites_sound (List.Subset.refl edges) hx).2 with
      | inl hx => exact ht hx
      | inr hx => exact Finset.mem_union_right _ hx
    · have hcard := List.toFinset_card_le (edges.map (·.prerequisiteKpId))
      have hunion := Finset.card_union_le s (edges.map (·.prerequisiteKpId)).toFinset
      rw [List.length_map] at hcard
      omega
  refine mem_saturate_iff (subset_includePrerequisites edges) ?_ ?_ hfixed
  · exact fun t x hx => (includePrerequisites_sound (List.Subset.refl edges) hx).1
  · rintro t x y ⟨edge, hedge, rfl, rfl⟩ hy
    exact mem_includePrerequisites hedge hy

end loop

/-! ### The points of the map -/

variable {context}

theorem mem_extended : x ∈ extended context ↔ Around context x := by
  unfold extended Around Needed
  have htargets : x ∈ includeAll context.graph.prerequisites context.targetKpIds.toFinset ↔ ∃ target ∈
      context.targetKpIds, ReflTransGen (Requires context.graph.prerequisites) x target := by
    rw [mem_includeAll]
    simp only [List.mem_toFinset]
  dsimp only
  split_ifs with hadvanced
  · rw [Finset.mem_union, htargets]
    refine or_congr_right ?_
    rw [and_iff_right hadvanced, List.mem_toFinset, List.mem_map]
    constructor
    · rintro ⟨edge, hedge, rfl⟩
      obtain ⟨hedge, htarget⟩ := List.mem_filter.mp hedge
      exact ⟨edge.prerequisiteKpId, List.mem_toFinset.mp (of_decide_eq_true htarget), edge, hedge, rfl, rfl⟩
    · rintro ⟨target, htarget, edge, hedge, rfl, rfl⟩
      exact ⟨edge, List.mem_filter.mpr ⟨hedge, decide_eq_true (List.mem_toFinset.mpr htarget)⟩, rfl⟩
  · rw [htargets]
    exact (or_iff_left fun h => hadvanced h.1).symm

theorem needed_of_target (h : x ∈ context.targetKpIds) : Needed context x := ⟨x, h, .refl⟩

/-- **The map consists of the kept points.** -/
theorem mem_included : x ∈ included context ↔ Kept context x := by
  have hrank : {y | Around context y ∧ y < x}.ncard = ((extended context).filter (· < x)).card := by
    rw [← Set.ncard_coe_finset]
    congr 1
    ext y
    rw [Finset.mem_coe, Finset.mem_filter, mem_extended, Set.mem_ofPred_eq]
  unfold included Kept
  rw [hrank, ← mem_extended]
  split_ifs with hmany
  · rw [Finset.mem_union, List.mem_toFinset, List.mem_toFinset, mem_take_sorted]
    constructor
    · rintro (⟨hx, hfew⟩ | htarget)
      · exact ⟨hx, .inr hfew⟩
      · exact ⟨mem_extended.mpr (.inl (needed_of_target htarget)), .inl htarget⟩
    · rintro ⟨hx, htarget | hfew⟩
      · exact .inr htarget
      · exact .inl ⟨hx, hfew⟩
  · refine ⟨fun hx => ⟨hx, .inr ?_⟩, fun h => h.1⟩
    have hless : ((extended context).filter (· < x)).card < (extended context).card := by
      apply Finset.card_lt_card
      refine Finset.filter_ssubset.mpr ⟨x, hx, lt_irrefl x⟩
    omega

theorem kept_of_target (h : x ∈ context.targetKpIds) : Kept context x :=
  ⟨.inl (needed_of_target h), .inl h⟩

theorem known_of_around {platform : Platform D} (h : Accepted context platform)
    (hx : Around context x) : x ∈ context.graph.knowledgePoints.map (·.kpId) := by
  rcases hx with ⟨target, htarget, hreach⟩ | ⟨-, target, -, edge, hedge, -, rfl⟩
  · cases hreach.cases_head with
    | inl heq => exact heq ▸ h.known target htarget
    | inr hstep =>
      obtain ⟨y, ⟨edge, hedge, rfl, -⟩, -⟩ := hstep
      exact (h.references.edgeEnds edge hedge).1
  · exact (h.references.edgeEnds edge hedge).2

theorem pointById_ok {graph : Content String F D} (hids : (graph.knowledgePoints.map (·.kpId)).Nodup)
    {point : KnowledgePoint String F D} (h : point ∈ graph.knowledgePoints) :
    pointById graph point.kpId = .ok point := by
  have hids : (graph.knowledgePoints.reverse.map (·.kpId)).Nodup := by
    rw [List.map_reverse]
    exact List.nodup_reverse.mpr hids
  unfold pointById
  rw [find?_key_eq_some hids (List.mem_reverse.mpr h)]

theorem kpIds_of_forall₂ {ids : List String} {points : List (KnowledgePoint String F D)}
    (h : List.Forall₂ (fun id point => point.kpId = id) ids points) : points.map (·.kpId) = ids := by
  induction h with
  | nil => rfl
  | cons hpoint _ ih => rw [List.map_cons, ih, hpoint]

/-- **The points of the map** are the kept points, each once. -/
theorem orderedPoints_ok {platform : Platform D} (h : Accepted context platform) :
    ∃ points, orderedPoints context = .ok points ∧ Listed context points := by
  have hlookup : ∀ x ∈ sorted (included context), ∃ point, pointById context.graph x = .ok point ∧
      point ∈ context.graph.knowledgePoints ∧ point.kpId = x := by
    intro x hx
    have hkept := mem_included.mp (mem_sorted.mp hx)
    obtain ⟨point, hpoint, rfl⟩ := List.mem_map.mp (known_of_around h hkept.1)
    exact ⟨point, pointById_ok h.references.kpIds hpoint, hpoint, rfl⟩
  obtain ⟨points, hpoints, hforall⟩ := exists_mapM_forall₂ hlookup
  have hids : points.map (·.kpId) = sorted (included context) :=
    kpIds_of_forall₂ (hforall.imp fun _ _ hpoint => hpoint.2.2)
  have hgraph : ∀ point ∈ points, point ∈ context.graph.knowledgePoints := by
    intro point hpoint
    obtain ⟨-, -, -, hgraph, -⟩ := exists_of_mem_right hforall hpoint
    exact hgraph
  have hkeys : (points.map pointKey).Nodup := by
    have hnodup : (points.map (·.kpId)).Nodup := hids ▸ nodup_sorted _
    have hfactor : points.map (·.kpId) = (points.map pointKey).map fun key => (ofLex key).2 := by
      rw [List.map_map]
      rfl
    rw [hfactor] at hnodup
    exact hnodup.of_map _
  refine ⟨Scheduling.sortBy pointKey points, by rw [orderedPoints, hpoints]; rfl, ?_, fun point => ?_⟩
  · exact Scheduling.pairwise_lt_sortBy hkeys
  · rw [Scheduling.mem_sortBy, ← mem_included, ← mem_sorted, ← hids]
    constructor
    · exact fun hpoint => ⟨hgraph point hpoint, List.mem_map_of_mem hpoint⟩
    · rintro ⟨hpoint, hid⟩
      obtain ⟨other, hother, hid⟩ := List.mem_map.mp hid
      have hsame := List.inj_on_of_nodup_map h.references.kpIds (hgraph other hother) hpoint hid
      exact hsame ▸ hother

end CyberControl.MindMap
