import CyberControl.PathGraph
import CyberControl.Worklist
import Mathlib.Algebra.Ring.Nat

/-! # Learning paths

`AdaptivePathPlanner.plan` of `domains/topic2/path_planning.py`: the points that the targets need, in
an order that puts prerequisites first, and the document of what changed since the previous path.
The scores and tiers of the points come from floating-point features of the learner; they are a
parameter (`Scoring`), so that the results hold for every profile, memory and policy. -/

namespace CyberControl.PathPlanning

open Collections CyberControl.Digraph Scheduling CyberControl.Topology
open Relation

/-! ### Requests and paths -/

inductive LearningTier where
  | FOUNDATION
  | REINFORCEMENT
  | EXTENSION
deriving DecidableEq, Repr

/-- `tier.value`. -/
def LearningTier.value : LearningTier → String
  | .FOUNDATION => "FOUNDATION"
  | .REINFORCEMENT => "REINFORCEMENT"
  | .EXTENSION => "EXTENSION"

/-- The learner and the course of a profile, a memory state or a path. -/
structure Scope where
  learnerRef : String
  courseId : String
deriving DecidableEq

/-- An element of the `nodes` of a stored path document.  A field of another type than the planner's
own is absent. -/
structure DocumentNode where
  kpId : Option String
  order : Option ℕ
  tier : Option String

/-- The previous `LearningPathRecord`. -/
structure PathRecord where
  scope : Scope
  nodes : List DocumentNode

/-- The arguments of `plan` outside the snapshot. -/
structure PlanRequest where
  graphCourseId : String
  profile : Scope
  memoryStates : List Scope
  generatedAtAware : Bool
  targetGoal : String
  targetKpIds : Option (List String)
  previousPath : Option PathRecord
  triggerReason : String
  manualOrder : Option (List String)

/-- The total score of a selected point (`_score_components` and the weights) and its tier (`_tier`). -/
structure Scoring where
  total : SanitizedGraph → Option (List String) → Finset String → String → ℚ
  tier : SanitizedGraph → Option (List String) → Finset String → String → LearningTier

structure PathNode where
  order : ℕ
  kpId : String
  title : String
  tier : LearningTier
  priorityScore : ℚ
  prerequisiteKpIds : List String
  estimatedMinutes : ℕ

inductive PathPlanType where
  | INITIAL
  | REPLANNED
  | MANUAL_OVERRIDE

/-- `LearningPathSnapshotDraft` with its path document. -/
structure PathSnapshot where
  planType : PathPlanType
  triggerReason : String
  targetGoal : String
  nodes : List PathNode
  tiers : LearningTier → List String
  repairs : List GraphRepair
  nodeCount : ℕ
  estimatedMinutes : ℕ
  manualOverride : Bool

structure Move where
  kpId : String
  fromOrder : Option ℕ
  toOrder : ℕ
deriving DecidableEq

structure TierChange where
  kpId : String
  fromTier : Option String
  toTier : String
deriving DecidableEq

structure ChangeDocument where
  addedKpIds : List String
  removedKpIds : List String
  moved : List Move
  tierChanges : List TierChange
  repairs : List GraphRepair
deriving DecidableEq

/-- `str` of a list of ids without quotes. -/
def showIds (ids : List String) : String :=
  "[" ++ ", ".intercalate (ids.map fun id => "'" ++ id ++ "'") ++ "]"

/-! ### `_validate_inputs` -/

def validateInputs (request : PlanRequest) : Except Exn Unit :=
  if !request.generatedAtAware then .error (.valueError "generated_at must be timezone-aware")
  else if request.targetGoal = "" ∨ 512 < request.targetGoal.length then
    .error (.valueError "target_goal must contain between one and 512 characters")
  else if request.profile.courseId ≠ request.graphCourseId then
    .error (.valueError "profile and Topic 1 graph belong to different courses")
  else if ∃ path ∈ request.previousPath, path.scope ≠ request.profile then
    .error (.valueError "previous path belongs to another learner or course")
  else if ∃ scope ∈ request.memoryStates, scope ≠ request.profile then
    .error (.valueError "memory state belongs to another learner or course")
  else .ok ()

/-! ### `_select_nodes` -/

/-- `relation_type.value`. -/
def PrerequisiteType.value : PrerequisiteType → String
  | .REQUIRED => "REQUIRED"
  | .RECOMMENDED => "RECOMMENDED"
  | .SUPPORTING => "SUPPORTING"

/-- `set(graph.knowledge_points)`. -/
def SanitizedGraph.pointIds (graph : SanitizedGraph) : Finset String :=
  (graph.knowledgePoints.map (·.kpId)).toFinset

/-- `_incoming_edges(edges, selected).get(kp_id, ())`. -/
def incomingEdges (edges : List Prerequisite) (selected : Finset String) (kpId : String) :
    List Prerequisite :=
  sortBy (fun edge => toLex (edge.relationType.value, edge.edgeId)) (edges.filter fun edge =>
    edge.prerequisiteKpId ∈ selected ∧ edge.dependentKpId ∈ selected ∧ edge.dependentKpId = kpId)

/-- The points that the loop of `_select_nodes` tries to add for `current`. -/
def neededFor (graph : SanitizedGraph) (current : String) : List String :=
  ((incomingEdges graph.prerequisites graph.pointIds current).filter
    fun edge => edge.relationType ≠ .SUPPORTING).map (·.prerequisiteKpId)

def selectNodes (graph : SanitizedGraph) : Option (List String) → Except Exn (Finset String)
  | none => .ok graph.pointIds
  | some targetKpIds =>
    let target := targetKpIds.toFinset
    let unknown := target \ graph.pointIds
    if unknown ≠ ∅ then
      .error (.valueError ("unknown target knowledge points: " ++ showIds (sorted unknown)))
    else
      .ok (Worklist.loop (neededFor graph) graph.pointIds.card ⟨target, sorted target⟩).selected

/-! ### `_ordered_nodes` -/

def tierRank : LearningTier → ℕ
  | .REINFORCEMENT => 0
  | .FOUNDATION => 1
  | .EXTENSION => 2

/-- `key`; `manual_index` is read only when the manual order has no duplicates. -/
def nodeKey (selected : Finset String) (total : String → ℚ) (tier : String → LearningTier)
    (manualOrder : List String) (kpId : String) : ℕ ×ₗ ℕ ×ₗ ℚ ×ₗ String :=
  toLex (if kpId ∈ manualOrder then manualOrder.idxOf kpId else selected.card + 1,
    toLex (tierRank (tier kpId), toLex (-total kpId, kpId)))

def selectedEdges (selected : Finset String) (edges : List Prerequisite) : List Prerequisite :=
  edges.filter fun edge => edge.prerequisiteKpId ∈ selected ∧ edge.dependentKpId ∈ selected

/-- `sorted(outgoing.get(kp_id, ()))`, where parallel edges list a dependent more than once. -/
def outgoing (edges : List Prerequisite) (kpId : String) : List String :=
  sortBy id ((edges.filter fun edge => edge.prerequisiteKpId = kpId).map (·.dependentKpId))

/-- `indegree` before the loop. -/
def indegree (edges : List Prerequisite) (kpId : String) : ℤ :=
  (edges.map (·.dependentKpId)).count kpId

/-- What the loop starts from. -/
def firstReady (selected : Finset String) (edges : List Prerequisite) : Kahn.State String where
  ready := sorted (selected.filter fun kpId => indegree edges kpId = 0)
  order := []
  indegree := indegree edges

/-- The repair that `_ordered_nodes` reports when the manual order could not be followed. -/
def orderingRepairs (selected : Finset String) (ordered : List String) :
    Option (List String) → List GraphRepair
  | none => []
  | some manualOrder =>
    let requested := manualOrder.filter fun kpId => kpId ∈ selected
    if (requested.zip requested.tail).any fun pair => ordered.idxOf pair.2 < ordered.idxOf pair.1 then
      [⟨"MANUAL_ORDER_TOPOLOGY_REPAIRED", none,
        "Prerequisite constraints took precedence over manual ordering."⟩]
    else []

def orderedNodes (selected : Finset String) (edges : List Prerequisite) (total : String → ℚ)
    (tier : String → LearningTier) (manualOrder : Option (List String)) :
    Except Exn (List String × List GraphRepair) :=
  let manual := manualOrder.getD []
  let unknownManual := manual.toFinset \ selected
  if unknownManual ≠ ∅ then
    .error (.valueError ("manual path contains unknown knowledge points: "
      ++ showIds (sorted unknownManual)))
  else if manual.toFinset.card ≠ manual.length then
    .error (.valueError "manual path contains duplicate knowledge points")
  else
    let ordered := (Kahn.loop (outgoing (selectedEdges selected edges))
      (Kahn.popLeast (nodeKey selected total tier manual)) selected.card
      (firstReady selected (selectedEdges selected edges))).order
    if ordered.length ≠ selected.card then
      .error (.runtimeError "sanitized path graph unexpectedly remains cyclic")
    else .ok (ordered, orderingRepairs selected ordered manualOrder)

/-! ### `_change_document` -/

/-- `previous_nodes.get(kp_id)`: the last node of the document under the id. -/
def previousNode (previous : Option PathRecord) (kpId : String) : Option DocumentNode :=
  previous.bind fun path => path.nodes.reverse.find? fun node => node.kpId = some kpId

/-- `set(previous_nodes)`. -/
def previousIds (previous : Option PathRecord) : Finset String :=
  (previous.elim [] fun path => path.nodes.filterMap (·.kpId)).toFinset

/-- `current.get(kp_id)`. -/
def currentNode (nodes : List PathNode) (kpId : String) : Option PathNode :=
  nodes.reverse.find? fun node => node.kpId = kpId

/-- `set(current)`. -/
def currentIds (nodes : List PathNode) : Finset String := (nodes.map (·.kpId)).toFinset

def moveOf (previous : Option PathRecord) (nodes : List PathNode) (kpId : String) : Option Move := do
  let before ← previousNode previous kpId
  let after ← currentNode nodes kpId
  if before.order ≠ some after.order then some ⟨kpId, before.order, after.order⟩ else none

def tierChangeOf (previous : Option PathRecord) (nodes : List PathNode) (kpId : String) :
    Option TierChange := do
  let before ← previousNode previous kpId
  let after ← currentNode nodes kpId
  if before.tier ≠ some after.tier.value then some ⟨kpId, before.tier, after.tier.value⟩ else none

def changeDocument (previous : Option PathRecord) (nodes : List PathNode)
    (repairs : List GraphRepair) : ChangeDocument where
  addedKpIds := sorted (currentIds nodes \ previousIds previous)
  removedKpIds := sorted (previousIds previous \ currentIds nodes)
  moved := (sorted (currentIds nodes ∩ previousIds previous)).filterMap (moveOf previous nodes)
  tierChanges := (sorted (currentIds nodes ∩ previousIds previous)).filterMap
    (tierChangeOf previous nodes)
  repairs := repairs

/-! ### `plan` -/

/-- `graph.knowledge_points[kp_id]`. -/
def SanitizedGraph.point (graph : SanitizedGraph) (kpId : String) : Except Exn KnowledgePoint :=
  match graph.knowledgePoints.reverse.find? fun point => point.kpId = kpId with
  | some point => .ok point
  | none => .error (.other "KeyError")

/-- The node of the path document at a position. -/
def pathNode (graph : SanitizedGraph) (selected : Finset String) (total : String → ℚ)
    (tier : String → LearningTier) (position : String × ℕ) : Except Exn PathNode := do
  let point ← graph.point position.1
  .ok {
    order := position.2
    kpId := position.1
    title := point.title
    tier := tier position.1
    priorityScore := total position.1
    prerequisiteKpIds := (incomingEdges graph.prerequisites selected position.1).map
      (·.prerequisiteKpId)
    estimatedMinutes := point.estimatedMinutes }

def planType (request : PlanRequest) : PathPlanType :=
  if request.manualOrder.isSome then .MANUAL_OVERRIDE
  else if request.previousPath.isNone then .INITIAL
  else .REPLANNED

/-- The checks of `LearningPathSnapshotDraft` that a request can fail. -/
def PathSnapshot.build (path : PathSnapshot) : Except Exn PathSnapshot :=
  if path.triggerReason = "" ∨ 128 < path.triggerReason.length then
    .error (.valueError "trigger_reason must contain between one and 128 characters")
  else if path.targetGoal = "" ∨ 512 < path.targetGoal.length then
    .error (.valueError "target_goal must contain between one and 512 characters")
  else .ok path

def plan (scoring : Scoring) (snapshot : GraphSnapshot) (request : PlanRequest) :
    Except Exn (PathSnapshot × ChangeDocument) := do
  validateInputs request
  let graph ← sanitizeGraph snapshot
  let selected ← selectNodes graph request.targetKpIds
  let total := scoring.total graph request.targetKpIds selected
  let tier := scoring.tier graph request.targetKpIds selected
  let (order, orderRepairs) ←
    orderedNodes selected graph.prerequisites total tier request.manualOrder
  let repairs := graph.repairs ++ orderRepairs
  let nodes ← order.zipIdx.mapM (pathNode graph selected total tier)
  let path ← PathSnapshot.build {
    planType := planType request
    triggerReason := request.triggerReason
    targetGoal := request.targetGoal
    nodes := nodes
    tiers := fun t => (nodes.filter fun node => node.tier = t).map (·.kpId)
    repairs := repairs
    nodeCount := nodes.length
    estimatedMinutes := (nodes.map (·.estimatedMinutes)).sum
    manualOverride := request.manualOrder.isSome }
  .ok (path, changeDocument request.previousPath nodes repairs)

/-! ### The sanitized graph under a plan -/

variable {snapshot : GraphSnapshot}

/-- What a plan relies on: the points are the active ones, the edges join them and are acyclic. -/
theorem sanitizeGraph_ok {graph : SanitizedGraph}
    (h : sanitizeGraph snapshot = .ok graph) :
    graph.pointIds = snapshot.activeIds ∧ Acyclic (Leads graph.prerequisites) ∧
      ∀ edge ∈ graph.prerequisites,
        edge.prerequisiteKpId ∈ graph.pointIds ∧ edge.dependentKpId ∈ graph.pointIds := by
  have hactive : snapshot.active ≠ [] := by
    intro hnone
    rw [sanitizeGraph, if_pos hnone] at h
    cases h
  have hpoints : graph.pointIds = snapshot.activeIds := by
    rw [sanitizeGraph, if_neg hactive] at h
    obtain ⟨⟨metrics, edges, repairs⟩, -, hgraph⟩ := bind_eq_ok.mp h
    cases hgraph
    rfl
  obtain ⟨graph', removed, hok, hacyclic, hends, -⟩ := sanitizeGraph_repairs snapshot hactive
  obtain rfl : graph = graph' := Except.ok.inj (h.symm.trans hok)
  rw [hpoints]
  exact ⟨rfl, hacyclic, fun edge he => (hends edge he).2⟩

/-! ### The selected points -/

/-- `b` is a `REQUIRED` or `RECOMMENDED` prerequisite of `a`. -/
def NeededBy (graph : SanitizedGraph) (a b : String) : Prop :=
  ∃ edge ∈ graph.prerequisites, edge.relationType ≠ .SUPPORTING ∧
    edge.dependentKpId = a ∧ edge.prerequisiteKpId = b

section select
variable {graph : SanitizedGraph}

theorem mem_neededFor (hends : ∀ edge ∈ graph.prerequisites,
      edge.prerequisiteKpId ∈ graph.pointIds ∧ edge.dependentKpId ∈ graph.pointIds) (a b : String) :
    b ∈ neededFor graph a ↔ NeededBy graph a b := by
  simp only [neededFor, incomingEdges, List.mem_map, List.mem_filter, mem_sortBy, decide_eq_true_eq,
    NeededBy]
  constructor
  · rintro ⟨edge, ⟨⟨hedge, -, -, hd⟩, hrelation⟩, hp⟩
    exact ⟨edge, hedge, hrelation, hd, hp⟩
  · rintro ⟨edge, hedge, hrelation, hd, hp⟩
    exact ⟨edge, ⟨⟨hedge, (hends edge hedge).1, (hends edge hedge).2, hd⟩, hrelation⟩, hp⟩

/-- The selected points: all of them, or what the targets need, directly or not. -/
def Wanted (snapshot : GraphSnapshot) (graph : SanitizedGraph) : Option (List String) → String → Prop
  | none, kpId => kpId ∈ snapshot.activeIds
  | some targets, kpId => ∃ target ∈ targets, ReflTransGen (NeededBy graph) target kpId

theorem mem_selectNodes (hpoints : graph.pointIds = snapshot.activeIds)
    (hends : ∀ edge ∈ graph.prerequisites,
      edge.prerequisiteKpId ∈ graph.pointIds ∧ edge.dependentKpId ∈ graph.pointIds)
    {targetKpIds : Option (List String)} {selected : Finset String}
    (h : selectNodes graph targetKpIds = .ok selected) (kpId : String) :
    kpId ∈ selected ↔ Wanted snapshot graph targetKpIds kpId := by
  cases targetKpIds with
  | none =>
    cases h
    rw [Wanted, hpoints]
  | some targets =>
    simp only [selectNodes] at h
    split_ifs at h with hunknown
    cases h
    have hsub : targets.toFinset ⊆ graph.pointIds :=
      Finset.sdiff_eq_empty_iff_subset.mp (not_ne_iff.mp hunknown)
    have hclosed : ∀ a ∈ graph.pointIds, ∀ b ∈ neededFor graph a, b ∈ graph.pointIds := by
      intro a _ b hb
      obtain ⟨edge, hedge, -, -, rfl⟩ := (mem_neededFor hends a b).mp hb
      exact (hends edge hedge).1
    have hlen : (sorted targets.toFinset).length = targets.toFinset.card := length_sorted _
    rw [Worklist.mem_loop_iff hclosed hsub (fun _ => mem_sorted) hlen, Wanted]
    simp only [List.mem_toFinset, mem_neededFor hends]

end select

/-! ### The order -/

section order
variable {selected : Finset String} {edges : List Prerequisite}

theorem mem_outgoing {u v : String} : v ∈ outgoing edges u ↔ Leads edges u v := by
  simp [outgoing, Leads, and_assoc]

theorem edgesInto_outgoing (hedges : ∀ edge ∈ edges, edge.prerequisiteKpId ∈ selected) (v : String) :
    Kahn.edgesInto (outgoing edges) selected v = (edges.map (·.dependentKpId)).count v := by
  have hcount : ∀ u, (outgoing edges u).count v
      = ((edges.filter fun edge => edge.prerequisiteKpId = u).map (·.dependentKpId)).count v :=
    fun u => perm_sortBy.count_eq v
  simp only [Kahn.edgesInto, hcount]
  clear hcount
  induction edges with
  | nil => simp
  | cons edge edges ih =>
    have hsplit : ∀ u, (((edge :: edges).filter fun edge => edge.prerequisiteKpId = u).map
          (·.dependentKpId)).count v
        = (if edge.prerequisiteKpId = u then (if edge.dependentKpId = v then 1 else 0) else 0)
          + ((edges.filter fun edge => edge.prerequisiteKpId = u).map (·.dependentKpId)).count v := by
      intro u
      by_cases hu : edge.prerequisiteKpId = u
      · simp [hu, List.count_cons, Nat.add_comm]
      · simp [hu]
    simp only [hsplit, Finset.sum_add_distrib, ih fun e he => hedges e (by simp [he]),
      Finset.sum_ite_eq, hedges edge (by simp), if_true, List.map_cons, List.count_cons, beq_iff_eq]
    omega

theorem mem_selectedEdges {edge : Prerequisite} : edge ∈ selectedEdges selected edges ↔
    edge ∈ edges ∧ edge.prerequisiteKpId ∈ selected ∧ edge.dependentKpId ∈ selected := by
  simp [selectedEdges]

theorem inv_firstReady : Kahn.Inv (outgoing (selectedEdges selected edges)) selected
    (firstReady selected (selectedEdges selected edges)) where
  nodup := by simpa [firstReady] using nodup_sorted _
  mem v := by simp [firstReady]
  indegree v := by
    have hedges : ∀ edge ∈ selectedEdges selected edges, edge.prerequisiteKpId ∈ selected :=
      fun edge he => (mem_selectedEdges.mp he).2.1
    simp only [firstReady, List.toFinset_nil, Finset.sdiff_empty]
    rw [edgesInto_outgoing hedges]
    rfl
  idxOf_lt := by simp [firstReady]

theorem selectedEdges_closed : ∀ u ∈ selected, ∀ v ∈ outgoing (selectedEdges selected edges) u, v ∈ selected := by
  intro u _ v hv
  obtain ⟨edge, hedge, -, rfl⟩ := mem_outgoing.mp hv
  exact (mem_selectedEdges.mp hedge).2.2

theorem inv_ordered (key : String → ℕ ×ₗ ℕ ×ₗ ℚ ×ₗ String) :
    Kahn.Inv (outgoing (selectedEdges selected edges)) selected
        (Kahn.loop (outgoing (selectedEdges selected edges)) (Kahn.popLeast key) selected.card
          (firstReady selected (selectedEdges selected edges))) ∧
      (Kahn.loop (outgoing (selectedEdges selected edges)) (Kahn.popLeast key) selected.card
          (firstReady selected (selectedEdges selected edges))).ready = [] := by
  exact inv_firstReady.loop_spec (Kahn.pops_popLeast key) selectedEdges_closed _ (by simp [firstReady])

variable {total : String → ℚ} {tier : String → LearningTier} {manualOrder : Option (List String)}

/-- **The order lists the selected points once each, and every edge leads forward.** -/
theorem orderedNodes_ok {ordered : List String} {repairs : List GraphRepair}
    (h : orderedNodes selected edges total tier manualOrder = .ok (ordered, repairs)) :
    ordered.Nodup ∧ (∀ v, v ∈ ordered ↔ v ∈ selected) ∧
      ∀ edge ∈ edges, edge.prerequisiteKpId ∈ selected → edge.dependentKpId ∈ selected →
        ordered.idxOf edge.prerequisiteKpId < ordered.idxOf edge.dependentKpId := by
  simp only [orderedNodes] at h
  split_ifs at h with hunknown hduplicate hlen
  cases h
  obtain ⟨hinv, -⟩ := @inv_ordered selected edges
    (nodeKey selected total tier (manualOrder.getD []))
  have hall := hinv.length_order_eq_iff.mp (not_ne_iff.mp hlen)
  refine ⟨hinv.nodup_order, fun v => ⟨fun hv => hinv.mem_nodes (by simp [hv]), hall v⟩, ?_⟩
  intro edge hedge hp hd
  exact hinv.idxOf_lt _ hp _ (hall _ hd)
    (mem_outgoing.mpr ⟨edge, mem_selectedEdges.mpr ⟨hedge, hp, hd⟩, rfl, rfl⟩)

/-- On acyclic edges the order is refused only for an unusable manual order. -/
theorem orderedNodes_total (hacyclic : Acyclic (Leads edges))
    (hknown : ∀ v ∈ manualOrder.getD [], v ∈ selected) (hnodup : (manualOrder.getD []).Nodup) :
    ∃ result, orderedNodes selected edges total tier manualOrder = .ok result := by
  have hsub : (manualOrder.getD []).toFinset ⊆ selected := fun v hv =>
    hknown v (List.mem_toFinset.mp hv)
  obtain ⟨hinv, hready⟩ := @inv_ordered selected edges
    (nodeKey selected total tier (manualOrder.getD []))
  have hlen := hinv.length_order_eq_iff.mpr fun v hv =>
    hinv.mem_order_of_acyclic hready (hacyclic.mono fun a b hab => by
      obtain ⟨edge, hedge, hends⟩ := mem_outgoing.mp hab.2
      exact ⟨edge, (mem_selectedEdges.mp hedge).1, hends⟩) hv
  simp only [orderedNodes]
  rw [if_neg (not_ne_iff.mpr (Finset.sdiff_eq_empty_iff_subset.mpr hsub)),
    if_neg (not_ne_iff.mpr (List.toFinset_card_of_nodup hnodup)), if_neg (not_ne_iff.mpr hlen)]
  exact ⟨_, rfl⟩

end order

/-! ### The nodes of the path -/

variable {node : PathNode}

section nodes
variable {graph : SanitizedGraph} {selected : Finset String} {total : String → ℚ}
  {tier : String → LearningTier} {order : List String} {nodes : List PathNode}

theorem pathNode_ok {position : String × ℕ}
    (h : pathNode graph selected total tier position = .ok node) :
    (node.kpId, node.order) = position ∧ node.tier = tier node.kpId := by
  obtain ⟨point, -, hnode⟩ := bind_eq_ok.mp h
  cases hnode
  exact ⟨rfl, rfl⟩

theorem nodes_positions {positions : List (String × ℕ)}
    (h : positions.mapM (pathNode graph selected total tier) = .ok nodes) :
    nodes.map (fun node => (node.kpId, node.order)) = positions ∧
      ∀ node ∈ nodes, node.tier = tier node.kpId := by
  have hall := mapM_eq_ok.mp h
  clear h
  induction hall with
  | nil => exact ⟨rfl, by simp⟩
  | cons hnode _ ih =>
    obtain ⟨hposition, htier⟩ := pathNode_ok hnode
    refine ⟨by rw [List.map_cons, hposition, ih.1], fun node hmem => ?_⟩
    rcases List.mem_cons.mp hmem with rfl | hmem
    · exact htier
    · exact ih.2 node hmem

section
variable (h : nodes.map (fun node => (node.kpId, node.order)) = order.zipIdx)
include h

theorem nodes_kpId :
    nodes.map (·.kpId) = order := by
  have hfst := congrArg (List.map Prod.fst) h
  simpa [List.map_map, Function.comp_def] using hfst

theorem nodes_order :
    nodes.map (·.order) = List.range nodes.length := by
  have hlen : nodes.length = order.length := by simpa using congrArg List.length h
  have hsnd := congrArg (List.map Prod.snd) h
  rw [hlen, List.range_eq_range']
  simpa [List.map_map, Function.comp_def] using hsnd

theorem order_eq_idxOf (hnodup : order.Nodup) (hnode : node ∈ nodes) :
    node.order = order.idxOf node.kpId := by
  have hmem : (node.kpId, node.order) ∈ order.zipIdx := h ▸ List.mem_map_of_mem hnode
  obtain ⟨hlt, hget⟩ := List.getElem?_eq_some_iff.mp (List.mk_mem_zipIdx_iff_getElem?.mp hmem)
  rw [← hget, hnodup.idxOf_getElem]

end

end nodes

/-! ### The change document -/

/-- The order of a point after the change, for a point that had `before`. -/
def ChangeDocument.orderAfter (change : ChangeDocument) (kpId : String) (before : Option ℕ) :
    Option ℕ :=
  ((change.moved.find? fun move => move.kpId = kpId).map (·.toOrder)).or before

/-- The tier of a point after the change, for a point that had `before`. -/
def ChangeDocument.tierAfter (change : ChangeDocument) (kpId : String) (before : Option String) :
    Option String :=
  ((change.tierChanges.find? fun tierChange => tierChange.kpId = kpId).map (·.toTier)).or before

/-- What a change document says, without the orders and tiers of the points it adds. -/
structure ChangeDocument.Describes (change : ChangeDocument) (previous : Option PathRecord)
    (nodes : List PathNode) : Prop where
  removed_subset : ∀ kpId ∈ change.removedKpIds, kpId ∈ previousIds previous
  added_new : ∀ kpId ∈ change.addedKpIds, kpId ∉ previousIds previous
  nodeSet : ∀ kpId, kpId ∈ currentIds nodes ↔
    (kpId ∈ previousIds previous ∧ kpId ∉ change.removedKpIds) ∨ kpId ∈ change.addedKpIds
  order : ∀ node ∈ nodes, ∀ before, previousNode previous node.kpId = some before →
    change.orderAfter node.kpId before.order = some node.order
  tier : ∀ node ∈ nodes, ∀ before, previousNode previous node.kpId = some before →
    change.tierAfter node.kpId before.tier = some node.tier.value
  moved : ∀ move ∈ change.moved, ∃ before, previousNode previous move.kpId = some before ∧
    move.fromOrder = before.order ∧ move.fromOrder ≠ some move.toOrder
  tierChanged : ∀ tierChange ∈ change.tierChanges, ∃ before,
    previousNode previous tierChange.kpId = some before ∧
      tierChange.fromTier = before.tier ∧ tierChange.fromTier ≠ some tierChange.toTier

section change
variable {previous : Option PathRecord} {nodes : List PathNode} {kpId : String}

theorem previousNode_isSome {before : DocumentNode}
    (h : previousNode previous kpId = some before) : kpId ∈ previousIds previous := by
  obtain ⟨path, rfl, hfind⟩ := Option.bind_eq_some_iff.mp h
  have hmem := List.mem_of_find?_eq_some hfind
  have hkp := List.find?_some hfind
  simp only [previousIds, Option.elim_some, List.mem_toFinset, List.mem_filterMap]
  exact ⟨before, List.mem_reverse.mp hmem, by simpa using hkp⟩

theorem currentNode_eq (hnodup : (nodes.map (·.kpId)).Nodup) (hnode : node ∈ nodes) :
    currentNode nodes node.kpId = some node := by
  have hrev : (nodes.reverse.map (·.kpId)).Nodup := by
    rw [List.map_reverse]
    exact List.nodup_reverse.mpr hnodup
  exact find?_key_eq_some hrev (List.mem_reverse.mpr hnode)

theorem moveOf_kpId {move : Move} (h : moveOf previous nodes kpId = some move) :
    move.kpId = kpId ∧ ∃ before, previousNode previous kpId = some before ∧
      move.fromOrder = before.order ∧ move.fromOrder ≠ some move.toOrder := by
  obtain ⟨before, hbefore, h⟩ := Option.bind_eq_some_iff.mp h
  obtain ⟨after, -, h⟩ := Option.bind_eq_some_iff.mp h
  split_ifs at h with hne
  cases h
  exact ⟨rfl, before, hbefore, rfl, hne⟩

theorem tierChangeOf_kpId {tierChange : TierChange}
    (h : tierChangeOf previous nodes kpId = some tierChange) :
    tierChange.kpId = kpId ∧ ∃ before, previousNode previous kpId = some before ∧
      tierChange.fromTier = before.tier ∧ tierChange.fromTier ≠ some tierChange.toTier := by
  obtain ⟨before, hbefore, h⟩ := Option.bind_eq_some_iff.mp h
  obtain ⟨after, -, h⟩ := Option.bind_eq_some_iff.mp h
  split_ifs at h with hne
  cases h
  exact ⟨rfl, before, hbefore, rfl, hne⟩

theorem mem_common {before : DocumentNode} (hnode : node ∈ nodes)
    (hbefore : previousNode previous node.kpId = some before) :
    node.kpId ∈ sorted (currentIds nodes ∩ previousIds previous) := by
  rw [mem_sorted, Finset.mem_inter]
  exact ⟨List.mem_toFinset.mpr (List.mem_map_of_mem hnode), previousNode_isSome hbefore⟩

theorem changeDocument_describes (hnodup : (nodes.map (·.kpId)).Nodup) (repairs : List GraphRepair) :
    (changeDocument previous nodes repairs).Describes previous nodes where
  removed_subset kpId h := by
    simp only [changeDocument, mem_sorted, Finset.mem_sdiff] at h
    exact h.1
  added_new kpId h := by
    simp only [changeDocument, mem_sorted, Finset.mem_sdiff] at h
    exact h.2
  nodeSet kpId := by
    simp only [changeDocument, mem_sorted, Finset.mem_sdiff]
    tauto
  order node hnode before hbefore := by
    rw [ChangeDocument.orderAfter, changeDocument,
      find?_filterMap_key (fun k move h => (moveOf_kpId h).1), if_pos (mem_common hnode hbefore)]
    by_cases hne : before.order = some node.order
    · simp [moveOf, hbefore, currentNode_eq hnodup hnode, hne]
    · simp [moveOf, hbefore, currentNode_eq hnodup hnode, hne]
  tier node hnode before hbefore := by
    rw [ChangeDocument.tierAfter, changeDocument,
      find?_filterMap_key (fun k tierChange h => (tierChangeOf_kpId h).1), if_pos (mem_common hnode hbefore)]
    by_cases hne : before.tier = some node.tier.value
    · simp [tierChangeOf, hbefore, currentNode_eq hnodup hnode, hne]
    · simp [tierChangeOf, hbefore, currentNode_eq hnodup hnode, hne]
  moved move h := by
    obtain ⟨kpId, -, hmove⟩ := List.mem_filterMap.mp h
    obtain ⟨rfl, hbefore⟩ := moveOf_kpId hmove
    exact hbefore
  tierChanged tierChange h := by
    obtain ⟨kpId, -, hchange⟩ := List.mem_filterMap.mp h
    obtain ⟨rfl, hbefore⟩ := tierChangeOf_kpId hchange
    exact hbefore

end change

/-! ### Plans -/

theorem plan_eq_ok {scoring : Scoring} {request : PlanRequest}
    {path : PathSnapshot} {change : ChangeDocument}
    (h : plan scoring snapshot request = .ok (path, change)) :
    ∃ graph selected total tier order orderRepairs, sanitizeGraph snapshot = .ok graph ∧
      selectNodes graph request.targetKpIds = .ok selected ∧
      orderedNodes selected graph.prerequisites total tier request.manualOrder
        = .ok (order, orderRepairs) ∧
      order.zipIdx.mapM (pathNode graph selected total tier) = .ok path.nodes ∧
      (∀ t, path.tiers t = (path.nodes.filter fun node => node.tier = t).map (·.kpId)) ∧
      change = changeDocument request.previousPath path.nodes (graph.repairs ++ orderRepairs) := by
  obtain ⟨_, -, h⟩ := bind_eq_ok.mp h
  obtain ⟨graph, hgraph, h⟩ := bind_eq_ok.mp h
  obtain ⟨selected, hselected, h⟩ := bind_eq_ok.mp h
  obtain ⟨⟨order, orderRepairs⟩, horder, h⟩ := bind_eq_ok.mp h
  obtain ⟨nodes, hnodes, h⟩ := bind_eq_ok.mp h
  obtain ⟨built, hbuilt, h⟩ := bind_eq_ok.mp h
  cases h
  refine ⟨graph, selected, _, _, order, orderRepairs, hgraph, hselected, horder, ?_⟩
  simp only [PathSnapshot.build] at hbuilt
  split_ifs at hbuilt
  cases hbuilt
  exact ⟨hnodes, fun _ => rfl, rfl⟩

/-- **A generated path is closed and ordered.**  Its nodes are the targets and what they need, each
once and numbered from 0; every edge between two of them leads forward; each node is in the list of
its tier and no other; and the change document gives the node set of the path from the previous one,
and the order and the tier of each node that the previous path had. -/
theorem plan_closed_ordered (scoring : Scoring) (snapshot : GraphSnapshot) (request : PlanRequest)
    (path : PathSnapshot) (change : ChangeDocument)
    (h : plan scoring snapshot request = .ok (path, change)) :
    ∃ graph, sanitizeGraph snapshot = .ok graph ∧
      (∀ kpId, kpId ∈ path.nodes.map (·.kpId) ↔ Wanted snapshot graph request.targetKpIds kpId) ∧
      (path.nodes.map (·.kpId)).Nodup ∧
      path.nodes.map (·.order) = List.range path.nodes.length ∧
      (∀ edge ∈ graph.prerequisites, ∀ a ∈ path.nodes, ∀ b ∈ path.nodes,
        a.kpId = edge.prerequisiteKpId → b.kpId = edge.dependentKpId → a.order < b.order) ∧
      (∀ node ∈ path.nodes, ∀ tier, node.kpId ∈ path.tiers tier ↔ node.tier = tier) ∧
      (∀ tier, (path.tiers tier).Nodup ∧ path.tiers tier ⊆ path.nodes.map (·.kpId)) ∧
      change.Describes request.previousPath path.nodes := by
  obtain ⟨graph, selected, total, tier, order, orderRepairs, hgraph, hselected, horder, hnodes,
    htiers, rfl⟩ := plan_eq_ok h
  obtain ⟨hpoints, -, hends⟩ := sanitizeGraph_ok hgraph
  obtain ⟨hnodup, hmem, hforward⟩ := orderedNodes_ok horder
  obtain ⟨hpositions, -⟩ := nodes_positions hnodes
  have hkp : path.nodes.map (·.kpId) = order := nodes_kpId hpositions
  have hkpNodup : (path.nodes.map (·.kpId)).Nodup := hkp ▸ hnodup
  refine ⟨graph, hgraph, ?_, hkpNodup, nodes_order hpositions, ?_, ?_, ?_,
    changeDocument_describes hkpNodup _⟩
  · intro kpId
    rw [hkp, hmem, mem_selectNodes hpoints hends hselected]
  · intro edge hedge a ha b hb hap hbd
    have haSelected : a.kpId ∈ selected := (hmem _).mp (hkp ▸ List.mem_map_of_mem ha)
    have hbSelected : b.kpId ∈ selected := (hmem _).mp (hkp ▸ List.mem_map_of_mem hb)
    rw [order_eq_idxOf hpositions hnodup ha, order_eq_idxOf hpositions hnodup hb, hap, hbd]
    exact hforward edge hedge (hap ▸ haSelected) (hbd ▸ hbSelected)
  · intro node hnode t
    rw [htiers, List.mem_map]
    constructor
    · rintro ⟨other, hother, hkpEq⟩
      obtain ⟨hotherMem, hotherTier⟩ := List.mem_filter.mp hother
      obtain rfl : other = node := List.inj_on_of_nodup_map hkpNodup hotherMem hnode hkpEq
      exact of_decide_eq_true hotherTier
    · intro htier
      exact ⟨node, List.mem_filter.mpr ⟨hnode, decide_eq_true htier⟩, rfl⟩
  · intro t
    rw [htiers]
    have hsub : ((path.nodes.filter fun node => node.tier = t).map (·.kpId)).Sublist
        (path.nodes.map (·.kpId)) := List.filter_sublist.map _
    exact ⟨hkpNodup.sublist hsub, hsub.subset⟩

/-! ### Plans of two points -/

def flatScoring : Scoring := ⟨fun _ _ _ _ => 0, fun _ _ _ _ => .FOUNDATION⟩

def manualRequest (previousPath : Option PathRecord) (manualOrder : List String) : PlanRequest where
  graphCourseId := "COURSE"
  profile := ⟨"learner", "COURSE"⟩
  memoryStates := []
  generatedAtAware := true
  targetGoal := "algebra"
  targetKpIds := none
  previousPath := previousPath
  triggerReason := "MANUAL_ORDER"
  manualOrder := some manualOrder

/-- What a plan shows of the order of its points, and its change document. -/
def outcome (snapshot : GraphSnapshot) (previousPath : Option PathRecord) (manualOrder : List String) :
    Option (List (String × ℕ) × ChangeDocument) :=
  (plan flatScoring snapshot (manualRequest previousPath manualOrder)).toOption.map fun result =>
    (result.1.nodes.map fun node => (node.kpId, node.order), result.2)

theorem plan_of_outcome {previousPath : Option PathRecord} {manualOrder : List String}
    {positions : List (String × ℕ)} {change : ChangeDocument}
    (h : outcome snapshot previousPath manualOrder = some (positions, change)) :
    ∃ path, plan flatScoring snapshot (manualRequest previousPath manualOrder) = .ok (path, change) ∧
      path.nodes.map (fun node => (node.kpId, node.order)) = positions := by
  obtain ⟨⟨path, change'⟩, hplan, hresult⟩ := Option.map_eq_some_iff.mp h
  obtain ⟨rfl, rfl⟩ := Prod.mk.inj hresult
  exact ⟨path, eq_ok_of_toOption hplan, rfl⟩

/-- A path of the products and of a point that is not in the graph. -/
def earlierPath : PathRecord where
  scope := ⟨"learner", "COURSE"⟩
  nodes := [⟨some "KP_product", some 0, some "EXTENSION"⟩, ⟨some "KP_limit", some 1, some "EXTENSION"⟩]

theorem plan_closed_ordered_mutual : ∃ path change,
    plan flatScoring mutualSnapshot (manualRequest (some earlierPath) ["KP_product", "KP_sum"])
      = .ok (path, change) ∧
      path.nodes.map (fun node => (node.kpId, node.order)) = [("KP_sum", 0), ("KP_product", 1)] ∧
      (change.addedKpIds, change.removedKpIds, change.moved) =
        (["KP_sum"], ["KP_limit"], [⟨"KP_product", some 0, 1⟩]) ∧
      change.Describes (some earlierPath) path.nodes := by
  have hrun : (outcome mutualSnapshot (some earlierPath) ["KP_product", "KP_sum"]).map (fun result =>
      (result.1, result.2.addedKpIds, result.2.removedKpIds, result.2.moved)) =
      some ([("KP_sum", 0), ("KP_product", 1)], ["KP_sum"], ["KP_limit"], [⟨"KP_product", some 0, 1⟩]) := by
    decide +kernel
  obtain ⟨⟨positions, change⟩, houtcome, hvalues⟩ := Option.map_eq_some_iff.mp hrun
  obtain ⟨rfl, hchange⟩ := Prod.mk.inj hvalues
  obtain ⟨path, hplan, hpositions⟩ := plan_of_outcome houtcome
  obtain ⟨graph, -, -, -, -, -, -, -, hdescribes⟩ := plan_closed_ordered _ _ _ _ _ hplan
  exact ⟨path, change, hplan, hpositions, hchange, hdescribes⟩

def independentSnapshot : GraphSnapshot where
  knowledgePoints := [⟨"KP_sum", "Sums", 20, .ACTIVE⟩, ⟨"KP_product", "Products", 30, .ACTIVE⟩]
  prerequisites := []

/-- A change document lists the added points without their orders: two plans of the same points in
either order, both without a previous path, have the same one. -/
theorem change_leaves_added_orders :
    ¬ ∃ orderAfter : Option PathRecord → ChangeDocument → String → Option ℕ, ∀ scoring snapshot
      request path change, plan scoring snapshot request = .ok (path, change) →
      ∀ node ∈ path.nodes, orderAfter request.previousPath change node.kpId = some node.order := by
  rintro ⟨orderAfter, h⟩
  have hsum : outcome independentSnapshot none ["KP_sum", "KP_product"] = some
      ([("KP_sum", 0), ("KP_product", 1)], ⟨["KP_product", "KP_sum"], [], [], [], []⟩) := by decide
  have hproduct : outcome independentSnapshot none ["KP_product", "KP_sum"] = some
      ([("KP_product", 0), ("KP_sum", 1)], ⟨["KP_product", "KP_sum"], [], [], [], []⟩) := by decide
  have horder : ∀ manualOrder positions kpId order,
      outcome independentSnapshot none manualOrder
        = some (positions, ⟨["KP_product", "KP_sum"], [], [], [], []⟩) →
      (kpId, order) ∈ positions →
        orderAfter none ⟨["KP_product", "KP_sum"], [], [], [], []⟩ kpId = some order := by
    intro manualOrder positions kpId order houtcome hmem
    obtain ⟨path, hplan, rfl⟩ := plan_of_outcome houtcome
    obtain ⟨node, hnode, heq⟩ := List.mem_map.mp hmem
    obtain ⟨rfl, rfl⟩ := Prod.mk.inj heq
    exact h _ _ _ _ _ hplan node hnode
  have hfirst := horder _ _ "KP_sum" 0 hsum (by simp)
  have hsecond := horder _ _ "KP_sum" 1 hproduct (by simp)
  rw [hfirst] at hsecond
  simp at hsecond

end CyberControl.PathPlanning
