import CyberControl.Errors
import CyberControl.Topology
import Mathlib.Algebra.Order.Ring.Rat
import Mathlib.Data.Prod.Lex
import Mathlib.Data.String.Basic

/-! # The graph a learning path is planned on

`sanitize_graph` of `domains/topic2/path_planning.py`: the edges of a Topic 1 snapshot between active
knowledge points, after a repair that removes one edge of a cycle at a time until none is left. -/

namespace CyberControl.PathPlanning

open Collections CyberControl.Digraph Scheduling CyberControl.Topology
open Relation

/-! ### Snapshots -/

inductive KnowledgePointStatus where
  | DRAFT
  | ACTIVE
  | DEPRECATED
deriving DecidableEq, Repr

inductive PrerequisiteType where
  | REQUIRED
  | RECOMMENDED
  | SUPPORTING
deriving DecidableEq, Repr

/-- `Topic1KnowledgePointV1`, restricted to what the planner reads outside its scores. -/
structure KnowledgePoint where
  kpId : String
  title : String
  estimatedMinutes : ℕ
  status : KnowledgePointStatus

/-- `Topic1PrerequisiteV1`. -/
structure Prerequisite where
  edgeId : String
  prerequisiteKpId : String
  dependentKpId : String
  relationType : PrerequisiteType
  strength : ℚ
deriving DecidableEq

/-- `Topic1GraphSnapshotV1`. -/
structure GraphSnapshot where
  knowledgePoints : List KnowledgePoint
  prerequisites : List Prerequisite

structure GraphRepair where
  code : String
  edgeId : Option String
  detail : String
deriving DecidableEq

/-- `SanitizedGraph` without the topology weights. -/
structure SanitizedGraph where
  knowledgePoints : List KnowledgePoint
  prerequisites : List Prerequisite
  levels : String → ℕ
  repairs : List GraphRepair

/-! ### `sanitize_graph` -/

/-- The values of `active`. -/
def GraphSnapshot.active (snapshot : GraphSnapshot) : List KnowledgePoint :=
  snapshot.knowledgePoints.filter fun point => point.status = .ACTIVE

/-- `set(active)`. -/
def GraphSnapshot.activeIds (snapshot : GraphSnapshot) : Finset String :=
  (snapshot.active.map (·.kpId)).toFinset

/-- Why the first loop leaves an edge out, if it does. -/
def edgeRepair (active : Finset String) (edge : Prerequisite) : Option GraphRepair :=
  if edge.prerequisiteKpId = edge.dependentKpId then
    some ⟨"SELF_EDGE_REMOVED", some edge.edgeId, edge.prerequisiteKpId⟩
  else
    let missing := ({edge.prerequisiteKpId, edge.dependentKpId} : Finset String) \ active
    if missing ≠ ∅ then
      some ⟨"UNKNOWN_ENDPOINT_REMOVED", some edge.edgeId, ",".intercalate (sorted missing)⟩
    else none

/-- `sorted(snapshot.content.prerequisites, key=lambda item: item.edge_id)`. -/
def GraphSnapshot.sortedEdges (snapshot : GraphSnapshot) : List Prerequisite :=
  sortBy (·.edgeId) snapshot.prerequisites

/-- `edges` after the first loop. -/
def GraphSnapshot.edges (snapshot : GraphSnapshot) : List Prerequisite :=
  snapshot.sortedEdges.filter fun edge => edgeRepair snapshot.activeIds edge = none

/-- `repairs` after the first loop. -/
def GraphSnapshot.edgeRepairs (snapshot : GraphSnapshot) : List GraphRepair :=
  snapshot.sortedEdges.filterMap (edgeRepair snapshot.activeIds)

def relationRank : PrerequisiteType → ℕ
  | .SUPPORTING => 0
  | .RECOMMENDED => 1
  | .REQUIRED => 2

/-- `_edge_removal_key`; the tuples are compared lexicographically. -/
def edgeRemovalKey (edge : Prerequisite) : ℕ ×ₗ ℚ ×ₗ String :=
  toLex (relationRank edge.relationType, toLex (edge.strength, edge.edgeId))

/-- `TopologyEdge(edge.prerequisite_kp_id, edge.dependent_kp_id)`. -/
def Prerequisite.topologyEdge (edge : Prerequisite) : TopologyEdge String :=
  ⟨edge.prerequisiteKpId, edge.dependentKpId⟩

def cycleEdgeRemoved (removed : Prerequisite) : GraphRepair :=
  ⟨"CYCLE_EDGE_REMOVED", some removed.edgeId,
    removed.prerequisiteKpId ++ "->" ++ removed.dependentKpId⟩

/-- The edges with both ends on the cycle. -/
def removalCandidates (edges : List Prerequisite) (cycle : List String) : List Prerequisite :=
  edges.filter fun edge => edge.prerequisiteKpId ∈ cycle ∧ edge.dependentKpId ∈ cycle

/-- `while True`, at most `fuel` times. -/
def repairLoop (active : Finset String) : ℕ → List Prerequisite → List GraphRepair →
    Except Exn (TopologyMetrics String × List Prerequisite × List GraphRepair)
  | 0, _, _ => .error (.other "out of fuel")
  | fuel + 1, edges, repairs =>
    match analyzeTopology active (edges.map (·.topologyEdge)) with
    | .ok metrics => .ok (metrics, edges, repairs)
    | .error (.topologyCycleError cycle) =>
      match (removalCandidates edges cycle).argmin edgeRemovalKey with
      | none => .error (.runtimeError "cycle repair could not identify a removable edge")
      | some removed =>
        repairLoop active fuel (edges.erase removed) (repairs ++ [cycleEdgeRemoved removed])
    | .error (.valueError text) => .error (.valueError text)
    | .error .outOfFuel => .error (.other "out of fuel")

def sanitizeGraph (snapshot : GraphSnapshot) : Except Exn SanitizedGraph :=
  if snapshot.active = [] then
    .error (.valueError "Topic 1 graph has no active knowledge points")
  else do
    let (metrics, edges, repairs) ←
      repairLoop snapshot.activeIds (snapshot.edges.length + 1) snapshot.edges snapshot.edgeRepairs
    .ok ⟨snapshot.active, edges, metrics.levels, repairs⟩

/-! ### Cycles of edges -/

/-- Some edge of the list leads from `a` to `b`. -/
def Leads (edges : List Prerequisite) (a b : String) : Prop :=
  ∃ edge ∈ edges, edge.prerequisiteKpId = a ∧ edge.dependentKpId = b

/-- The edge lies on a directed cycle of edges of the list. -/
def OnCycle (edges : List Prerequisite) (edge : Prerequisite) : Prop :=
  edge ∈ edges ∧ ReflTransGen (Leads edges) edge.dependentKpId edge.prerequisiteKpId

theorem Leads.mono {edges edges' : List Prerequisite} (h : edges ⊆ edges') {a b : String}
    (hab : Leads edges a b) : Leads edges' a b := by
  obtain ⟨edge, hedge, hends⟩ := hab
  exact ⟨edge, h hedge, hends⟩

theorem step_topologyEdge (edges : List Prerequisite) (a b : String) :
    Step (edges.map (·.topologyEdge)) a b ↔ Leads edges a b := by
  simp only [Step, Leads, List.mem_map, Prerequisite.topologyEdge, TopologyEdge.mk.injEq]

variable {edge : Prerequisite}

section cycle
variable {edges : List Prerequisite} {cycle : List String}

theorem mem_removalCandidates : edge ∈ removalCandidates edges cycle ↔
    edge ∈ edges ∧ edge.prerequisiteKpId ∈ cycle ∧ edge.dependentKpId ∈ cycle := by
  simp [removalCandidates]

theorem onCycle_of_mem_candidates (hcycle : IsClosedWalk (Leads edges) cycle)
    (h : edge ∈ removalCandidates edges cycle) : OnCycle edges edge := by
  obtain ⟨hedge, hp, hd⟩ := mem_removalCandidates.mp h
  exact ⟨hedge, (hcycle.reaches hd hp).to_reflTransGen⟩

theorem removalCandidates_ne_nil (hcycle : IsClosedWalk (Leads edges) cycle) :
    removalCandidates edges cycle ≠ [] := by
  obtain ⟨a, ha, b, hb, edge, hedge, rfl, rfl⟩ := hcycle.exists_edge
  exact List.ne_nil_of_mem (mem_removalCandidates.mpr ⟨hedge, ha, hb⟩)

theorem exists_candidate_below (hcycle : IsClosedWalk (Leads edges) cycle) {r : ℕ}
    (hr : Acyclic (Leads (edges.filter fun edge => r ≤ relationRank edge.relationType))) :
    ∃ edge ∈ removalCandidates edges cycle, relationRank edge.relationType < r := by
  by_contra hall
  push Not at hall
  refine (hcycle.imp_of_mem ?_).not_acyclic hr
  rintro a ha b hb ⟨edge, hedge, rfl, rfl⟩
  have hrank := hall edge (mem_removalCandidates.mpr ⟨hedge, ha, hb⟩)
  exact ⟨edge, List.mem_filter.mpr ⟨hedge, by simpa using hrank⟩, rfl, rfl⟩

theorem relationRank_le_of_key_le {a b : Prerequisite} (h : edgeRemovalKey a ≤ edgeRemovalKey b) :
    relationRank a.relationType ≤ relationRank b.relationType := by
  rcases Prod.Lex.le_iff.mp h with hlt | ⟨heq, -⟩
  · exact hlt.le
  · exact heq.le

end cycle

/-! ### The repair loop -/

theorem edgeRepair_eq_none {active : Finset String} :
    edgeRepair active edge = none ↔ Known active edge.topologyEdge := by
  simp only [edgeRepair, Known, Prerequisite.topologyEdge]
  split_ifs with hself hmissing
  · simp [hself]
  · simp only [ne_eq, Finset.sdiff_eq_empty_iff_subset, Finset.insert_subset_iff,
      Finset.singleton_subset_iff] at hmissing
    simp only [false_iff]
    exact fun h => hmissing ⟨h.1, h.2.1⟩
  · simp only [ne_eq, not_not, Finset.sdiff_eq_empty_iff_subset, Finset.insert_subset_iff,
      Finset.singleton_subset_iff] at hmissing
    simp only [true_iff]
    exact ⟨hmissing.1, hmissing.2, hself⟩

/-- **The repair loop ends**, and each edge it removes lies on a cycle of the edges left. -/
theorem repairLoop_ok {active : Finset String} {fuel : ℕ} {edges : List Prerequisite}
    (repairs : List GraphRepair) (hedges : ∀ edge ∈ edges, Known active edge.topologyEdge)
    (hfuel : edges.length < fuel) :
    ∃ metrics removed, repairLoop active fuel edges repairs
        = .ok (metrics, removed.foldl List.erase edges, repairs ++ removed.map cycleEdgeRemoved) ∧
      Acyclic (Leads (removed.foldl List.erase edges)) ∧
      (∀ before edge after, removed = before ++ edge :: after →
        OnCycle (before.foldl List.erase edges) edge) ∧
      ∀ r, Acyclic (Leads (edges.filter fun edge => r ≤ relationRank edge.relationType)) →
        ∀ edge ∈ removed, relationRank edge.relationType < r := by
  induction fuel generalizing edges repairs with
  | zero => omega
  | succ fuel ih =>
    have hknown : ∀ edge ∈ edges.map (·.topologyEdge), Known active edge := by
      simpa using hedges
    rw [repairLoop]
    rcases analyzeTopology_spec hknown with ⟨metrics, hok, hacyclic⟩ | ⟨cycle, herror, hwalk⟩
    · refine ⟨metrics, [], ?_, ?_, by simp, by simp⟩
      · simp [hok]
      · exact hacyclic.mono fun a b hab => (step_topologyEdge edges a b).mpr hab
    · have hcycle : IsClosedWalk (Leads edges) cycle :=
        hwalk.imp_of_mem fun a _ b _ hab => (step_topologyEdge edges a b).mp hab
      obtain ⟨removed, hremoved⟩ : ∃ removed, (removalCandidates edges cycle).argmin edgeRemovalKey
          = some removed := by
        rw [← Option.ne_none_iff_exists', Ne, List.argmin_eq_none]
        exact removalCandidates_ne_nil hcycle
      have hcandidate : removed ∈ removalCandidates edges cycle := List.argmin_mem hremoved
      have hmem : removed ∈ edges := (mem_removalCandidates.mp hcandidate).1
      have hlen : (edges.erase removed).length < fuel := by
        have hpos := List.length_pos_of_mem hmem
        rw [List.length_erase_of_mem hmem]
        omega
      obtain ⟨metrics, rest, hrun, hacyclic, honCycle, hrank⟩ :=
        ih (repairs ++ [cycleEdgeRemoved removed])
          (fun edge he => hedges edge (List.mem_of_mem_erase he)) hlen
      refine ⟨metrics, removed :: rest, ?_, hacyclic, ?_, ?_⟩
      · simp only [herror, hremoved, hrun, List.foldl_cons, List.map_cons, List.append_assoc,
          List.singleton_append]
      · intro before edge after heq
        cases before with
        | nil =>
          obtain ⟨rfl, rfl⟩ := List.cons.inj heq
          exact onCycle_of_mem_candidates hcycle hcandidate
        | cons first before =>
          obtain ⟨rfl, hrest⟩ := List.cons.inj heq
          exact honCycle before edge after hrest
      · intro r hr edge hedge
        rcases List.mem_cons.mp hedge with rfl | hrest
        · obtain ⟨low, hlow, hlt⟩ := exists_candidate_below hcycle hr
          have hle := relationRank_le_of_key_le
            (List.le_of_mem_argmin hlow hremoved)
          omega
        · refine hrank r (hr.mono fun a b => Leads.mono ?_) edge hrest
          intro e he
          obtain ⟨he, hr⟩ := List.mem_filter.mp he
          exact List.mem_filter.mpr ⟨List.mem_of_mem_erase he, hr⟩

/-! ### The sanitized graph -/

section sanitize
variable {snapshot : GraphSnapshot}

theorem mem_edges : edge ∈ snapshot.edges ↔
    edge ∈ snapshot.prerequisites ∧ Known snapshot.activeIds edge.topologyEdge := by
  simp [GraphSnapshot.edges, GraphSnapshot.sortedEdges, edgeRepair_eq_none]

theorem edgeRepairs_code {repair : GraphRepair} (h : repair ∈ snapshot.edgeRepairs) :
    repair.code ≠ "CYCLE_EDGE_REMOVED" := by
  obtain ⟨edge, -, hedge⟩ := List.mem_filterMap.mp h
  simp only [edgeRepair] at hedge
  split_ifs at hedge
  all_goals
    obtain rfl := Option.some.inj hedge
    simp

theorem mem_of_mem_foldl_erase {removed edges : List Prerequisite}
    (h : edge ∈ removed.foldl List.erase edges) : edge ∈ edges := by
  induction removed generalizing edges with
  | nil => exact h
  | cons e removed ih => exact List.mem_of_mem_erase (ih h)

theorem sanitizeGraph_of_perm {other : GraphSnapshot}
    (hpoints : other.knowledgePoints = snapshot.knowledgePoints)
    (hperm : other.prerequisites.Perm snapshot.prerequisites)
    (hids : (snapshot.prerequisites.map (·.edgeId)).Nodup) :
    sanitizeGraph other = sanitizeGraph snapshot := by
  have hactive : other.active = snapshot.active := by
    rw [GraphSnapshot.active, GraphSnapshot.active, hpoints]
  have hids' : (other.prerequisites.map (·.edgeId)).Nodup := (hperm.map _).nodup_iff.mpr hids
  have hsorted : other.sortedEdges = snapshot.sortedEdges := sortBy_eq_of_perm hperm hids'
  have hactiveIds : other.activeIds = snapshot.activeIds := by
    rw [GraphSnapshot.activeIds, GraphSnapshot.activeIds, hactive]
  have hedges : other.edges = snapshot.edges := by
    simp only [GraphSnapshot.edges, hsorted, hactiveIds]
  have hrepairs : other.edgeRepairs = snapshot.edgeRepairs := by
    rw [GraphSnapshot.edgeRepairs, GraphSnapshot.edgeRepairs, hsorted, hactiveIds]
  rw [sanitizeGraph, sanitizeGraph, hactive, hactiveIds, hedges, hrepairs]

/-- The edges between active points with a relation of rank `r` or above. -/
def GraphSnapshot.edgesFrom (snapshot : GraphSnapshot) (r : ℕ) : List Prerequisite :=
  snapshot.prerequisites.filter fun edge => edge.prerequisiteKpId ∈ snapshot.activeIds ∧
    edge.dependentKpId ∈ snapshot.activeIds ∧ r ≤ relationRank edge.relationType

/-- **Cycle repair preserves hard prerequisites.**  For every snapshot with an active point the
repair loop ends with acyclic edges between active points; each edge recorded as
`CYCLE_EDGE_REMOVED` lay on a directed cycle of the edges left when it was removed; none of them is
`REQUIRED` when the `REQUIRED` edges between active points are acyclic, and all are `SUPPORTING` when
the `REQUIRED` and `RECOMMENDED` ones are; and the kept edges are the same for every order of the
list of prerequisites. -/
theorem sanitizeGraph_repairs (snapshot : GraphSnapshot) (hactive : snapshot.active ≠ []) :
    ∃ graph removed, sanitizeGraph snapshot = .ok graph ∧
      Acyclic (Leads graph.prerequisites) ∧
      (∀ edge ∈ graph.prerequisites, edge ∈ snapshot.prerequisites ∧
        edge.prerequisiteKpId ∈ snapshot.activeIds ∧ edge.dependentKpId ∈ snapshot.activeIds) ∧
      graph.prerequisites = removed.foldl List.erase snapshot.edges ∧
      (graph.repairs.filter fun repair => repair.code = "CYCLE_EDGE_REMOVED")
        = removed.map cycleEdgeRemoved ∧
      (∀ before edge after, removed = before ++ edge :: after →
        OnCycle (before.foldl List.erase snapshot.edges) edge) ∧
      (Acyclic (Leads (snapshot.edgesFrom (relationRank .REQUIRED))) →
        ∀ edge ∈ removed, edge.relationType ≠ .REQUIRED) ∧
      (Acyclic (Leads (snapshot.edgesFrom (relationRank .RECOMMENDED))) →
        ∀ edge ∈ removed, edge.relationType = .SUPPORTING) ∧
      ∀ other : GraphSnapshot, other.knowledgePoints = snapshot.knowledgePoints →
        other.prerequisites.Perm snapshot.prerequisites →
        (snapshot.prerequisites.map (·.edgeId)).Nodup →
        ∃ graph', sanitizeGraph other = .ok graph' ∧ graph'.prerequisites = graph.prerequisites := by
  obtain ⟨metrics, removed, hrun, hacyclic, honCycle, hrank⟩ :=
    repairLoop_ok snapshot.edgeRepairs (fun edge he => (mem_edges.mp he).2)
      (Nat.lt_succ_self snapshot.edges.length)
  have hok : sanitizeGraph snapshot = .ok ⟨snapshot.active, removed.foldl List.erase snapshot.edges,
      metrics.levels, snapshot.edgeRepairs ++ removed.map cycleEdgeRemoved⟩ := by
    rw [sanitizeGraph, if_neg hactive, hrun]
    rfl
  have hbelow : ∀ r, Acyclic (Leads (snapshot.edgesFrom r)) →
      ∀ edge ∈ removed, relationRank edge.relationType < r := by
    intro r hr
    refine hrank r (hr.mono fun a b => Leads.mono fun edge he => ?_)
    obtain ⟨he, hle⟩ := List.mem_filter.mp he
    obtain ⟨hmem, hp, hd, -⟩ := mem_edges.mp he
    exact List.mem_filter.mpr ⟨hmem, by simpa using ⟨hp, hd, by simpa using hle⟩⟩
  refine ⟨_, removed, hok, hacyclic, ?_, rfl, ?_, honCycle, ?_, ?_, ?_⟩
  · intro edge he
    obtain ⟨hmem, hp, hd, -⟩ := mem_edges.mp (mem_of_mem_foldl_erase he)
    exact ⟨hmem, hp, hd⟩
  · have hfirst : (snapshot.edgeRepairs.filter fun repair => repair.code = "CYCLE_EDGE_REMOVED") = [] := by
      rw [List.filter_eq_nil_iff]
      intro repair hrepair
      simpa using edgeRepairs_code hrepair
    have hsecond : ((removed.map cycleEdgeRemoved).filter
        fun repair => repair.code = "CYCLE_EDGE_REMOVED") = removed.map cycleEdgeRemoved := by
      rw [List.filter_eq_self]
      intro repair hrepair
      obtain ⟨edge, -, rfl⟩ := List.mem_map.mp hrepair
      rfl
    rw [List.filter_append, hfirst, hsecond, List.nil_append]
  · intro h edge hedge heq
    have hlt := hbelow _ h edge hedge
    rw [heq] at hlt
    exact lt_irrefl _ hlt
  · intro h edge hedge
    have hlt := hbelow _ h edge hedge
    cases hrelation : edge.relationType with
    | SUPPORTING => rfl
    | RECOMMENDED => simp [hrelation] at hlt
    | REQUIRED => simp [hrelation, relationRank] at hlt
  · intro other hpoints hperm hids
    exact ⟨_, (sanitizeGraph_of_perm hpoints hperm hids).trans hok, rfl⟩

/-- Two points that are prerequisites of each other. -/
def mutualSnapshot : GraphSnapshot where
  knowledgePoints := [⟨"KP_sum", "Sums", 20, .ACTIVE⟩, ⟨"KP_product", "Products", 30, .ACTIVE⟩]
  prerequisites := [⟨"EDGE_1", "KP_sum", "KP_product", .REQUIRED, 1⟩,
    ⟨"EDGE_2", "KP_product", "KP_sum", .SUPPORTING, 1 / 2⟩]

theorem sanitizeGraph_repairs_mutual : ∃ graph, sanitizeGraph mutualSnapshot = .ok graph ∧
    Acyclic (Leads graph.prerequisites) := by
  obtain ⟨graph, -, hok, hacyclic, -⟩ := sanitizeGraph_repairs mutualSnapshot (by decide)
  exact ⟨graph, hok, hacyclic⟩

end sanitize

end CyberControl.PathPlanning
