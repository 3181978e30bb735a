import CyberControl.CourseValidation
import CyberControl.Saturation
import CyberControl.UnicodeAscii
import Mathlib.Algebra.Order.Ring.Rat

/-! # Mind maps

`MindMapAgent._build_content` (`topic3/agents/mindmap.py`): the knowledge points around the targets of a
command, with the prerequisites between them, and the Mermaid text of that graph. -/

namespace CyberControl.MindMap

open Topic1 Collections Saturation

/-! ### Mind maps -/

inductive NodeState where
  | PREREQUISITE
  | CURRENT
  | MASTERED
  | WEAK
  | FUTURE
deriving DecidableEq, Repr

structure MindMapNodeV1 where
  nodeId : List Char
  kpId : String
  label : List Char
  mastery : ℚ
  state : NodeState
  collapsed : Bool

/-- `MindMapEdgeV1`; the agent only builds edges with the relation `"PREREQUISITE"`. -/
structure MindMapEdgeV1 where
  sourceNodeId : List Char
  targetNodeId : List Char

/-- `MindMapContentV1`; the agent only builds diagrams with the direction `"TD"`. -/
structure MindMapContentV1 where
  nodes : List MindMapNodeV1
  edges : List MindMapEdgeV1
  mermaid : List Char

/-! ### The Mermaid text -/

/-- `f"K{index}"`. -/
def nodeIdAt (index : ℕ) : List Char := 'K' :: Nat.toDigits 10 index

/-- `re.sub(r"[\[\]{}()\"']", " ", label)`. -/
def withoutBrackets (label : List Char) : List Char :=
  label.map fun c => if ['[', ']', '{', '}', '(', ')', '"', '\''].contains c then ' ' else c

/-- The states with their styles, in the order of `state_classes`. -/
def stateClasses : List (NodeState × String × String) :=
  [(.CURRENT, "current", "fill:#fff3bf,stroke:#b7791f,color:#1a202c"),
    (.WEAK, "weak", "fill:#ffe3e3,stroke:#c92a2a,color:#1a202c"),
    (.MASTERED, "mastered", "fill:#e6fcf5,stroke:#087f5b,color:#495057"),
    (.PREREQUISITE, "prerequisite", "fill:#e7f5ff,stroke:#1971c2,color:#1a202c"),
    (.FUTURE, "future", "fill:#f1f3f5,stroke:#868e96,color:#495057")]

/-- The indentation of a line. -/
def indent (line : List Char) : List Char := "    ".toList ++ line

def nodeLine (nodeId label : List Char) : List Char := nodeId ++ "[\"".toList ++ label ++ "\"]".toList

def edgeLine (edge : MindMapEdgeV1) : List Char := edge.sourceNodeId ++ " --> ".toList ++ edge.targetNodeId

def classDefLine (name style : String) : List Char := "classDef ".toList ++ name.toList ++ ' ' :: style.toList

/-- The line of the nodes with a style. -/
def classLine (memberIds : List (List Char)) (name : String) : List Char :=
  "class ".toList ++ [','].intercalate memberIds ++ ' ' :: name.toList

/-- The identifiers of the nodes in a state. -/
def memberIds (nodes : List MindMapNodeV1) (state : NodeState) : List (List Char) :=
  (nodes.filter (·.state = state)).map (·.nodeId)

def styleLines (nodes : List MindMapNodeV1) : List (List Char) :=
  stateClasses.flatMap fun (state, name, style) =>
    classDefLine name style ::
      if memberIds nodes state = [] then [] else [classLine (memberIds nodes state) name]

/-- The lines under the header, for some labels of the nodes. -/
def bodyLines (label : MindMapNodeV1 → List Char) (nodes : List MindMapNodeV1)
    (edges : List MindMapEdgeV1) : List (List Char) :=
  nodes.map (fun node => nodeLine node.nodeId (label node)) ++ edges.map edgeLine ++ styleLines nodes

/-- `mermaid_lines`, joined. -/
def mermaidText (label : MindMapNodeV1 → List Char) (nodes : List MindMapNodeV1)
    (edges : List MindMapEdgeV1) : List Char :=
  ['\n'].intercalate ("graph TD".toList :: (bodyLines label nodes edges).map indent)

/-! ### `_build_content` -/

/-- `MemoryState` of the personalization. -/
structure MemoryState where
  kpId : String
  retrievability : ℚ

/-- The part of `AgentExecutionContext` that is read. -/
structure MindMapContext (F D : Type) where
  graph : Content String F D
  targetKpIds : List String
  memoryStates : List MemoryState
  knowledgeMastery : ℚ

/-- The white space of `str`, `str.lower`, `round(x, 6)`, and the title in the fields of a knowledge
point. -/
structure Platform (D : Type) where
  db : Unicode.Standard
  lowering : Unicode.Lowering
  round6 : ℚ → ℚ
  title : D → List Char

variable {F D : Type}

/-- One pass of `while changed`. -/
def includePrerequisites (edges : List (Prerequisite String D)) (included : Finset String) :
    Finset String :=
  edges.foldl (fun included edge =>
    if edge.dependentKpId ∈ included then insert edge.prerequisiteKpId included else included) included

/-- `while changed`; each pass but the last adds a prerequisite. -/
def includeAll (edges : List (Prerequisite String D)) (included : Finset String) : Finset String :=
  saturate (includePrerequisites edges) edges.length included

/-- `included` before it is cut. -/
def extended (context : MindMapContext F D) : Finset String :=
  let edges := context.graph.prerequisites
  let targets := context.targetKpIds.toFinset
  let closed := includeAll edges targets
  if (3 / 4 : ℚ) ≤ context.knowledgeMastery then
    closed ∪ ((edges.filter (·.prerequisiteKpId ∈ targets)).map (·.dependentKpId)).toFinset
  else closed

def included (context : MindMapContext F D) : Finset String :=
  if 256 < (extended context).card then
    ((sorted (extended context)).take 256).toFinset ∪ context.targetKpIds.toFinset
  else extended context

/-- `point_by_id[kp_id]`. -/
def pointById (graph : Content String F D) (kpId : String) : Except Exn (KnowledgePoint String F D) :=
  match graph.knowledgePoints.reverse.find? (·.kpId = kpId) with
  | some point => .ok point
  | none => .error (.other "KeyError")

/-- `(point.topology_level, point.kp_id)`. -/
def pointKey (point : KnowledgePoint String F D) : ℕ ×ₗ String := toLex (point.topologyLevel, point.kpId)

def orderedPoints (context : MindMapContext F D) : Except Exn (List (KnowledgePoint String F D)) := do
  let points ← (sorted (included context)).mapM (pointById context.graph)
  return Scheduling.sortBy pointKey points

/-- The prerequisites between the points of the map. -/
def mapPrerequisites (context : MindMapContext F D) : List (Prerequisite String D) :=
  context.graph.prerequisites.filter fun edge =>
    edge.prerequisiteKpId ∈ included context ∧ edge.dependentKpId ∈ included context

section build
variable (platform : Platform D)

/-- `0.8` and `0.6` as the floating-point numbers they are. -/
def masteredFrom : ℚ := 3602879701896397 / 4503599627370496

def weakBelow : ℚ := 5404319552844595 / 9007199254740992

/-- `mastery` of a point. -/
def masteryOf (context : MindMapContext F D) (kpId : String) : ℚ :=
  match context.memoryStates.reverse.find? (·.kpId = kpId) with
  | some memory => memory.retrievability
  | none => context.knowledgeMastery

def targetLevel (context : MindMapContext F D) : ℕ :=
  ((context.graph.knowledgePoints.filter (·.kpId ∈ context.targetKpIds)).map (·.topologyLevel)).foldl max 0

/-- `state` of a point. -/
def stateOf (context : MindMapContext F D) (point : KnowledgePoint String F D) : NodeState :=
  let mastery := masteryOf context point.kpId
  if point.kpId ∈ context.targetKpIds then .CURRENT
  else if masteredFrom ≤ mastery then .MASTERED
  else if mastery < weakBelow then .WEAK
  else if point.topologyLevel < targetLevel context then .PREREQUISITE
  else .FUTURE

def nodeOf (context : MindMapContext F D) (index : ℕ)
    (point : KnowledgePoint String F D) : MindMapNodeV1 where
  nodeId := nodeIdAt index
  kpId := point.kpId
  label := platform.title point.fields
  mastery := platform.round6 (masteryOf context point.kpId)
  state := stateOf context point
  collapsed := stateOf context point = .MASTERED ∧ point.kpId ∉ context.targetKpIds

/-- `node_id_by_kp[kp_id]`; the points of an edge are in the map. -/
def nodeIdByKp (points : List (KnowledgePoint String F D)) (kpId : String) : List Char :=
  nodeIdAt (points.findIdx (·.kpId = kpId))

def edgeOf (points : List (KnowledgePoint String F D)) (edge : Prerequisite String D) : MindMapEdgeV1 :=
  ⟨nodeIdByKp points edge.prerequisiteKpId, nodeIdByKp points edge.dependentKpId⟩

/-- The label of a node in the text. -/
def emittedLabel (node : MindMapNodeV1) : List Char := platform.db.strip (withoutBrackets node.label)

/-- The directives that `validate_graph` looks for. -/
def unsafeTokens : List String := ["<script", "javascript:", "click "]

/-- What `MindMapContentV1` accepts; an identifier of the agent, `K` with digits, matches its pattern. -/
structure ValidContent (content : MindMapContentV1) : Prop where
  nodes_length : 1 ≤ content.nodes.length ∧ content.nodes.length ≤ 512
  edges_length : content.edges.length ≤ 2048
  nodes : ∀ node ∈ content.nodes, (1 ≤ node.label.length ∧ node.label.length ≤ 128) ∧
    (1 ≤ node.kpId.length ∧ node.kpId.length ≤ 120) ∧ 0 ≤ node.mastery ∧ node.mastery ≤ 1
  mermaid_length : 1 ≤ content.mermaid.length ∧ content.mermaid.length ≤ 65536
  nodeIds : (content.nodes.map (·.nodeId)).Nodup
  noSelfEdge : ∀ edge ∈ content.edges, edge.sourceNodeId ≠ edge.targetNodeId
  edgeEnds : ∀ edge ∈ content.edges, edge.sourceNodeId ∈ content.nodes.map (·.nodeId) ∧
    edge.targetNodeId ∈ content.nodes.map (·.nodeId)
  direction : "graph TD".toList <+: content.mermaid
  safe : ∀ token ∈ unsafeTokens, ¬ token.toList <:+: platform.lowering.lower content.mermaid

/-- The constructors of the nodes and of `MindMapContentV1`, with `validate_graph`. -/
def validateContent (content : MindMapContentV1) : Except Exn Unit := do
  ensure (∀ node ∈ content.nodes, (1 ≤ node.label.length ∧ node.label.length ≤ 128) ∧
      (1 ≤ node.kpId.length ∧ node.kpId.length ≤ 120) ∧ 0 ≤ node.mastery ∧ node.mastery ≤ 1)
    (.validationError ["nodes"])
  ensure (1 ≤ content.nodes.length ∧ content.nodes.length ≤ 512) (.validationError ["nodes"])
  ensure (content.edges.length ≤ 2048) (.validationError ["edges"])
  ensure (1 ≤ content.mermaid.length ∧ content.mermaid.length ≤ 65536) (.validationError ["mermaid"])
  ensure (content.nodes.map (·.nodeId)).Nodup (.valueError "mind-map node identifiers must be unique")
  content.edges.forM fun edge => do
    ensure (edge.sourceNodeId ≠ edge.targetNodeId) (.valueError "mind-map self edges are prohibited")
    ensure (edge.sourceNodeId ∈ content.nodes.map (·.nodeId) ∧
        edge.targetNodeId ∈ content.nodes.map (·.nodeId))
      (.valueError "mind-map edge references an unknown node")
  ensure ("graph TD".toList <+: content.mermaid)
    (.valueError "mermaid must start with the declared graph direction")
  ensure (∀ token ∈ unsafeTokens, ¬ token.toList <:+: platform.lowering.lower content.mermaid)
    (.valueError "unsafe Mermaid directives are prohibited")

theorem validateContent_ok {content : MindMapContentV1} :
    validateContent platform content = .ok () ↔ ValidContent platform content := by
  unfold validateContent
  simp only [unit_bind_eq_ok, ensure_eq_ok, forM_eq_ok]
  constructor
  · rintro ⟨hnodes, hcount, hedges, hmermaid, hids, hends, hdirection, hsafe⟩
    exact ⟨hcount, hedges, hnodes, hmermaid, hids, fun edge hedge => (hends edge hedge).1,
      fun edge hedge => (hends edge hedge).2, hdirection, hsafe⟩
  · intro h
    exact ⟨h.nodes, h.nodes_length, h.edges_length, h.mermaid_length, h.nodeIds,
      fun edge hedge => ⟨h.noSelfEdge edge hedge, h.edgeEnds edge hedge⟩, h.direction, h.safe⟩

/-- `nodes` of the points. -/
def nodesOf (context : MindMapContext F D) (points : List (KnowledgePoint String F D)) :
    List MindMapNodeV1 :=
  points.mapIdx (nodeOf platform context)

/-- `edges` of the points. -/
def edgesOf (context : MindMapContext F D) (points : List (KnowledgePoint String F D)) :
    List MindMapEdgeV1 :=
  (mapPrerequisites context).map (edgeOf points)

def buildContent (context : MindMapContext F D) : Except Exn MindMapContentV1 := do
  let points ← orderedPoints context
  let nodes := nodesOf platform context points
  let edges := edgesOf context points
  let content : MindMapContentV1 := ⟨nodes, edges, mermaidText (emittedLabel platform) nodes edges⟩
  validateContent platform content
  return content

theorem nodesOf_getElem? {context : MindMapContext F D} {points : List (KnowledgePoint String F D)}
    {i : ℕ} {node : MindMapNodeV1} (h : (nodesOf platform context points)[i]? = some node) :
    ∃ point, points[i]? = some point ∧ node = nodeOf platform context i point := by
  unfold nodesOf at h
  rw [List.getElem?_mapIdx] at h
  obtain ⟨point, hpoint, rfl⟩ := Option.map_eq_some_iff.mp h
  exact ⟨point, hpoint, rfl⟩

end build

end CyberControl.MindMap
