import CyberControl.ComplianceRecords
import CyberControl.GraphCycle
import CyberControl.MermaidGraphs
import Mathlib.Algebra.Order.Ring.Rat

/-! # The graph verifier

`Topic1GraphVerifier.verify` (`graph/verifier.py`): the nodes of a parsed Mermaid graph are mapped to knowledge
points of a Topic 1 snapshot, the edges are compared with its prerequisites, and the codes of what does not
agree give the verdict.  The records are those of `liyans_contracts/topic4_c4.py`; their digests are left out. -/

namespace CyberControl.GraphVerification

open ClaimExtraction (collapseRuns)
open Collections
open Compliance (isWhiteSpace)
open Mermaid (GraphRelation MermaidEdgeDraft MermaidNodeDraft ParsedMermaidGraph)
open Verification (VerificationVerdict)

/-! ### Topic 1 graphs -/

/-- The identifier and the names of a `Topic1KnowledgePointV1`. -/
structure KnowledgePoint where
  kpId : List Char
  title : List Char
  aliases : List (List Char)

/-- `(point.kp_id, point.title, *point.aliases)`. -/
def KnowledgePoint.names (point : KnowledgePoint) : List (List Char) :=
  point.kpId :: point.title :: point.aliases

/-- The end points of a `Topic1PrerequisiteV1`. -/
structure Prerequisite where
  prerequisiteKpId : List Char
  dependentKpId : List Char

/-- `Topic1GraphContentV1`; `rest` is what only the digest reads. -/
structure GraphContent (D : Type) where
  knowledgePoints : List KnowledgePoint
  prerequisites : List Prerequisite
  rest : D
  kpIds_nodup : (knowledgePoints.map (·.kpId)).Nodup

/-- `Topic1GraphSnapshotV1`. -/
structure GraphSnapshot (D : Type) where
  content : GraphContent D
  contentSha256 : String
  nodeCount : ℕ
  edgeCount : ℕ

structure GraphVerificationPolicy where
  requireExplicitNodes : Bool := true
  rejectAmbiguousLabels : Bool := true
  requireDeclaredPrerequisites : Bool := true

/-- The Unicode database, `canonical_sha256` of a content and of a text, and `uuid5`. -/
structure Platform (D : Type) where
  db : Unicode.Database
  contentSha256 : GraphContent D → String
  textSha256 : List Char → String
  namespaceUrl : ℕ
  uuid5 : ℕ → String → ℕ

/-- The values of a claim that `verify` copies; `ClaimV1` has checked them. -/
structure VerificationContext where
  verificationId : ℕ
  claimId : ℕ
  candidateId : ℕ
  candidateVersion : ℕ
  blockId : String
  traceId : String
  tenantId : String
  createdAt : ℕ

/-- The texts of `GraphIntegrityError`, a `ValueError`. -/
def graphIntegrityError (subject : String) : Exn := .valueError
    ("Topic1 graph snapshot " ++ subject ++ " is invalid")

/-! ### Records -/

/-- `str_strip_whitespace` of `FROZEN_MODEL_CONFIG`. -/
def strip (text : List Char) : List Char := (text.dropWhile isWhiteSpace).rdropWhile isWhiteSpace

/-- A text field with `min_length=1` that the contract rejects. -/
def textErrors (name : String) (bound : ℕ) (text : List Char) : List String :=
  if 1 ≤ (strip text).length ∧ (strip text).length ≤ bound then [] else [name]

/-- A list field that the contract rejects. -/
def listErrors {α : Type} (name : String) (bound : ℕ) (items : List α) : List String :=
  if items.length ≤ bound then [] else [name]

/-- A record, when its contract rejects no field. -/
def validated {α : Type} (errors : List String) (record : α) : Except Exn α :=
  if errors = [] then .ok record else .error (.validationError errors)

/-- `VerifierGraphNodeV1`. -/
structure VerifierGraphNode where
  context : VerificationContext
  nodeId : List Char
  label : List Char
  topic1KnowledgePointId : Option ℕ
  nodeType : List Char

/-- `build_topic4_record(VerifierGraphNodeV1, ...)`. -/
def VerifierGraphNode.build (node : VerifierGraphNode) : Except Exn VerifierGraphNode :=
  validated
    (textErrors "node_id" 128 node.nodeId ++ textErrors "label" 512 node.label ++
      textErrors "node_type" 128 node.nodeType)
    { node with nodeId := strip node.nodeId, label := strip node.label, nodeType := strip node.nodeType }

/-- `VerifierGraphEdgeV1`. -/
structure VerifierGraphEdge where
  context : VerificationContext
  edgeId : List Char
  sourceNodeId : List Char
  targetNodeId : List Char
  relation : GraphRelation
  directed : Bool

/-- `build_topic4_record(VerifierGraphEdgeV1, ...)`. -/
def VerifierGraphEdge.build (edge : VerifierGraphEdge) : Except Exn VerifierGraphEdge :=
  validated
    (textErrors "edge_id" 128 edge.edgeId ++ textErrors "source_node_id" 128 edge.sourceNodeId ++
      textErrors "target_node_id" 128 edge.targetNodeId)
    { edge with
      edgeId := strip edge.edgeId
      sourceNodeId := strip edge.sourceNodeId
      targetNodeId := strip edge.targetNodeId }

/-- `VerifierGraphIRV1`. -/
structure VerifierGraphIR where
  context : VerificationContext
  verifierGraphIrId : ℕ
  mermaidVersion : String
  direction : String
  nodes : List VerifierGraphNode
  edges : List VerifierGraphEdge

/-- The fields that the contract `VerifierGraphIRV1` rejects, and what its validator raises. -/
def VerifierGraphIR.fieldErrors (ir : VerifierGraphIR) : List String :=
  let nodeIds := ir.nodes.map (·.nodeId)
  textErrors "mermaid_version" 64 ir.mermaidVersion.toList ++
    (if ir.direction ∈ ["TB", "TD", "BT", "RL", "LR"] then [] else ["direction"]) ++
    (if 1 ≤ ir.nodes.length ∧ ir.nodes.length ≤ 4096 then [] else ["nodes"]) ++
    listErrors "edges" 16384 ir.edges ++
    (if nodeIds.Nodup then [] else ["graph node ids must be unique"]) ++
    (if (ir.edges.map (·.edgeId)).Nodup then [] else ["graph edge ids must be unique"]) ++
    (if ∀ edge ∈ ir.edges, edge.sourceNodeId ∈ nodeIds ∧ edge.targetNodeId ∈ nodeIds then []
      else ["graph edge references an unknown node"])

/-- `build_topic4_record(VerifierGraphIRV1, ...)`. -/
def VerifierGraphIR.build (ir : VerifierGraphIR) : Except Exn VerifierGraphIR := validated ir.fieldErrors ir

/-- `GraphVerificationResultV1`. -/
structure GraphVerificationResult where
  context : VerificationContext
  graphVerificationResultId : ℕ
  verifierGraphIrId : ℕ
  syntaxValid : Bool
  nodeIdsUnique : Bool
  edgeEndpointsValid : Bool
  prerequisiteSubgraphAcyclic : Bool
  unknownTopic1NodeIds : List (List Char)
  invalidEdgeIds : List (List Char)
  topologyMismatchCodes : List String
  evidenceRefIds : List ℕ
  verdict : VerificationVerdict
  confidence : ℚ

/-- The fields that the contract `GraphVerificationResultV1` rejects. -/
def GraphVerificationResult.fieldErrors (result : GraphVerificationResult) : List String :=
  listErrors "unknown_topic1_node_ids" 4096 result.unknownTopic1NodeIds ++
    listErrors "invalid_edge_ids" 16384 result.invalidEdgeIds ++
    listErrors "topology_mismatch_codes" 4096 result.topologyMismatchCodes ++
    listErrors "evidence_ref_ids" 512 result.evidenceRefIds ++
    (if 0 ≤ result.confidence ∧ result.confidence ≤ 1 then [] else ["confidence"])

/-- `build_topic4_record(GraphVerificationResultV1, ...)`. -/
def GraphVerificationResult.build (result : GraphVerificationResult) : Except Exn GraphVerificationResult :=
  validated result.fieldErrors result

structure GraphAnalysis where
  graphIr : VerifierGraphIR
  result : GraphVerificationResult
  unknownNodeIds : List (List Char)

/-! ### Labels -/

section labels
variable (db : Unicode.Database)

/-- `_normalize_label`; the class `\w` holds the ideographs of the pattern. -/
def normalizeLabel (value : List Char) : List Char :=
  let words := collapseRuns (fun c => !(db.isAlnum c || c = '_' || ('\u4e00' ≤ c && c ≤ '\u9fff'))) ' ' false
    ((db.nfkc value).flatMap db.casefold)
  db.strip (collapseRuns db.isSpace ' ' false words)

/-- One turn of the loop of `_label_index` over the names of a point. -/
def indexName (kpId : List Char) (index : List Char → Finset (List Char)) (value : List Char) :
    List Char → Finset (List Char) :=
  let normalized := normalizeLabel db value
  if normalized = [] then index
  else Function.update index normalized (insert kpId (index normalized))

/-- `_label_index`; a label without an entry has the empty set. -/
def labelIndex (points : List KnowledgePoint) : List Char → Finset (List Char) :=
  points.foldl (fun index point => point.names.foldl (indexName db point.kpId) index) fun _ => ∅

/-- `point_by_id.get(node_id)`. -/
def pointById (points : List KnowledgePoint) (nodeId : List Char) : Option KnowledgePoint :=
  points.find? fun point => point.kpId = nodeId

def labelMatchesPoint (node : MermaidNodeDraft) (point : KnowledgePoint) : Bool :=
  ((point.names.map (normalizeLabel db)).filter (· ≠ [])).contains (normalizeLabel db node.label)

/-- `next(iter(candidates)) if len(candidates) == 1`. -/
def onlyCandidate (candidates : Finset (List Char)) : Option (List Char) :=
  match sorted candidates with
  | [kpId] => some kpId
  | _ => none

def resolveNode (points : List KnowledgePoint) (node : MermaidNodeDraft) : Option (List Char) :=
  if (pointById points node.nodeId).isSome then some node.nodeId
  else onlyCandidate (labelIndex db points (normalizeLabel db node.label))

/-- The node has the identifier of a point and another label. -/
def idLabelMismatch (points : List KnowledgePoint) (node : MermaidNodeDraft) : Bool :=
  (pointById points node.nodeId).any fun point => !labelMatchesPoint db node point

/-- `mapped[node.node_id]`. -/
def kpOf (points : List KnowledgePoint) (node : MermaidNodeDraft) : Option (List Char) :=
  if idLabelMismatch db points node then none else resolveNode db points node

/-! ### The loops -/

/-- What the loop over the nodes keeps. -/
structure NodeFindings where
  mapped : List (List Char × Option (List Char))
  ambiguous : Finset (List Char)
  idLabelMismatches : Finset (List Char)
  unknown : Finset (List Char)

def NodeFindings.empty : NodeFindings := ⟨[], ∅, ∅, ∅⟩

/-- One turn of the loop over the nodes. -/
def readNode (points : List KnowledgePoint) (found : NodeFindings) (node : MermaidNodeDraft) : NodeFindings :=
  let unresolved := kpOf db points node = none
  let shared := 1 < (labelIndex db points (normalizeLabel db node.label)).card
  { mapped := found.mapped ++ [(node.nodeId, kpOf db points node)]
    ambiguous := if unresolved ∧ shared then insert node.nodeId found.ambiguous else found.ambiguous
    idLabelMismatches :=
      if idLabelMismatch db points node then insert node.nodeId found.idLabelMismatches
      else found.idLabelMismatches
    unknown := if unresolved ∧ ¬ shared then insert node.nodeId found.unknown else found.unknown }

/-- The loop over the nodes. -/
def readNodes (points : List KnowledgePoint) (nodes : List MermaidNodeDraft) : NodeFindings :=
  nodes.foldl (readNode db points) .empty

end labels

/-- `mapped.get(node_id)`. -/
def NodeFindings.get (found : NodeFindings) (nodeId : List Char) : Option (List Char) :=
  (found.mapped.lookup nodeId).join

inductive MismatchCode where
  | EDGE_ENDPOINT_UNRESOLVED
  | PREREQUISITE_EDGE_NOT_IN_TOPIC1
  | RELATION_NOT_VERIFIABLE_FROM_TOPIC1
  | TOPIC1_PREREQUISITE_OMITTED
  | PREREQUISITE_SUBGRAPH_CYCLE
  | AMBIGUOUS_TOPIC1_LABEL
  | TOPIC1_NODE_ID_LABEL_MISMATCH
  | UNKNOWN_TOPIC1_NODE
  | AUTHORITATIVE_EVIDENCE_MISSING
deriving DecidableEq, Repr

def MismatchCode.value : MismatchCode → String
  | .EDGE_ENDPOINT_UNRESOLVED => "EDGE_ENDPOINT_UNRESOLVED"
  | .PREREQUISITE_EDGE_NOT_IN_TOPIC1 => "PREREQUISITE_EDGE_NOT_IN_TOPIC1"
  | .RELATION_NOT_VERIFIABLE_FROM_TOPIC1 => "RELATION_NOT_VERIFIABLE_FROM_TOPIC1"
  | .TOPIC1_PREREQUISITE_OMITTED => "TOPIC1_PREREQUISITE_OMITTED"
  | .PREREQUISITE_SUBGRAPH_CYCLE => "PREREQUISITE_SUBGRAPH_CYCLE"
  | .AMBIGUOUS_TOPIC1_LABEL => "AMBIGUOUS_TOPIC1_LABEL"
  | .TOPIC1_NODE_ID_LABEL_MISMATCH => "TOPIC1_NODE_ID_LABEL_MISMATCH"
  | .UNKNOWN_TOPIC1_NODE => "UNKNOWN_TOPIC1_NODE"
  | .AUTHORITATIVE_EVIDENCE_MISSING => "AUTHORITATIVE_EVIDENCE_MISSING"

/-- What the loop over the edges keeps; `keys` are the keys of `adjacency`. -/
structure EdgeFindings where
  invalidEdgeIds : Finset (List Char)
  mismatchCodes : Finset MismatchCode
  declaredPrerequisites : Finset (List Char × List Char)
  adjacency : List Char → Finset (List Char)
  keys : Finset (List Char)

def EdgeFindings.empty : EdgeFindings := ⟨∅, ∅, ∅, fun _ => ∅, ∅⟩

/-- `f"E{edge.ordinal}"`. -/
def edgeId (edge : MermaidEdgeDraft) : List Char := 'E' :: Nat.toDigits 10 edge.ordinal

/-- `invalid_edge_ids.add(...)` and `mismatch_codes.add(...)`. -/
def EdgeFindings.reject (found : EdgeFindings) (edge : MermaidEdgeDraft) (code : MismatchCode) :
    EdgeFindings :=
  { found with
    invalidEdgeIds := insert (edgeId edge) found.invalidEdgeIds
    mismatchCodes := insert code found.mismatchCodes }

/-- `declared_prerequisites.add(...)` and `adjacency.setdefault(...).add(...)`. -/
def EdgeFindings.declare (found : EdgeFindings) (source target : List Char) : EdgeFindings :=
  { found with
    declaredPrerequisites := insert (source, target) found.declaredPrerequisites
    adjacency := Function.update found.adjacency source (insert target (found.adjacency source))
    keys := insert source found.keys }

/-- One turn of the loop over the edges. -/
def readEdge (mapped : NodeFindings) (authoritativeEdges : Finset (List Char × List Char))
    (found : EdgeFindings) (edge : MermaidEdgeDraft) : EdgeFindings :=
  match mapped.get edge.sourceNodeId, mapped.get edge.targetNodeId with
  | some source, some target =>
    if edge.relation = .PREREQUISITE then
      if (source, target) ∈ authoritativeEdges then found.declare source target
      else (found.declare source target).reject edge .PREREQUISITE_EDGE_NOT_IN_TOPIC1
    else found.reject edge .RELATION_NOT_VERIFIABLE_FROM_TOPIC1
  | _, _ => found.reject edge .EDGE_ENDPOINT_UNRESOLVED

/-- The loop over the edges. -/
def readEdges (mapped : NodeFindings) (authoritativeEdges : Finset (List Char × List Char))
    (edges : List MermaidEdgeDraft) : EdgeFindings :=
  edges.foldl (readEdge mapped authoritativeEdges) .empty

def authoritativeEdges (prerequisites : List Prerequisite) : Finset (List Char × List Char) :=
  (prerequisites.map fun edge => (edge.prerequisiteKpId, edge.dependentKpId)).toFinset

/-- `graph_kp_ids`. -/
def NodeFindings.kpIds (found : NodeFindings) : Finset (List Char) := (found.mapped.filterMap (·.2)).toFinset

/-- `mismatch_codes.add(code)` under a condition. -/
def codeIf (condition : Prop) [Decidable condition] (code : MismatchCode) : Finset MismatchCode :=
  if condition then {code} else ∅

section verify
variable (policy : GraphVerificationPolicy)

/-- `unknown` after the update by `ambiguous` and `id_label_mismatches`. -/
def NodeFindings.allUnknown (found : NodeFindings) : Finset (List Char) :=
  found.unknown ∪ found.ambiguous ∪ found.idLabelMismatches

/-- `mismatch_codes` after both loops. -/
def mismatchCodes (nodes : NodeFindings) (edges : EdgeFindings)
    (authoritativeEdges : Finset (List Char × List Char)) (evidenceRefIds : List ℕ) : Finset MismatchCode :=
  edges.mismatchCodes ∪
    codeIf (policy.requireDeclaredPrerequisites ∧ ∃ edge ∈ authoritativeEdges,
      (edge.1 ∈ nodes.kpIds ∧ edge.2 ∈ nodes.kpIds) ∧ edge ∉ edges.declaredPrerequisites)
      .TOPIC1_PREREQUISITE_OMITTED ∪
    codeIf (hasCycle edges.adjacency edges.keys) .PREREQUISITE_SUBGRAPH_CYCLE ∪
    codeIf (nodes.ambiguous ≠ ∅) .AMBIGUOUS_TOPIC1_LABEL ∪
    codeIf (nodes.idLabelMismatches ≠ ∅) .TOPIC1_NODE_ID_LABEL_MISMATCH ∪
    codeIf (nodes.allUnknown ≠ ∅ ∧ policy.requireExplicitNodes) .UNKNOWN_TOPIC1_NODE ∪
    codeIf (evidenceRefIds = []) .AUTHORITATIVE_EVIDENCE_MISSING

def contradictions : Finset MismatchCode :=
  {.PREREQUISITE_SUBGRAPH_CYCLE, .PREREQUISITE_EDGE_NOT_IN_TOPIC1, .TOPIC1_PREREQUISITE_OMITTED}

/-- `_verdict`. -/
def verdictOf (unknown invalidEdgeIds : Finset (List Char)) (codes : Finset MismatchCode) :
    VerificationVerdict :=
  if contradictions ∩ codes ≠ ∅ then .CONTRADICTED
  else if unknown ≠ ∅ ∨ invalidEdgeIds ≠ ∅ ∨ codes ≠ ∅ then .INSUFFICIENT_EVIDENCE
  else .SUPPORTED

def confidenceOf : VerificationVerdict → ℚ
  | .SUPPORTED => 98 / 100
  | .CONTRADICTED => 96 / 100
  | .INSUFFICIENT_EVIDENCE => 30 / 100
  | _ => 0

/-! ### `verify` -/

variable {D : Type} (P : Platform D) (context : VerificationContext)

def validateSnapshot (snapshot : GraphSnapshot D) : Except Exn Unit := do
  ensure (P.contentSha256 snapshot.content = snapshot.contentSha256) (graphIntegrityError "content SHA256")
  ensure (snapshot.nodeCount = snapshot.content.knowledgePoints.length) (graphIntegrityError "node count")
  ensure (snapshot.edgeCount = snapshot.content.prerequisites.length) (graphIntegrityError "edge count")

def nodeRecord (found : NodeFindings) (node : MermaidNodeDraft) : VerifierGraphNode where
  context
  nodeId := node.nodeId
  label := node.label
  topic1KnowledgePointId := (found.get node.nodeId).map fun kpId => P.uuid5 P.namespaceUrl
    ("liyans:topic1:knowledge-point:" ++ context.tenantId ++ ":" ++ String.ofList kpId)
  nodeType := if (found.get node.nodeId).isSome then "KNOWLEDGE_POINT".toList else node.nodeType.toList

def edgeRecord (edge : MermaidEdgeDraft) : VerifierGraphEdge where
  context
  edgeId := edgeId edge
  sourceNodeId := edge.sourceNodeId
  targetNodeId := edge.targetNodeId
  relation := edge.relation
  directed := edge.directed

def graphVerifierVersion : String := "c4-graph-verifier-v1"

/-- The identifier of the graph record. -/
def graphIrId (parsed : ParsedMermaidGraph) : ℕ :=
  P.uuid5 context.claimId (graphVerifierVersion ++ ":" ++ P.textSha256 parsed.normalizedSource)

def resultRecord (irId : ℕ) (nodes : NodeFindings) (edges : EdgeFindings) (codes : Finset MismatchCode)
    (evidenceRefIds : List ℕ) : GraphVerificationResult :=
  let verdict := verdictOf nodes.allUnknown edges.invalidEdgeIds codes
  { context
    graphVerificationResultId := P.uuid5 irId (graphVerifierVersion ++ ":result")
    verifierGraphIrId := irId
    syntaxValid := true
    nodeIdsUnique := true
    edgeEndpointsValid := decide (edges.invalidEdgeIds = ∅ ∨ .EDGE_ENDPOINT_UNRESOLVED ∉ codes)
    prerequisiteSubgraphAcyclic := !hasCycle edges.adjacency edges.keys
    unknownTopic1NodeIds := sorted nodes.allUnknown
    invalidEdgeIds := sorted edges.invalidEdgeIds
    topologyMismatchCodes := sorted (codes.image MismatchCode.value)
    evidenceRefIds
    verdict
    confidence := confidenceOf verdict }

def verify (parsed : ParsedMermaidGraph) (snapshot : GraphSnapshot D) (evidenceRefIds : List ℕ) :
    Except Exn GraphAnalysis := do
  validateSnapshot P snapshot
  let nodes := readNodes P.db snapshot.content.knowledgePoints parsed.nodes
  let graphNodes ← parsed.nodes.mapM fun node => (nodeRecord P context nodes node).build
  let graphEdges ← parsed.edges.mapM fun edge => (edgeRecord context edge).build
  let irId := graphIrId P context parsed
  let graphIr ← VerifierGraphIR.build
    ⟨context, irId, parsed.parserVersion, parsed.direction, graphNodes, graphEdges⟩
  let authoritative := authoritativeEdges snapshot.content.prerequisites
  let edges := readEdges nodes authoritative parsed.edges
  let codes := mismatchCodes policy nodes edges authoritative evidenceRefIds
  let result ← (resultRecord P context irId nodes edges codes evidenceRefIds).build
  return ⟨graphIr, result, sorted nodes.allUnknown⟩

end verify

/-! ### Names -/

variable {db : Unicode.Database} {points : List KnowledgePoint} {node : MermaidNodeDraft}

/-- The label is a name of the point, and not one without letters. -/
def Named (db : Unicode.Database) (label : List Char) (point : KnowledgePoint) : Prop :=
  normalizeLabel db label ≠ [] ∧ ∃ name ∈ point.names, normalizeLabel db name = normalizeLabel db label

/-- The node resolves to the point: it has its identifier and one of its names, or the identifier of no point
and a name of this point only. -/
def ResolvesTo (db : Unicode.Database) (points : List KnowledgePoint) (node : MermaidNodeDraft)
    (point : KnowledgePoint) : Prop :=
  point ∈ points ∧ Named db node.label point ∧
    (point.kpId = node.nodeId ∨
      (∀ other ∈ points, other.kpId ≠ node.nodeId) ∧
        ∀ other ∈ points, Named db node.label other → other = point)

variable {index : List Char → Finset (List Char)}

theorem mem_indexName {kpId value label x : List Char} :
    x ∈ indexName db kpId index value label ↔
      x ∈ index label ∨ x = kpId ∧ label ≠ [] ∧ normalizeLabel db value = label := by
  unfold indexName
  split_ifs with hempty
  · constructor
    · exact .inl
    · rintro (h | ⟨-, hne, rfl⟩)
      · exact h
      · exact absurd hempty hne
  · by_cases hlabel : label = normalizeLabel db value
    · subst hlabel
      rw [Function.update_self, Finset.mem_insert]
      constructor
      · rintro (rfl | h)
        · exact .inr ⟨rfl, hempty, rfl⟩
        · exact .inl h
      · rintro (h | ⟨rfl, -⟩)
        · exact .inr h
        · exact .inl rfl
    · rw [Function.update_of_ne hlabel]
      exact ⟨.inl, fun h => h.elim id fun h => absurd h.2.2.symm hlabel⟩

theorem mem_indexNames {kpId label x : List Char} {names : List (List Char)} :
    x ∈ names.foldl (indexName db kpId) index label ↔
      x ∈ index label ∨ x = kpId ∧ label ≠ [] ∧ ∃ name ∈ names, normalizeLabel db name = label := by
  induction names generalizing index with
  | nil => simp
  | cons name names ih =>
    rw [List.foldl_cons, ih, mem_indexName, List.exists_mem_cons_iff]
    tauto

theorem mem_indexPoints {label x : List Char} :
    x ∈ points.foldl (fun index point => point.names.foldl (indexName db point.kpId) index) index label ↔
      x ∈ index label ∨ ∃ point ∈ points, point.kpId = x ∧ label ≠ [] ∧
        ∃ name ∈ point.names, normalizeLabel db name = label := by
  induction points generalizing index with
  | nil => simp
  | cons point points ih =>
    rw [List.foldl_cons, ih, mem_indexNames, List.exists_mem_cons_iff, or_assoc, eq_comm]

theorem mem_labelIndex {label kpId : List Char} :
    kpId ∈ labelIndex db points (normalizeLabel db label) ↔
      ∃ point ∈ points, point.kpId = kpId ∧ Named db label point := by
  unfold labelIndex
  rw [mem_indexPoints]
  simp only [Finset.notMem_empty, false_or]
  rfl

theorem labelMatchesPoint_iff {point : KnowledgePoint} :
    labelMatchesPoint db node point = true ↔ Named db node.label point := by
  unfold labelMatchesPoint Named
  rw [List.contains_iff_mem, List.mem_filter, List.mem_map, decide_eq_true_eq]
  exact and_comm

theorem pointById_eq_some (hnodup : (points.map (·.kpId)).Nodup) {nodeId : List Char}
    {point : KnowledgePoint} :
    pointById points nodeId = some point ↔ point ∈ points ∧ point.kpId = nodeId := by
  unfold pointById
  constructor
  · intro h
    exact ⟨List.mem_of_find?_eq_some h, by simpa using List.find?_some h⟩
  · rintro ⟨hpoint, rfl⟩
    exact find?_key_eq_some hnodup hpoint

theorem pointById_eq_none {nodeId : List Char} :
    pointById points nodeId = none ↔ ∀ point ∈ points, point.kpId ≠ nodeId := by
  unfold pointById
  rw [List.find?_eq_none]
  simp only [decide_eq_true_eq, ne_eq]

variable {kpId : List Char}

theorem onlyCandidate_eq_some {candidates : Finset (List Char)} :
    onlyCandidate candidates = some kpId ↔ candidates = {kpId} := by
  have hset : ∀ x, x ∈ candidates ↔ x ∈ sorted candidates := fun x => mem_sorted.symm
  have hnodup := nodup_sorted candidates
  unfold onlyCandidate
  constructor
  · intro h
    split at h
    · rename_i kp hsorted
      cases h
      ext x
      rw [hset, hsorted, List.mem_singleton, Finset.mem_singleton]
    · cases h
  · rintro rfl
    have hsorted : sorted ({kpId} : Finset (List Char)) = [kpId] := by
      have hlength := length_sorted ({kpId} : Finset (List Char))
      rw [Finset.card_singleton] at hlength
      obtain ⟨x, hx⟩ := List.length_eq_one_iff.mp hlength
      have hmem : x ∈ sorted ({kpId} : Finset (List Char)) := by rw [hx]; exact List.mem_singleton_self x
      rw [hx, Finset.mem_singleton.mp (mem_sorted.mp hmem)]
    rw [hsorted]

/-- **A node is mapped to the point that it resolves to.** -/
theorem kpOf_eq_some (hnodup : (points.map (·.kpId)).Nodup) :
    kpOf db points node = some kpId ↔ ∃ point, ResolvesTo db points node point ∧ point.kpId = kpId := by
  have hsame : ∀ point ∈ points, ∀ other ∈ points, point.kpId = other.kpId → point = other :=
    fun point hpoint other hother => List.inj_on_of_nodup_map hnodup hpoint hother
  unfold kpOf idLabelMismatch resolveNode
  cases hpoint : pointById points node.nodeId with
  | some point =>
    obtain ⟨hmem, hid⟩ := (pointById_eq_some hnodup).mp hpoint
    have hnamed : labelMatchesPoint db node point = true ↔ Named db node.label point :=
      labelMatchesPoint_iff
    have honly : (∃ other, ResolvesTo db points node other ∧ other.kpId = kpId) ↔
        Named db node.label point ∧ node.nodeId = kpId := by
      constructor
      · rintro ⟨other, ⟨hother, hname, hid' | hnone⟩, rfl⟩
        · have heq := hsame other hother point hmem (hid'.trans hid.symm)
          exact ⟨heq ▸ hname, hid'.symm⟩
        · exact absurd hid (hnone.1 point hmem)
      · rintro ⟨hname, rfl⟩
        exact ⟨point, ⟨hmem, hname, .inl hid⟩, hid⟩
    rw [honly, ← hnamed]
    simp
  | none =>
    have hnone := pointById_eq_none.mp hpoint
    simp only [Option.any_none, Bool.false_eq_true, if_false, Option.isSome_none]
    rw [onlyCandidate_eq_some, Finset.eq_singleton_iff_unique_mem]
    constructor
    · rintro ⟨hin, hunique⟩
      obtain ⟨point, hmem, rfl, hname⟩ := mem_labelIndex.mp hin
      refine ⟨point, ⟨hmem, hname, .inr ⟨hnone, fun other hother hname' => ?_⟩⟩, rfl⟩
      exact hsame other hother point hmem (hunique _ (mem_labelIndex.mpr ⟨other, hother, rfl, hname'⟩))
    · rintro ⟨point, ⟨hmem, hname, hid | hunique⟩, rfl⟩
      · exact absurd hid (hnone point hmem)
      · refine ⟨mem_labelIndex.mpr ⟨point, hmem, rfl, hname⟩, fun x hx => ?_⟩
        obtain ⟨other, hother, rfl, hname'⟩ := mem_labelIndex.mp hx
        rw [hunique.2 other hother hname']

/-! ### What the loops find -/

section loops
variable {nodes : List MermaidNodeDraft} {x : List Char}

theorem readNodes_eq (db : Unicode.Database) (points : List KnowledgePoint) (nodes : List MermaidNodeDraft) :
    (readNodes db points nodes).mapped = nodes.map fun node => (node.nodeId, kpOf db points node) := by
  induction nodes using List.reverseRecOn with
  | nil => rfl
  | append_singleton nodes node ih =>
    unfold readNodes at ih ⊢
    rw [List.foldl_append, List.map_append, ← ih]
    rfl

omit nodes x in
theorem mem_foldl_insert {σ α κ : Type} [DecidableEq κ] {step : σ → α → σ} {get : σ → Finset κ} {key : α → κ}
    {p : α → Prop} [DecidablePred p]
    (hstep : ∀ s a, get (step s a) = if p a then insert (key a) (get s) else get s) {l : List α} {s : σ}
    {k : κ} : k ∈ get (l.foldl step s) ↔ k ∈ get s ∨ ∃ a ∈ l, key a = k ∧ p a := by
  induction l generalizing s with
  | nil => simp
  | cons a l ih =>
    rw [List.foldl_cons, ih, hstep, List.exists_mem_cons_iff, ← or_assoc]
    refine or_congr_left ?_
    split_ifs with hp
    · rw [Finset.mem_insert, or_comm, eq_comm, and_iff_left hp]
    · exact (or_iff_left fun h => hp h.2).symm

theorem mem_ambiguous : x ∈ (readNodes db points nodes).ambiguous ↔
    ∃ node ∈ nodes, node.nodeId = x ∧ kpOf db points node = none ∧
      1 < (labelIndex db points (normalizeLabel db node.label)).card :=
  (mem_foldl_insert fun _ _ => rfl).trans (or_iff_right (Finset.notMem_empty x))

theorem mem_idLabelMismatches : x ∈ (readNodes db points nodes).idLabelMismatches ↔
    ∃ node ∈ nodes, node.nodeId = x ∧ idLabelMismatch db points node = true :=
  (mem_foldl_insert fun _ _ => rfl).trans (or_iff_right (Finset.notMem_empty x))

theorem mem_unknown : x ∈ (readNodes db points nodes).unknown ↔
    ∃ node ∈ nodes, node.nodeId = x ∧ kpOf db points node = none ∧
      ¬ 1 < (labelIndex db points (normalizeLabel db node.label)).card :=
  (mem_foldl_insert fun _ _ => rfl).trans (or_iff_right (Finset.notMem_empty x))

theorem mem_allUnknown : x ∈ (readNodes db points nodes).allUnknown ↔
    ∃ node ∈ nodes, node.nodeId = x ∧ kpOf db points node = none := by
  unfold NodeFindings.allUnknown
  rw [Finset.mem_union, Finset.mem_union, mem_unknown, mem_ambiguous, mem_idLabelMismatches]
  constructor
  · rintro ((⟨node, hnode, hid, h, -⟩ | ⟨node, hnode, hid, h, -⟩) | ⟨node, hnode, hid, h⟩)
    · exact ⟨node, hnode, hid, h⟩
    · exact ⟨node, hnode, hid, h⟩
    · exact ⟨node, hnode, hid, by rw [kpOf, if_pos h]⟩
  · rintro ⟨node, hnode, hid, h⟩
    by_cases hshared : 1 < (labelIndex db points (normalizeLabel db node.label)).card
    · exact .inl (.inr ⟨node, hnode, hid, h, hshared⟩)
    · exact .inl (.inl ⟨node, hnode, hid, h, hshared⟩)

theorem get_eq_some (hnodup : (nodes.map (·.nodeId)).Nodup) :
    (readNodes db points nodes).get x = some kpId ↔
      ∃ node ∈ nodes, node.nodeId = x ∧ kpOf db points node = some kpId := by
  unfold NodeFindings.get
  rw [readNodes_eq]
  induction nodes with
  | nil => simp
  | cons node nodes ih =>
    rw [List.map_cons, List.nodup_cons] at hnodup
    rw [List.map_cons, List.lookup_cons, List.exists_mem_cons_iff]
    by_cases hid : x = node.nodeId
    · subst hid
      have hother : ¬ ∃ other ∈ nodes, other.nodeId = node.nodeId ∧ kpOf db points other = some kpId := by
        rintro ⟨other, hmem, heq, -⟩
        exact hnodup.1 (heq ▸ List.mem_map_of_mem hmem)
      simp [hother]
    · have hne : (x == node.nodeId) = false := beq_eq_false_iff_ne.mpr hid
      rw [hne, ih hnodup.2]
      have hsymm : ¬ node.nodeId = x := fun h => hid h.symm
      simp [hsymm]

theorem mem_kpIds : kpId ∈ (readNodes db points nodes).kpIds ↔
    ∃ node ∈ nodes, kpOf db points node = some kpId := by
  unfold NodeFindings.kpIds
  rw [readNodes_eq, List.mem_toFinset, List.mem_filterMap]
  simp [List.mem_map]

variable {mapped : NodeFindings} {authoritative : Finset (List Char × List Char)}
  {edges : List MermaidEdgeDraft}

/-- The prerequisite that an edge declares. -/
def declaredBy (mapped : NodeFindings) (edge : MermaidEdgeDraft) : Option (List Char × List Char) :=
  match mapped.get edge.sourceNodeId, mapped.get edge.targetNodeId with
  | some source, some target => if edge.relation = .PREREQUISITE then some (source, target) else none
  | _, _ => none

def codeOf (mapped : NodeFindings) (authoritative : Finset (List Char × List Char))
    (edge : MermaidEdgeDraft) :
    Option MismatchCode :=
  match mapped.get edge.sourceNodeId, mapped.get edge.targetNodeId with
  | some source, some target =>
    if edge.relation = .PREREQUISITE then
      if (source, target) ∈ authoritative then none else some .PREREQUISITE_EDGE_NOT_IN_TOPIC1
    else some .RELATION_NOT_VERIFIABLE_FROM_TOPIC1
  | _, _ => some .EDGE_ENDPOINT_UNRESOLVED

theorem readEdge_eq (found : EdgeFindings) (edge : MermaidEdgeDraft) :
    readEdge mapped authoritative found edge =
      let after := (declaredBy mapped edge).elim found fun p => found.declare p.1 p.2
      (codeOf mapped authoritative edge).elim after fun code => after.reject edge code := by
  unfold readEdge declaredBy codeOf
  split
  · split_ifs
    · rfl
    · rfl
    · rfl
  · rfl

/-- What the loop over the edges keeps of those that it has read. -/
structure Read (mapped : NodeFindings) (authoritative : Finset (List Char × List Char))
    (edges : List MermaidEdgeDraft) (found : EdgeFindings) : Prop where
  codes : ∀ code, code ∈ found.mismatchCodes ↔ ∃ edge ∈ edges, codeOf mapped authoritative edge = some code
  invalid : ∀ x, x ∈ found.invalidEdgeIds ↔
    ∃ edge ∈ edges, edgeId edge = x ∧ codeOf mapped authoritative edge ≠ none
  declared : ∀ p, p ∈ found.declaredPrerequisites ↔ ∃ edge ∈ edges, declaredBy mapped edge = some p
  adjacency : ∀ a b, b ∈ found.adjacency a ↔ (a, b) ∈ found.declaredPrerequisites
  keys : ∀ a, a ∈ found.keys ↔ ∃ b, (a, b) ∈ found.declaredPrerequisites

section turn
variable (found : EdgeFindings) (edge : MermaidEdgeDraft)

theorem mem_readEdge_codes {code : MismatchCode} :
    code ∈ (readEdge mapped authoritative found edge).mismatchCodes ↔
      code ∈ found.mismatchCodes ∨ codeOf mapped authoritative edge = some code := by
  rw [readEdge_eq]
  cases declaredBy mapped edge <;> cases codeOf mapped authoritative edge <;>
    simp [EdgeFindings.reject, EdgeFindings.declare, or_comm, eq_comm]

theorem mem_readEdge_invalid {x : List Char} :
    x ∈ (readEdge mapped authoritative found edge).invalidEdgeIds ↔
      x ∈ found.invalidEdgeIds ∨ edgeId edge = x ∧ codeOf mapped authoritative edge ≠ none := by
  rw [readEdge_eq]
  cases declaredBy mapped edge <;> cases codeOf mapped authoritative edge <;>
    simp [EdgeFindings.reject, EdgeFindings.declare, or_comm, eq_comm]

theorem mem_readEdge_declared {p : List Char × List Char} :
    p ∈ (readEdge mapped authoritative found edge).declaredPrerequisites ↔
      p ∈ found.declaredPrerequisites ∨ declaredBy mapped edge = some p := by
  rw [readEdge_eq]
  cases declaredBy mapped edge <;> cases codeOf mapped authoritative edge <;>
    simp [EdgeFindings.reject, EdgeFindings.declare, or_comm, eq_comm]

theorem mem_readEdge_keys {a : List Char} :
    a ∈ (readEdge mapped authoritative found edge).keys ↔
      a ∈ found.keys ∨ ∃ b, declaredBy mapped edge = some (a, b) := by
  rw [readEdge_eq]
  cases declaredBy mapped edge <;> cases codeOf mapped authoritative edge <;>
    simp [EdgeFindings.reject, EdgeFindings.declare, or_comm, eq_comm, Prod.ext_iff]

theorem mem_readEdge_adjacency {a b : List Char} :
    b ∈ (readEdge mapped authoritative found edge).adjacency a ↔
      b ∈ found.adjacency a ∨ declaredBy mapped edge = some (a, b) := by
  have hkept : (readEdge mapped authoritative found edge).adjacency
      = ((declaredBy mapped edge).elim found fun p => found.declare p.1 p.2).adjacency := by
    rw [readEdge_eq]
    cases codeOf mapped authoritative edge <;> rfl
  rw [hkept]
  cases declaredBy mapped edge with
  | none => simp
  | some p =>
    show b ∈ Function.update found.adjacency p.1 (insert p.2 (found.adjacency p.1)) a ↔ _
    by_cases ha : a = p.1
    · subst ha
      simp [or_comm, eq_comm, Prod.ext_iff]
    · have ha' : ¬ p.1 = a := fun h => ha h.symm
      simp [ha, ha', Prod.ext_iff]

end turn

theorem Read.step {found : EdgeFindings} (h : Read mapped authoritative edges found)
    (edge : MermaidEdgeDraft) :
    Read mapped authoritative (edges ++ [edge]) (readEdge mapped authoritative found edge) where
  codes code := by
    rw [mem_readEdge_codes, h.codes]
    simp
  invalid x := by
    rw [mem_readEdge_invalid, h.invalid]
    simp
  declared p := by
    rw [mem_readEdge_declared, h.declared]
    simp
  adjacency a b := by rw [mem_readEdge_adjacency, h.adjacency, mem_readEdge_declared]
  keys a := by
    rw [mem_readEdge_keys, h.keys, ← exists_or]
    exact exists_congr fun b => (mem_readEdge_declared found edge).symm

/-- **The loop over the edges.** -/
theorem readEdges_read (mapped : NodeFindings) (authoritative : Finset (List Char × List Char))
    (edges : List MermaidEdgeDraft) :
    Read mapped authoritative edges (readEdges mapped authoritative edges) := by
  induction edges using List.reverseRecOn with
  | nil =>
    refine ⟨?_, ?_, ?_, ?_, ?_⟩
    all_goals simp [readEdges, EdgeFindings.empty]
  | append_singleton edges edge ih =>
    unfold readEdges at ih ⊢
    rw [List.foldl_append]
    exact ih.step edge

end loops

end CyberControl.GraphVerification
