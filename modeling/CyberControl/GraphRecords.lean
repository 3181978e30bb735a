import CyberControl.GraphVerifier

/-! # The records of a graph verification

When the contracts accept the records that `verify` builds for a parsed graph. -/

namespace CyberControl.GraphVerification

open ClaimExtraction (toDigits_injective)
open Collections
open Compliance (dropWhile_of_head isWhiteSpace isWhiteSpace_range)
open Mermaid (MermaidEdgeDraft MermaidNodeDraft MermaidPolicy ParsedMermaidGraph identifier_chars isIdentifier
  isIdentifierChar isIdentifier_length)

/-! ### Fields -/

theorem validated_eq_ok {α : Type} {errors : List String} {record record' : α} :
    validated errors record = .ok record' ↔ errors = [] ∧ record = record' := by
  unfold validated
  split_ifs with h
  · exact ⟨fun heq => ⟨h, Except.ok.inj heq⟩, fun heq => congrArg _ heq.2⟩
  · exact ⟨nofun, fun heq => absurd heq.1 h⟩

theorem checkErrors_eq_nil {condition : Prop} [Decidable condition] {text : String} :
    (if condition then [] else [text]) = [] ↔ condition := by
  split_ifs with h <;> simp [h]

variable {text : List Char} {name : String}

theorem textErrors_eq_nil {bound : ℕ} :
    textErrors name bound text = [] ↔ strip text ≠ [] ∧ (strip text).length ≤ bound := by
  unfold textErrors
  rw [← List.length_pos_iff_ne_nil]
  exact checkErrors_eq_nil

theorem listErrors_eq_nil {α : Type} {bound : ℕ} {items : List α} :
    listErrors name bound items = [] ↔ items.length ≤ bound := by
  unfold listErrors
  exact checkErrors_eq_nil

theorem strip_of_visible (h : ∀ c ∈ text, isWhiteSpace c = false) : strip text = text := by
  unfold strip
  rw [dropWhile_of_head fun c hc => h c (List.mem_of_mem_head? hc), List.rdropWhile,
    dropWhile_of_head fun c hc => h c (List.mem_reverse.mp (List.mem_of_mem_head? hc)), List.reverse_reverse]

theorem isWhiteSpace_identifierChar {c : Char} (h : isIdentifierChar c = true) : isWhiteSpace c = false := by
  rw [Bool.eq_false_iff]
  intro hspace
  have hrange := isWhiteSpace_range hspace
  have hbounds : 45 ≤ c.toNat ∧ c.toNat ≤ 122 := by
    unfold isIdentifierChar Char.isAlphanum Char.isAlpha Char.isUpper Char.isLower Char.isDigit at h
    simp only [Bool.or_eq_true, Bool.and_eq_true, decide_eq_true_eq, ge_iff_le, UInt32.le_iff_toNat_le] at h
    have hnat : c.val.toNat = c.toNat := rfl
    rcases h with (((h | h) | h) | rfl) | rfl
    · simp at h
      omega
    · simp at h
      omega
    · simp at h
      omega
    · decide
    · decide
  omega

theorem strip_identifier (h : isIdentifier text) : strip text = text :=
  strip_of_visible fun c hc => isWhiteSpace_identifierChar (identifier_chars h c hc)

theorem identifierErrors (h : isIdentifier text) :
    textErrors name 128 text = [] := by
  have hlength := isIdentifier_length h
  rw [textErrors_eq_nil, strip_identifier h, ← List.length_pos_iff_ne_nil]
  exact hlength

/-! ### Nodes -/

variable {D : Type} {P : Platform D} {context : VerificationContext} {mermaidPolicy : MermaidPolicy}
  {found : NodeFindings} {graph : ParsedMermaidGraph}

theorem nodeTypeErrors {nodeType : String} (h : nodeType ∈ Mermaid.nodeTypes) :
    textErrors "node_type" 128 nodeType.toList = [] ∧ strip nodeType.toList = nodeType.toList := by
  have hall : ∀ name ∈ Mermaid.nodeTypes,
      textErrors "node_type" 128 name.toList = [] ∧ strip name.toList = name.toList := by decide
  exact hall nodeType h

theorem nodeRecord_build {node : MermaidNodeDraft} (hnode : node.Proper mermaidPolicy)
    {record : VerifierGraphNode} : (nodeRecord P context found node).build = .ok record ↔
      (strip node.label ≠ [] ∧ (strip node.label).length ≤ 512) ∧
        record = { nodeRecord P context found node with label := strip node.label } := by
  have htype : textErrors "node_type" 128 (nodeRecord P context found node).nodeType = [] ∧
      strip (nodeRecord P context found node).nodeType = (nodeRecord P context found node).nodeType := by
    unfold nodeRecord
    dsimp only
    split_ifs
    · exact ⟨by decide, by decide⟩
    · exact nodeTypeErrors hnode.nodeType
  have hid : textErrors "node_id" 128 (nodeRecord P context found node).nodeId = [] :=
    identifierErrors hnode.nodeId
  have hstrip : strip (nodeRecord P context found node).nodeId = (nodeRecord P context found node).nodeId :=
    strip_identifier hnode.nodeId
  unfold VerifierGraphNode.build
  rw [validated_eq_ok, hid, htype.1, htype.2, hstrip, List.nil_append, List.append_nil, textErrors_eq_nil]
  exact and_congr_right fun _ => eq_comm

/-! ### Edges -/

theorem edgeId_chars (edge : MermaidEdgeDraft) : ∀ c ∈ edgeId edge, isWhiteSpace c = false := by
  intro c hc
  refine isWhiteSpace_identifierChar ?_
  cases List.mem_cons.mp hc with
  | inl heq =>
    rw [heq]
    decide
  | inr hmem =>
    have hdigit := Nat.isDigit_of_mem_toDigits (by decide) (by decide) hmem
    unfold isIdentifierChar Char.isAlphanum
    rw [hdigit, Bool.or_true, Bool.true_or, Bool.true_or]

theorem edgeId_injective {edge edge' : MermaidEdgeDraft} (h : edgeId edge = edgeId edge') :
    edge.ordinal = edge'.ordinal := toDigits_injective (List.cons.inj h).2

theorem edgeId_length {edge : MermaidEdgeDraft} (h : edge.ordinal < 16384) : (edgeId edge).length ≤ 6 := by
  have hdigits : (Nat.toDigits 10 edge.ordinal).length ≤ 5 :=
    (Nat.length_toDigits_le_iff (by decide) (by decide)).mpr (by omega)
  rw [edgeId, List.length_cons]
  omega

theorem edgeRecord_build (h : graph.WellFormed mermaidPolicy) {edge : MermaidEdgeDraft}
    (hedge : edge ∈ graph.edges) : (edgeRecord context edge).build = .ok (edgeRecord context edge) := by
  have hident : ∀ nodeId ∈ graph.nodes.map (·.nodeId), isIdentifier nodeId := by
    intro nodeId hmem
    obtain ⟨node, hnode, rfl⟩ := List.mem_map.mp hmem
    exact (h.drawn.proper node hnode).nodeId
  have hjoins := h.drawn.joins edge hedge
  have hordinal : edge.ordinal < 16384 := by
    have hmem : edge.ordinal ∈ graph.edges.map (·.ordinal) := List.mem_map_of_mem hedge
    rw [h.drawn.ordinals, List.mem_range] at hmem
    have hlength := h.drawn.edges_length
    have hpolicy := mermaidPolicy.edges.2
    omega
  have hid : strip (edgeId edge) = edgeId edge := strip_of_visible (edgeId_chars edge)
  have hidErrors : textErrors "edge_id" 128 (edgeId edge) = [] := by
    have hlength := edgeId_length hordinal
    rw [textErrors_eq_nil, hid]
    exact ⟨List.cons_ne_nil _ _, by omega⟩
  unfold VerifierGraphEdge.build
  refine validated_eq_ok.mpr ⟨?_, ?_⟩
  · show textErrors "edge_id" 128 (edgeId edge) ++ textErrors "source_node_id" 128 edge.sourceNodeId ++
      textErrors "target_node_id" 128 edge.targetNodeId = []
    rw [hidErrors, identifierErrors (hident _ hjoins.1), identifierErrors (hident _ hjoins.2.1)]
    rfl
  · unfold edgeRecord
    dsimp only
    rw [hid, strip_identifier (hident _ hjoins.1), strip_identifier (hident _ hjoins.2.1)]

/-! ### The graph -/

def nodeRecords (P : Platform D) (context : VerificationContext) (found : NodeFindings)
    (graph : ParsedMermaidGraph) : List VerifierGraphNode :=
  graph.nodes.map fun node => { nodeRecord P context found node with label := strip node.label }

theorem nodeRecords_build (h : graph.WellFormed mermaidPolicy)
    (hlabels : ∀ node ∈ graph.nodes, strip node.label ≠ [] ∧ (strip node.label).length ≤ 512) :
    (graph.nodes.mapM fun node => (nodeRecord P context found node).build)
      = .ok (nodeRecords P context found graph) :=
  mapM_of_ok fun node hnode =>
    (nodeRecord_build (h.drawn.proper node hnode)).mpr ⟨hlabels node hnode, rfl⟩

theorem graphIr_build (h : graph.WellFormed mermaidPolicy) (irId : ℕ) :
    VerifierGraphIR.build ⟨context, irId, graph.parserVersion, graph.direction,
        nodeRecords P context found graph, graph.edges.map (edgeRecord context)⟩
      = .ok ⟨context, irId, graph.parserVersion, graph.direction,
          nodeRecords P context found graph, graph.edges.map (edgeRecord context)⟩ := by
  have hids : (nodeRecords P context found graph).map (·.nodeId) = graph.nodes.map (·.nodeId) := by
    unfold nodeRecords
    rw [List.map_map]
    rfl
  have hnodes : 1 ≤ (nodeRecords P context found graph).length ∧
      (nodeRecords P context found graph).length ≤ 4096 := by
    unfold nodeRecords
    rw [List.length_map]
    have hpos := List.length_pos_iff_ne_nil.mpr h.nodes_ne_nil
    have hlength := h.nodes_length
    have hpolicy := mermaidPolicy.nodes.2
    omega
  have hedges : (graph.edges.map (edgeRecord context)).length ≤ 16384 := by
    rw [List.length_map]
    exact h.drawn.edges_length.trans mermaidPolicy.edges.2
  have hedgeIds : ((graph.edges.map (edgeRecord context)).map (·.edgeId)).Nodup := by
    have hordinals : (graph.edges.map (·.ordinal)).Nodup := h.drawn.ordinals ▸ List.nodup_range
    rw [List.map_map]
    refine List.Nodup.map_on (fun a ha b hb heq => ?_) (List.Nodup.of_map _ hordinals)
    exact List.inj_on_of_nodup_map hordinals ha hb (edgeId_injective heq)
  have hknown : ∀ edge ∈ graph.edges.map (edgeRecord context),
      edge.sourceNodeId ∈ graph.nodes.map (·.nodeId) ∧ edge.targetNodeId ∈ graph.nodes.map (·.nodeId) := by
    intro record hrecord
    obtain ⟨edge, hedge, rfl⟩ := List.mem_map.mp hrecord
    have hjoins := h.drawn.joins edge hedge
    exact ⟨hjoins.1, hjoins.2.1⟩
  refine validated_eq_ok.mpr ⟨?_, rfl⟩
  unfold VerifierGraphIR.fieldErrors
  dsimp only
  rw [h.parserVersion, hids, if_pos (show graph.direction ∈ ["TB", "TD", "BT", "RL", "LR"] from h.direction),
    if_pos hnodes, listErrors_eq_nil.mpr hedges, if_pos (h.drawn.nodup), if_pos hedgeIds, if_pos hknown]
  decide

/-! ### The result -/

variable {policy : GraphVerificationPolicy} {snapshot : GraphSnapshot D} {evidenceRefIds : List ℕ}

/-- What `verify` finds of the nodes. -/
def nodeFindings (P : Platform D) (graph : ParsedMermaidGraph) (snapshot : GraphSnapshot D) : NodeFindings :=
  readNodes P.db snapshot.content.knowledgePoints graph.nodes

/-- What `verify` finds of the edges. -/
def edgeFindings (P : Platform D) (graph : ParsedMermaidGraph) (snapshot : GraphSnapshot D) : EdgeFindings :=
  readEdges (nodeFindings P graph snapshot) (authoritativeEdges snapshot.content.prerequisites) graph.edges

/-- The codes that `verify` finds. -/
def codesFound (policy : GraphVerificationPolicy) (P : Platform D) (graph : ParsedMermaidGraph)
    (snapshot : GraphSnapshot D) (evidenceRefIds : List ℕ) : Finset MismatchCode :=
  mismatchCodes policy (nodeFindings P graph snapshot) (edgeFindings P graph snapshot)
    (authoritativeEdges snapshot.content.prerequisites) evidenceRefIds

/-- The result of `verify`. -/
def resultOf (policy : GraphVerificationPolicy) (P : Platform D) (context : VerificationContext)
    (graph : ParsedMermaidGraph) (snapshot : GraphSnapshot D) (evidenceRefIds : List ℕ) :
    GraphVerificationResult :=
  resultRecord P context (graphIrId P context graph) (nodeFindings P graph snapshot)
    (edgeFindings P graph snapshot) (codesFound policy P graph snapshot evidenceRefIds) evidenceRefIds

theorem card_allUnknown_le (db : Unicode.Database) (points : List KnowledgePoint)
    (nodes : List MermaidNodeDraft) : (readNodes db points nodes).allUnknown.card ≤ nodes.length := by
  have hsub : (readNodes db points nodes).allUnknown ⊆ (nodes.map (·.nodeId)).toFinset := by
    intro x hx
    obtain ⟨node, hnode, rfl, -⟩ := mem_allUnknown.mp hx
    exact List.mem_toFinset.mpr (List.mem_map_of_mem hnode)
  refine (Finset.card_le_card hsub).trans ((List.toFinset_card_le _).trans ?_)
  rw [List.length_map]

theorem card_invalid_le {mapped : NodeFindings} {authoritative : Finset (List Char × List Char)}
    (edges : List MermaidEdgeDraft) :
    (readEdges mapped authoritative edges).invalidEdgeIds.card ≤ edges.length := by
  have hsub : (readEdges mapped authoritative edges).invalidEdgeIds ⊆ (edges.map edgeId).toFinset := by
    intro x hx
    obtain ⟨edge, hedge, rfl, -⟩ := ((readEdges_read _ _ _).invalid x).mp hx
    exact List.mem_toFinset.mpr (List.mem_map_of_mem hedge)
  refine (Finset.card_le_card hsub).trans ((List.toFinset_card_le _).trans ?_)
  rw [List.length_map]

theorem card_codes_le (codes : Finset MismatchCode) : (codes.image MismatchCode.value).card ≤ 9 := by
  have hsub : codes ⊆ {.EDGE_ENDPOINT_UNRESOLVED, .PREREQUISITE_EDGE_NOT_IN_TOPIC1,
      .RELATION_NOT_VERIFIABLE_FROM_TOPIC1, .TOPIC1_PREREQUISITE_OMITTED, .PREREQUISITE_SUBGRAPH_CYCLE,
      .AMBIGUOUS_TOPIC1_LABEL, .TOPIC1_NODE_ID_LABEL_MISMATCH, .UNKNOWN_TOPIC1_NODE,
      .AUTHORITATIVE_EVIDENCE_MISSING} := by
    intro code _
    cases code <;> decide
  exact Finset.card_image_le.trans (Finset.card_le_card hsub)

theorem confidence_bounds (verdict : Verification.VerificationVerdict) :
    0 ≤ confidenceOf verdict ∧ confidenceOf verdict ≤ 1 := by
  cases verdict <;> decide +kernel

theorem result_build (h : graph.WellFormed mermaidPolicy) {result : GraphVerificationResult} :
    (resultOf policy P context graph snapshot evidenceRefIds).build = .ok result ↔
      evidenceRefIds.length ≤ 512 ∧ result = resultOf policy P context graph snapshot evidenceRefIds := by
  have hunknown : (sorted (nodeFindings P graph snapshot).allUnknown).length ≤ 4096 := by
    rw [length_sorted]
    exact (card_allUnknown_le _ _ _).trans (h.nodes_length.trans mermaidPolicy.nodes.2)
  have hinvalid : (sorted (edgeFindings P graph snapshot).invalidEdgeIds).length ≤ 16384 := by
    rw [length_sorted]
    exact (card_invalid_le _).trans (h.drawn.edges_length.trans mermaidPolicy.edges.2)
  have hcodes : (sorted ((codesFound policy P graph snapshot evidenceRefIds).image
      MismatchCode.value)).length ≤ 4096 := by
    rw [length_sorted]
    exact (card_codes_le _).trans (by decide)
  unfold GraphVerificationResult.build GraphVerificationResult.fieldErrors resultOf resultRecord
  dsimp only
  rw [validated_eq_ok, listErrors_eq_nil.mpr hunknown, listErrors_eq_nil.mpr hinvalid,
    listErrors_eq_nil.mpr hcodes, if_pos (confidence_bounds _), List.nil_append, List.nil_append,
    List.nil_append, List.append_nil, listErrors_eq_nil]
  exact and_congr_right fun _ => eq_comm

/-! ### `verify` -/

/-- The snapshot is intact: its digest and its counts are those of its content. -/
def GraphSnapshot.Intact (P : Platform D) (snapshot : GraphSnapshot D) : Prop :=
  P.contentSha256 snapshot.content = snapshot.contentSha256 ∧
    snapshot.nodeCount = snapshot.content.knowledgePoints.length ∧
      snapshot.edgeCount = snapshot.content.prerequisites.length

/-- The contracts accept the records: each label has a character that is no white space and at most 512
characters, and there are at most 512 references. -/
def Recordable (graph : ParsedMermaidGraph) (evidenceRefIds : List ℕ) : Prop :=
  (∀ node ∈ graph.nodes, strip node.label ≠ [] ∧ (strip node.label).length ≤ 512) ∧
    evidenceRefIds.length ≤ 512

instance (graph : ParsedMermaidGraph) (evidenceRefIds : List ℕ) : Decidable
    (Recordable graph evidenceRefIds) :=
  inferInstanceAs (Decidable (_ ∧ _))

theorem validateSnapshot_ok (h : snapshot.Intact P) : validateSnapshot P snapshot = .ok () := by
  unfold validateSnapshot
  rw [ensure_eq_ok.mpr h.1, ensure_eq_ok.mpr h.2.1, ensure_eq_ok.mpr h.2.2]
  rfl

theorem verify_eq (policy : GraphVerificationPolicy) (P : Platform D) (context : VerificationContext)
    (graph : ParsedMermaidGraph) (snapshot : GraphSnapshot D) (evidenceRefIds : List ℕ) :
    verify policy P context graph snapshot evidenceRefIds = (do
      validateSnapshot P snapshot
      let graphNodes ← graph.nodes.mapM fun node =>
        (nodeRecord P context (nodeFindings P graph snapshot) node).build
      let graphEdges ← graph.edges.mapM fun edge => (edgeRecord context edge).build
      let graphIr ← VerifierGraphIR.build
        ⟨context, graphIrId P context graph, graph.parserVersion, graph.direction, graphNodes, graphEdges⟩
      let result ← (resultOf policy P context graph snapshot evidenceRefIds).build
      return ⟨graphIr, result, sorted (nodeFindings P graph snapshot).allUnknown⟩) := rfl

def graphIrOf (P : Platform D) (context : VerificationContext) (graph : ParsedMermaidGraph)
    (snapshot : GraphSnapshot D) : VerifierGraphIR :=
  ⟨context, graphIrId P context graph, graph.parserVersion, graph.direction,
    nodeRecords P context (nodeFindings P graph snapshot) graph, graph.edges.map (edgeRecord context)⟩

/-- **What `verify` returns for a parsed graph and an intact snapshot.** -/
theorem verify_eq_ok (h : graph.WellFormed mermaidPolicy) (hsnapshot : snapshot.Intact P)
    {analysis : GraphAnalysis} : verify policy P context graph snapshot evidenceRefIds = .ok analysis ↔
      Recordable graph evidenceRefIds ∧ analysis =
        ⟨graphIrOf P context graph snapshot, resultOf policy P context graph snapshot evidenceRefIds,
          sorted (nodeFindings P graph snapshot).allUnknown⟩ := by
  have hedges : (graph.edges.mapM fun edge => (edgeRecord context edge).build)
      = .ok (graph.edges.map (edgeRecord context)) :=
    mapM_of_ok fun edge hedge => edgeRecord_build h hedge
  rw [verify_eq, validateSnapshot_ok hsnapshot, hedges]
  constructor
  · intro hok
    obtain ⟨-, hok⟩ := unit_bind_eq_ok.mp hok
    obtain ⟨records, hrecords, hok⟩ := bind_eq_ok.mp hok
    obtain ⟨edges, hedges', hok⟩ := bind_eq_ok.mp hok
    cases hedges'
    have hlabels : ∀ node ∈ graph.nodes, strip node.label ≠ [] ∧ (strip node.label).length ≤ 512 := by
      intro node hnode
      obtain ⟨record, -, hrecord⟩ := exists_of_mem_left (mapM_eq_ok.mp hrecords) hnode
      exact ((nodeRecord_build (h.drawn.proper node hnode)).mp hrecord).1
    rw [nodeRecords_build h hlabels] at hrecords
    cases hrecords
    obtain ⟨ir, hir, hok⟩ := bind_eq_ok.mp hok
    rw [graphIr_build h] at hir
    cases hir
    obtain ⟨result, hresult, hok⟩ := bind_eq_ok.mp hok
    obtain ⟨hevidence, hresult⟩ := (result_build h).mp hresult
    cases hok
    exact ⟨⟨hlabels, hevidence⟩, hresult ▸ rfl⟩
  · rintro ⟨⟨hlabels, hevidence⟩, rfl⟩
    rw [nodeRecords_build h hlabels]
    refine unit_bind_eq_ok.mpr ⟨rfl, bind_eq_ok.mpr ⟨_, rfl, bind_eq_ok.mpr ⟨_, rfl, ?_⟩⟩⟩
    refine bind_eq_ok.mpr ⟨_, graphIr_build h _, bind_eq_ok.mpr ⟨_, (result_build h).mpr ⟨hevidence, rfl⟩,
      rfl⟩⟩

end CyberControl.GraphVerification
