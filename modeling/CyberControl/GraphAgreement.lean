import CyberControl.GraphRecords

/-! # Agreement of a graph with Topic 1

What the verdict of `verify` says of a parsed graph: the nodes as the knowledge points that they resolve to,
and the declared prerequisites as a relation between them. -/

namespace CyberControl.GraphVerification

open Collections
open CyberControl.Digraph (Acyclic)
open Mermaid (MermaidEdgeDraft MermaidNodeDraft MermaidPolicy ParsedMermaidGraph parse
  parse_wellFormed)

/-! ### The graph of knowledge points -/

variable {D : Type}

section relation
variable (db : Unicode.Database) (snapshot : GraphSnapshot D) (graph : ParsedMermaidGraph)

/-- The node with the identifier resolves to the knowledge point. -/
def Resolved (nodeId kpId : List Char) : Prop :=
  ∃ node ∈ graph.nodes, node.nodeId = nodeId ∧
    ∃ point, ResolvesTo db snapshot.content.knowledgePoints node point ∧ point.kpId = kpId

/-- Some node resolves to the knowledge point. -/
def Present (kpId : List Char) : Prop := ∃ nodeId, Resolved db snapshot graph nodeId kpId

/-- The graph declares the prerequisite. -/
def Declared (source target : List Char) : Prop :=
  ∃ edge ∈ graph.edges, edge.relation = .PREREQUISITE ∧
    Resolved db snapshot graph edge.sourceNodeId source ∧ Resolved db snapshot graph edge.targetNodeId target

/-- Topic 1 has the prerequisite. -/
def Authoritative (source target : List Char) : Prop :=
  ∃ edge ∈ snapshot.content.prerequisites, edge.prerequisiteKpId = source ∧ edge.dependentKpId = target

/-- The graph declares a prerequisite that Topic 1 does not have. -/
def Invents : Prop := ∃ a b, Declared db snapshot graph a b ∧ ¬ Authoritative snapshot a b

/-- Topic 1 has a prerequisite between points of the graph that the graph does not declare. -/
def Omits : Prop :=
  ∃ a b, Authoritative snapshot a b ∧ (Present db snapshot graph a ∧ Present db snapshot graph b) ∧
    ¬ Declared db snapshot graph a b

/-- The graph contradicts Topic 1. -/
def Contradicts : Prop :=
  Invents db snapshot graph ∨ Omits db snapshot graph ∨ ¬ Acyclic (Declared db snapshot graph)

/-- Every node and every edge is one of Topic 1, none between the points of the graph is missing, and there is
evidence. -/
structure Supports (evidenceRefIds : List ℕ) : Prop where
  nodes : ∀ node ∈ graph.nodes, ∃ point, ResolvesTo db snapshot.content.knowledgePoints node point
  edges : ∀ edge ∈ graph.edges, edge.relation = .PREREQUISITE ∧ ∃ a b,
    (Resolved db snapshot graph edge.sourceNodeId a ∧ Resolved db snapshot graph edge.targetNodeId b) ∧
      Authoritative snapshot a b
  complete : ¬ Omits db snapshot graph
  acyclic : Acyclic (Declared db snapshot graph)
  evidence : evidenceRefIds ≠ []

end relation

/-! ### What the loops find -/

variable {policy : GraphVerificationPolicy} {P : Platform D} {context : VerificationContext}
  {mermaidPolicy : MermaidPolicy} {graph graph' : ParsedMermaidGraph} {snapshot : GraphSnapshot D}
  {evidenceRefIds : List ℕ}

variable {a b : List Char}

theorem mem_authoritativeEdges :
    (a, b) ∈ authoritativeEdges snapshot.content.prerequisites ↔ Authoritative snapshot a b := by
  unfold authoritativeEdges Authoritative
  simp

theorem get_iff (h : graph.WellFormed mermaidPolicy) {nodeId kpId : List Char} :
    (nodeFindings P graph snapshot).get nodeId = some kpId ↔ Resolved P.db snapshot graph nodeId kpId := by
  unfold nodeFindings Resolved
  rw [get_eq_some h.drawn.nodup]
  simp only [kpOf_eq_some snapshot.content.kpIds_nodup]

theorem mem_kpIds_iff {kpId : List Char} :
    kpId ∈ (nodeFindings P graph snapshot).kpIds ↔ Present P.db snapshot graph kpId := by
  unfold nodeFindings Present Resolved
  rw [mem_kpIds]
  simp only [kpOf_eq_some snapshot.content.kpIds_nodup]
  constructor
  · rintro ⟨node, hnode, h⟩
    exact ⟨node.nodeId, node, hnode, rfl, h⟩
  · rintro ⟨nodeId, node, hnode, -, h⟩
    exact ⟨node, hnode, h⟩

variable {edge : MermaidEdgeDraft} {mapped : NodeFindings}

theorem declaredBy_eq_some :
    declaredBy mapped edge = some (a, b) ↔ edge.relation = .PREREQUISITE ∧
      mapped.get edge.sourceNodeId = some a ∧ mapped.get edge.targetNodeId = some b := by
  unfold declaredBy
  split
  · rename_i source target hsource htarget
    rw [hsource, htarget]
    split_ifs with hrelation
    · simp [hrelation]
    · simp [hrelation]
  · rename_i hunresolved
    simp only [reduceCtorEq, false_iff]
    rintro ⟨-, hsource, htarget⟩
    exact hunresolved a b hsource htarget

theorem mem_declared_iff (h : graph.WellFormed mermaidPolicy) :
    (a, b) ∈ (edgeFindings P graph snapshot).declaredPrerequisites ↔ Declared P.db snapshot graph a b := by
  unfold edgeFindings Declared
  rw [(readEdges_read _ _ _).declared]
  simp only [declaredBy_eq_some, get_iff h]

theorem hasCycle_iff (h : graph.WellFormed mermaidPolicy) :
    hasCycle (edgeFindings P graph snapshot).adjacency (edgeFindings P graph snapshot).keys = true ↔
      ¬ Acyclic (Declared P.db snapshot graph) := by
  have hread : Read _ _ _ (edgeFindings P graph snapshot) := readEdges_read _ _ _
  have hrelation : (fun a b => b ∈ (edgeFindings P graph snapshot).adjacency a)
      = Declared P.db snapshot graph := by
    ext a b
    rw [hread.adjacency, mem_declared_iff h]
  have hedges : ∀ a b, b ∈ (edgeFindings P graph snapshot).adjacency a →
      a ∈ (edgeFindings P graph snapshot).keys :=
    fun a b hab => (hread.keys a).mpr ⟨b, (hread.adjacency a b).mp hab⟩
  rw [← hrelation, ← hasCycle_eq_false hedges, Bool.not_eq_false]

theorem codeOf_eq_none {authoritative : Finset (List Char × List Char)} :
    codeOf mapped authoritative edge = none ↔
      ∃ a b, declaredBy mapped edge = some (a, b) ∧ (a, b) ∈ authoritative := by
  unfold codeOf declaredBy
  split
  · split_ifs with hrelation hmem
    · simp [hmem]
    · simp [hmem]
    · simp
  · simp

theorem codeOf_eq_unknown {authoritative : Finset (List Char × List Char)} :
    codeOf mapped authoritative edge = some .PREREQUISITE_EDGE_NOT_IN_TOPIC1 ↔
      ∃ a b, declaredBy mapped edge = some (a, b) ∧ (a, b) ∉ authoritative := by
  unfold codeOf declaredBy
  split
  · split_ifs with hrelation hmem
    · simp [hmem]
    · simp [hmem]
    · simp
  · simp

/-! ### Codes -/

theorem mem_codeIf {condition : Prop} [Decidable condition] {code code' : MismatchCode} :
    code ∈ codeIf condition code' ↔ code = code' ∧ condition := by
  unfold codeIf
  split_ifs with h <;> simp [h]

theorem edge_code_cases {code : MismatchCode} (h : code ∈ (edgeFindings P graph snapshot).mismatchCodes) :
    code = .EDGE_ENDPOINT_UNRESOLVED ∨ code = .PREREQUISITE_EDGE_NOT_IN_TOPIC1 ∨
      code = .RELATION_NOT_VERIFIABLE_FROM_TOPIC1 := by
  obtain ⟨edge, -, hcode⟩ := ((readEdges_read _ _ _).codes code).mp h
  unfold codeOf at hcode
  split at hcode
  · split_ifs at hcode
    · cases hcode
      exact .inr (.inl rfl)
    · cases hcode
      exact .inr (.inr rfl)
  · cases hcode
    exact .inl rfl

theorem invents_iff (h : graph.WellFormed mermaidPolicy) :
    .PREREQUISITE_EDGE_NOT_IN_TOPIC1 ∈ codesFound policy P graph snapshot evidenceRefIds ↔
      Invents P.db snapshot graph := by
  have hcodes : .PREREQUISITE_EDGE_NOT_IN_TOPIC1 ∈ codesFound policy P graph snapshot evidenceRefIds ↔
      .PREREQUISITE_EDGE_NOT_IN_TOPIC1 ∈ (edgeFindings P graph snapshot).mismatchCodes := by
    unfold codesFound mismatchCodes
    simp [mem_codeIf]
  unfold edgeFindings at hcodes
  rw [hcodes, (readEdges_read _ _ _).codes]
  simp only [codeOf_eq_unknown, mem_authoritativeEdges]
  unfold Invents
  constructor
  · rintro ⟨edge, hedge, a, b, hdeclared, hauthoritative⟩
    have hmem : (a, b) ∈ (edgeFindings P graph snapshot).declaredPrerequisites :=
      ((readEdges_read _ _ _).declared _).mpr ⟨edge, hedge, hdeclared⟩
    exact ⟨a, b, (mem_declared_iff h).mp hmem, hauthoritative⟩
  · rintro ⟨a, b, hdeclared, hauthoritative⟩
    obtain ⟨edge, hedge, hby⟩ := ((readEdges_read _ _ _).declared _).mp ((mem_declared_iff h).mpr hdeclared)
    exact ⟨edge, hedge, a, b, hby, hauthoritative⟩

theorem omits_iff (h : graph.WellFormed mermaidPolicy)
    (hpolicy : policy.requireDeclaredPrerequisites = true) :
    .TOPIC1_PREREQUISITE_OMITTED ∈ codesFound policy P graph snapshot evidenceRefIds ↔
      Omits P.db snapshot graph := by
  have hnot : .TOPIC1_PREREQUISITE_OMITTED ∉ (edgeFindings P graph snapshot).mismatchCodes := by
    intro hmem
    have hcases := edge_code_cases hmem
    simp at hcases
  unfold codesFound mismatchCodes
  simp only [Finset.mem_union, mem_codeIf, hnot, hpolicy, true_and, false_or, reduceCtorEq, false_and,
    or_false, Prod.exists]
  simp only [mem_authoritativeEdges, mem_kpIds_iff, mem_declared_iff h]
  rfl

theorem cycle_iff (h : graph.WellFormed mermaidPolicy) :
    .PREREQUISITE_SUBGRAPH_CYCLE ∈ codesFound policy P graph snapshot evidenceRefIds ↔
      ¬ Acyclic (Declared P.db snapshot graph) := by
  have hnot : .PREREQUISITE_SUBGRAPH_CYCLE ∉ (edgeFindings P graph snapshot).mismatchCodes := by
    intro hmem
    have hcases := edge_code_cases hmem
    simp at hcases
  rw [← hasCycle_iff h]
  unfold codesFound mismatchCodes
  simp [mem_codeIf, hnot]

/-! ### Verdicts -/

theorem verdictOf_contradicted {unknown invalid : Finset (List Char)} {codes : Finset MismatchCode} :
    verdictOf unknown invalid codes = .CONTRADICTED ↔ .PREREQUISITE_EDGE_NOT_IN_TOPIC1 ∈ codes ∨
      .TOPIC1_PREREQUISITE_OMITTED ∈ codes ∨ .PREREQUISITE_SUBGRAPH_CYCLE ∈ codes := by
  have hinter : contradictions ∩ codes ≠ ∅ ↔ .PREREQUISITE_EDGE_NOT_IN_TOPIC1 ∈ codes ∨
      .TOPIC1_PREREQUISITE_OMITTED ∈ codes ∨ .PREREQUISITE_SUBGRAPH_CYCLE ∈ codes := by
    rw [← Finset.nonempty_iff_ne_empty]
    unfold contradictions Finset.Nonempty
    simp only [Finset.mem_inter, Finset.mem_insert, Finset.mem_singleton, or_and_right, exists_or,
      exists_eq_left]
    tauto
  rw [← hinter]
  unfold verdictOf
  split_ifs with h h'
  · exact iff_of_true rfl h
  · exact iff_of_false (by decide) h
  · exact iff_of_false (by decide) h

theorem verdictOf_supported {unknown invalid : Finset (List Char)} {codes : Finset MismatchCode} :
    verdictOf unknown invalid codes = .SUPPORTED ↔ unknown = ∅ ∧ invalid = ∅ ∧ codes = ∅ := by
  unfold verdictOf
  split_ifs with h h'
  · refine iff_of_false (by decide) fun hall => h ?_
    rw [hall.2.2, Finset.inter_empty]
  · refine iff_of_false (by decide) fun hall => ?_
    simp [hall.1, hall.2.1, hall.2.2] at h'
  · refine iff_of_true rfl ?_
    simpa [not_or] using h'

/-- **The verdict is a contradiction exactly when the graph contradicts Topic 1.** -/
theorem verdict_contradicted (h : graph.WellFormed mermaidPolicy)
    (hpolicy : policy.requireDeclaredPrerequisites = true) :
    (resultOf policy P context graph snapshot evidenceRefIds).verdict = .CONTRADICTED ↔
      Contradicts P.db snapshot graph := by
  show verdictOf _ _ _ = _ ↔ _
  rw [verdictOf_contradicted, invents_iff h, omits_iff h hpolicy, cycle_iff h]
  rfl

theorem unknown_eq_empty : (nodeFindings P graph snapshot).allUnknown = ∅ ↔
    ∀ node ∈ graph.nodes, ∃ point, ResolvesTo P.db snapshot.content.knowledgePoints node point := by
  have hsome : ∀ node, kpOf P.db snapshot.content.knowledgePoints node ≠ none ↔
      ∃ point, ResolvesTo P.db snapshot.content.knowledgePoints node point := by
    intro node
    rw [Option.ne_none_iff_exists']
    simp only [kpOf_eq_some snapshot.content.kpIds_nodup]
    constructor
    · rintro ⟨kpId, point, h, -⟩
      exact ⟨point, h⟩
    · rintro ⟨point, h⟩
      exact ⟨point.kpId, point, h, rfl⟩
  rw [Finset.eq_empty_iff_forall_notMem]
  unfold nodeFindings
  simp only [mem_allUnknown, ← hsome]
  constructor
  · intro h node hnode hnone
    exact h node.nodeId ⟨node, hnode, rfl, hnone⟩
  · rintro h x ⟨node, hnode, -, hnone⟩
    exact h node hnode hnone

theorem codeOf_eq_none_iff (h : graph.WellFormed mermaidPolicy) :
    codeOf (nodeFindings P graph snapshot) (authoritativeEdges snapshot.content.prerequisites) edge = none ↔
      edge.relation = .PREREQUISITE ∧ ∃ a b, (Resolved P.db snapshot graph edge.sourceNodeId a ∧
        Resolved P.db snapshot graph edge.targetNodeId b) ∧ Authoritative snapshot a b := by
  rw [codeOf_eq_none]
  simp only [declaredBy_eq_some, get_iff h, mem_authoritativeEdges]
  constructor
  · rintro ⟨a, b, ⟨hrelation, hresolved⟩, hauthoritative⟩
    exact ⟨hrelation, a, b, hresolved, hauthoritative⟩
  · rintro ⟨hrelation, a, b, hresolved, hauthoritative⟩
    exact ⟨a, b, ⟨hrelation, hresolved⟩, hauthoritative⟩

theorem invalid_eq_empty (h : graph.WellFormed mermaidPolicy) :
    (edgeFindings P graph snapshot).invalidEdgeIds = ∅ ↔
      ∀ edge ∈ graph.edges, edge.relation = .PREREQUISITE ∧ ∃ a b,
        (Resolved P.db snapshot graph edge.sourceNodeId a ∧
          Resolved P.db snapshot graph edge.targetNodeId b) ∧ Authoritative snapshot a b := by
  have hread : Read _ _ _ (edgeFindings P graph snapshot) := readEdges_read _ _ _
  rw [Finset.eq_empty_iff_forall_notMem]
  simp only [hread.invalid, ← codeOf_eq_none_iff h]
  constructor
  · intro hall edge hedge
    by_contra hcode
    exact hall (edgeId edge) ⟨edge, hedge, rfl, hcode⟩
  · rintro hall x ⟨edge, hedge, -, hcode⟩
    exact hcode (hall edge hedge)

theorem evidence_iff : .AUTHORITATIVE_EVIDENCE_MISSING ∈ codesFound policy P graph snapshot evidenceRefIds ↔
    evidenceRefIds = [] := by
  have hnot : .AUTHORITATIVE_EVIDENCE_MISSING ∉ (edgeFindings P graph snapshot).mismatchCodes := by
    intro hmem
    have hcases := edge_code_cases hmem
    simp at hcases
  unfold codesFound mismatchCodes
  simp [mem_codeIf, hnot]

theorem codes_of_resolved (hunknown : (nodeFindings P graph snapshot).allUnknown = ∅)
    (hinvalid : (edgeFindings P graph snapshot).invalidEdgeIds = ∅) {code : MismatchCode}
    (hcode : code ∈ codesFound policy P graph snapshot evidenceRefIds) :
    code = .TOPIC1_PREREQUISITE_OMITTED ∨ code = .PREREQUISITE_SUBGRAPH_CYCLE ∨
      code = .AUTHORITATIVE_EVIDENCE_MISSING := by
  have hread : Read _ _ _ (edgeFindings P graph snapshot) := readEdges_read _ _ _
  have hedges : code ∉ (edgeFindings P graph snapshot).mismatchCodes := by
    intro hmem
    obtain ⟨edge, hedge, hof⟩ := (hread.codes code).mp hmem
    have hbad := (hread.invalid (edgeId edge)).mpr ⟨edge, hedge, rfl,
      by rw [hof]; exact Option.some_ne_none _⟩
    rw [hinvalid] at hbad
    exact Finset.notMem_empty _ hbad
  have hparts := hunknown
  unfold NodeFindings.allUnknown at hparts
  rw [Finset.union_eq_empty, Finset.union_eq_empty] at hparts
  unfold codesFound mismatchCodes at hcode
  simp only [Finset.mem_union, mem_codeIf, hparts.1.2, hparts.2, hunknown, ne_eq, not_true_eq_false,
    false_and, and_false, or_false, hedges, false_or] at hcode
  rcases hcode with (h | h) | h
  · exact .inl h.1
  · exact .inr (.inl h.1)
  · exact .inr (.inr h.1)

/-- **The verdict is a support exactly when the graph supports Topic 1.** -/
theorem verdict_supported (h : graph.WellFormed mermaidPolicy)
    (hpolicy : policy.requireDeclaredPrerequisites = true) :
    (resultOf policy P context graph snapshot evidenceRefIds).verdict = .SUPPORTED ↔
      Supports P.db snapshot graph evidenceRefIds := by
  show verdictOf (nodeFindings P graph snapshot).allUnknown (edgeFindings P graph snapshot).invalidEdgeIds
    (codesFound policy P graph snapshot evidenceRefIds) = _ ↔ _
  rw [verdictOf_supported]
  constructor
  · rintro ⟨hunknown, hinvalid, hcodes⟩
    have hnone : ∀ code, code ∉ codesFound policy P graph snapshot evidenceRefIds := by
      rw [hcodes]
      exact Finset.notMem_empty
    exact
      { nodes := unknown_eq_empty.mp hunknown
        edges := (invalid_eq_empty h).mp hinvalid
        complete := fun homits => hnone _ ((omits_iff h hpolicy).mpr homits)
        acyclic := by
          by_contra hcycle
          exact hnone _ ((cycle_iff h).mpr hcycle)
        evidence := fun hnil => hnone _ (evidence_iff.mpr hnil) }
  · intro hsupports
    have hunknown := unknown_eq_empty.mpr hsupports.nodes
    have hinvalid := (invalid_eq_empty h).mpr hsupports.edges
    refine ⟨hunknown, hinvalid, Finset.eq_empty_iff_forall_notMem.mpr fun code hcode => ?_⟩
    rcases codes_of_resolved hunknown hinvalid hcode with rfl | rfl | rfl
    · exact hsupports.complete ((omits_iff h hpolicy).mp hcode)
    · exact (cycle_iff h).mp hcode hsupports.acyclic
    · exact hsupports.evidence (evidence_iff.mp hcode)

/-! ### Shared labels -/

/-- Two knowledge points have the label as a name. -/
def SharedLabel (db : Unicode.Database) (snapshot : GraphSnapshot D) (node : MermaidNodeDraft) : Prop :=
  ∃ point ∈ snapshot.content.knowledgePoints, ∃ other ∈ snapshot.content.knowledgePoints, point ≠ other ∧
    Named db node.label point ∧ Named db node.label other

theorem sharedLabel_unknown {node : MermaidNodeDraft} (hnode : node ∈ graph.nodes)
    (hshared : SharedLabel P.db snapshot node)
    (hid : ∀ point ∈ snapshot.content.knowledgePoints, point.kpId ≠ node.nodeId) :
    node.nodeId ∈ sorted (nodeFindings P graph snapshot).allUnknown := by
  refine mem_sorted.mpr (mem_allUnknown.mpr ⟨node, hnode, rfl, ?_⟩)
  by_contra hsome
  obtain ⟨kpId, hkp⟩ := Option.ne_none_iff_exists'.mp hsome
  obtain ⟨resolved, ⟨hmem, -, hresolves⟩, -⟩ := (kpOf_eq_some snapshot.content.kpIds_nodup).mp hkp
  cases hresolves with
  | inl heq => exact hid resolved hmem heq
  | inr hunique =>
    obtain ⟨point, hpoint, other, hother, hne, hname, hname'⟩ := hshared
    exact hne ((hunique.2 point hpoint hname).trans (hunique.2 other hother hname').symm)

/-! ### The order of nodes and edges -/

/-- An edge without its place. -/
def unnumbered (edge : MermaidEdgeDraft) : MermaidEdgeDraft := { edge with ordinal := 0 }

/-- The two graphs have the same nodes and edges, in any order. -/
def SameUpToOrder (graph graph' : ParsedMermaidGraph) : Prop :=
  graph.nodes.Perm graph'.nodes ∧ (graph.edges.map unnumbered).Perm (graph'.edges.map unnumbered)

theorem SameUpToOrder.symm (h : SameUpToOrder graph graph') : SameUpToOrder graph' graph :=
  ⟨h.1.symm, h.2.symm⟩

theorem SameUpToOrder.exists_edge (h : SameUpToOrder graph graph') {p : MermaidEdgeDraft → Prop}
    (hp : ∀ edge, p (unnumbered edge) ↔ p edge) (hex : ∃ edge ∈ graph.edges, p edge) :
    ∃ edge ∈ graph'.edges, p edge := by
  obtain ⟨edge, hedge, hof⟩ := hex
  obtain ⟨edge', hedge', heq⟩ := List.mem_map.mp (h.2.subset (List.mem_map_of_mem hedge))
  exact ⟨edge', hedge', (hp edge').mp (heq ▸ (hp edge).mpr hof)⟩

theorem SameUpToOrder.exists_edge_iff (h : SameUpToOrder graph graph') {p : MermaidEdgeDraft → Prop}
    (hp : ∀ edge, p (unnumbered edge) ↔ p edge) :
    (∃ edge ∈ graph.edges, p edge) ↔ ∃ edge ∈ graph'.edges, p edge :=
  ⟨h.exists_edge hp, h.symm.exists_edge hp⟩

theorem SameUpToOrder.exists_node_iff (h : SameUpToOrder graph graph') {p : MermaidNodeDraft → Prop} :
    (∃ node ∈ graph.nodes, p node) ↔ ∃ node ∈ graph'.nodes, p node :=
  exists_congr fun _ => and_congr_left fun _ => h.1.mem_iff

section perm
variable (hsame : SameUpToOrder graph graph') (h : graph.WellFormed mermaidPolicy)
  {mermaidPolicy' : MermaidPolicy} (h' : graph'.WellFormed mermaidPolicy')

include hsame

theorem nodeFindings_perm :
    (nodeFindings P graph snapshot).ambiguous = (nodeFindings P graph' snapshot).ambiguous ∧
      (nodeFindings P graph snapshot).idLabelMismatches = (nodeFindings P graph' snapshot).idLabelMismatches ∧
      (nodeFindings P graph snapshot).allUnknown = (nodeFindings P graph' snapshot).allUnknown ∧
      (nodeFindings P graph snapshot).kpIds = (nodeFindings P graph' snapshot).kpIds := by
  unfold nodeFindings
  refine ⟨?_, ?_, ?_, ?_⟩
  · ext x
    rw [mem_ambiguous, mem_ambiguous, hsame.exists_node_iff]
  · ext x
    rw [mem_idLabelMismatches, mem_idLabelMismatches, hsame.exists_node_iff]
  · ext x
    rw [mem_allUnknown, mem_allUnknown, hsame.exists_node_iff]
  · ext x
    rw [mem_kpIds, mem_kpIds, hsame.exists_node_iff]

include h h'

theorem get_perm : (nodeFindings P graph snapshot).get = (nodeFindings P graph' snapshot).get := by
  funext nodeId
  refine Option.ext fun kpId => ?_
  rw [get_iff h, get_iff h']
  exact hsame.exists_node_iff

theorem declaredBy_perm (edge : MermaidEdgeDraft) :
    declaredBy (nodeFindings P graph snapshot) edge = declaredBy (nodeFindings P graph' snapshot) edge := by
  unfold declaredBy
  rw [get_perm hsame h h']

theorem codeOf_perm (authoritative : Finset (List Char × List Char)) (edge : MermaidEdgeDraft) :
    codeOf (nodeFindings P graph snapshot) authoritative edge
      = codeOf (nodeFindings P graph' snapshot) authoritative edge := by
  unfold codeOf
  rw [get_perm hsame h h']

theorem declared_perm : (edgeFindings P graph snapshot).declaredPrerequisites
    = (edgeFindings P graph' snapshot).declaredPrerequisites := by
  unfold edgeFindings
  ext p
  rw [(readEdges_read _ _ _).declared, (readEdges_read _ _ _).declared,
    hsame.exists_edge_iff fun edge => Iff.rfl]
  simp only [declaredBy_perm hsame h h']

theorem edgeCodes_perm : (edgeFindings P graph snapshot).mismatchCodes
    = (edgeFindings P graph' snapshot).mismatchCodes := by
  unfold edgeFindings
  ext code
  rw [(readEdges_read _ _ _).codes, (readEdges_read _ _ _).codes, hsame.exists_edge_iff fun edge => Iff.rfl]
  simp only [codeOf_perm hsame h h']

theorem adjacency_perm : (edgeFindings P graph snapshot).adjacency =
    (edgeFindings P graph' snapshot).adjacency ∧
    (edgeFindings P graph snapshot).keys = (edgeFindings P graph' snapshot).keys := by
  have hread : Read _ _ _ (edgeFindings P graph snapshot) := readEdges_read _ _ _
  have hread' : Read _ _ _ (edgeFindings P graph' snapshot) := readEdges_read _ _ _
  refine ⟨?_, ?_⟩
  · funext a
    ext b
    rw [hread.adjacency, hread'.adjacency, declared_perm hsame h h']
  · ext a
    rw [hread.keys, hread'.keys, declared_perm hsame h h']

/-- **The codes do not depend on the order of nodes and edges.** -/
theorem codesFound_perm : codesFound policy P graph snapshot evidenceRefIds
    = codesFound policy P graph' snapshot evidenceRefIds := by
  obtain ⟨hambiguous, hmismatches, hunknown, hkpIds⟩ := @nodeFindings_perm D P graph graph' snapshot hsame
  unfold codesFound mismatchCodes
  rw [hambiguous, hmismatches, hunknown, hkpIds, declared_perm hsame h h', edgeCodes_perm hsame h h',
    (adjacency_perm hsame h h').1, (adjacency_perm hsame h h').2]

theorem invalid_perm : (edgeFindings P graph snapshot).invalidEdgeIds = ∅ ↔
    (edgeFindings P graph' snapshot).invalidEdgeIds = ∅ := by
  have hread : Read _ _ _ (edgeFindings P graph snapshot) := readEdges_read _ _ _
  have hread' : Read _ _ _ (edgeFindings P graph' snapshot) := readEdges_read _ _ _
  have hcodes : ∀ found : EdgeFindings, ∀ edges mapped authoritative, Read mapped authoritative edges found →
      (found.invalidEdgeIds = ∅ ↔ found.mismatchCodes = ∅) := by
    intro found edges mapped authoritative hfound
    rw [Finset.eq_empty_iff_forall_notMem, Finset.eq_empty_iff_forall_notMem]
    simp only [hfound.invalid, hfound.codes]
    constructor
    · rintro hnone code ⟨edge, hedge, hcode⟩
      exact hnone (edgeId edge) ⟨edge, hedge, rfl, by rw [hcode]; exact Option.some_ne_none _⟩
    · rintro hnone x ⟨edge, hedge, -, hcode⟩
      obtain ⟨code, hcode⟩ := Option.ne_none_iff_exists'.mp hcode
      exact hnone code ⟨edge, hedge, hcode⟩
  rw [hcodes _ _ _ _ hread, hcodes _ _ _ _ hread', edgeCodes_perm hsame h h']

/-- **Neither does the verdict.** -/
theorem verdict_perm : (resultOf policy P context graph snapshot evidenceRefIds).verdict
    = (resultOf policy P context graph' snapshot evidenceRefIds).verdict := by
  show verdictOf (nodeFindings P graph snapshot).allUnknown (edgeFindings P graph snapshot).invalidEdgeIds
      (codesFound policy P graph snapshot evidenceRefIds)
    = verdictOf (nodeFindings P graph' snapshot).allUnknown (edgeFindings P graph' snapshot).invalidEdgeIds
      (codesFound policy P graph' snapshot evidenceRefIds)
  unfold verdictOf
  rw [(nodeFindings_perm hsame).2.2.1, codesFound_perm hsame h h']
  simp only [ne_eq, invalid_perm hsame h h']

end perm

theorem Recordable.perm (hsame : SameUpToOrder graph graph') (h : Recordable graph evidenceRefIds) :
    Recordable graph' evidenceRefIds :=
  ⟨fun node hnode => h.1 node (hsame.1.mem_iff.mpr hnode), h.2⟩

/-! ### The decision -/

/-- The graph is one that the parser returns. -/
def IsParsed (db : Unicode.Database) (graph : ParsedMermaidGraph) : Prop :=
  ∃ mermaidPolicy source, parse db mermaidPolicy source = .ok graph

/-- `verify` decides the agreement: its verdicts are exact, a shared label resolves no node, and the order of
nodes and edges changes neither the verdict nor the codes. -/
def DecidesAgreement (P : Platform D) (context : VerificationContext) (graph : ParsedMermaidGraph)
    (snapshot : GraphSnapshot D) (evidenceRefIds : List ℕ) : Prop :=
  ∃ analysis, verify {} P context graph snapshot evidenceRefIds = .ok analysis ∧
    (analysis.result.verdict = .CONTRADICTED ↔ Contradicts P.db snapshot graph) ∧
    (analysis.result.verdict = .SUPPORTED ↔ Supports P.db snapshot graph evidenceRefIds) ∧
    (∀ node ∈ graph.nodes, SharedLabel P.db snapshot node →
      (∀ point ∈ snapshot.content.knowledgePoints, point.kpId ≠ node.nodeId) →
        node.nodeId ∈ analysis.unknownNodeIds) ∧
    ∀ graph', IsParsed P.db graph' → SameUpToOrder graph graph' →
      ∃ analysis', verify {} P context graph' snapshot evidenceRefIds = .ok analysis' ∧
        analysis'.result.verdict = analysis.result.verdict ∧
        analysis'.result.topologyMismatchCodes = analysis.result.topologyMismatchCodes

/-- **`verify` decides the agreement of every parsed graph that the contracts can record.** -/
theorem verify_decides_iff (P : Platform D) (context : VerificationContext) (graph : ParsedMermaidGraph)
    (snapshot : GraphSnapshot D) (evidenceRefIds : List ℕ) (hparsed : IsParsed P.db graph)
    (hsnapshot : snapshot.Intact P) :
    DecidesAgreement P context graph snapshot evidenceRefIds ↔ Recordable graph evidenceRefIds := by
  obtain ⟨mermaidPolicy, source, hparse⟩ := hparsed
  have h := parse_wellFormed hparse
  constructor
  · rintro ⟨analysis, hok, -⟩
    exact ((verify_eq_ok h hsnapshot).mp hok).1
  · intro hrecordable
    refine ⟨_, (verify_eq_ok h hsnapshot).mpr ⟨hrecordable, rfl⟩, verdict_contradicted h rfl,
      verdict_supported h rfl, fun node hnode hshared hid => sharedLabel_unknown hnode hshared hid, ?_⟩
    rintro graph' ⟨mermaidPolicy', source', hparse'⟩ hsame
    have h' := parse_wellFormed hparse'
    refine ⟨_, (verify_eq_ok h' hsnapshot).mpr ⟨hrecordable.perm hsame, rfl⟩, ?_, ?_⟩
    · exact (verdict_perm hsame h h').symm
    · show sorted ((codesFound _ P graph' snapshot evidenceRefIds).image MismatchCode.value)
        = sorted ((codesFound _ P graph snapshot evidenceRefIds).image MismatchCode.value)
      rw [codesFound_perm hsame h h']

/-! ### Two diagrams -/

/-- A platform for ASCII texts, with a digest that reads the titles. -/
def asciiPlatform : Platform Unit where
  db := Unicode.Standard.asciiOnly
  contentSha256 content := String.ofList (content.knowledgePoints.flatMap (·.title))
  textSha256 := String.ofList
  namespaceUrl := 6
  uuid5 namespaceId name := namespaceId + name.length

/-- Limits come before series. -/
def limitsSnapshot : GraphSnapshot Unit where
  content :=
    { knowledgePoints := [⟨"KP_LIM".toList, "Limits".toList, []⟩, ⟨"KP_SER".toList, "Series".toList, []⟩]
      prerequisites := [⟨"KP_LIM".toList, "KP_SER".toList⟩]
      rest := ()
      kpIds_nodup := by decide }
  contentSha256 := "LimitsSeries"
  nodeCount := 2
  edgeCount := 1

def sampleContext : VerificationContext := ⟨1, 2, 3, 1, "map", "0123456789abcdef", "tenant", 0⟩

/-- Two nodes with labels and the edge between them. -/
def limitsGraph : ParsedMermaidGraph where
  direction := "TD"
  nodes := [⟨"KP_LIM".toList, "Limits".toList, "RECTANGLE", true⟩,
    ⟨"B".toList, "series".toList, "RECTANGLE", true⟩]
  edges := [⟨"KP_LIM".toList, "B".toList, .PREREQUISITE, true, "-->", 0⟩]
  normalizedSource := "graph TD\nKP_LIM[Limits]\nB[series]\nKP_LIM --> B".toList
  parserVersion := "c4-mermaid-parser-v1"

theorem limitsGraph_parsed : IsParsed asciiPlatform.db limitsGraph :=
  ⟨{}, "graph TD\nKP_LIM[Limits]\nB[series]\nKP_LIM --> B".toList, by decide +kernel⟩

theorem verify_decides_limits : DecidesAgreement asciiPlatform sampleContext limitsGraph limitsSnapshot [7] :=
  (verify_decides_iff asciiPlatform sampleContext limitsGraph limitsSnapshot [7] limitsGraph_parsed
    (by unfold GraphSnapshot.Intact; decide)).mpr (by decide)

/-- The edge is turned around, and a note has a blank between quotes as its label. -/
def notedGraph : ParsedMermaidGraph where
  direction := "TD"
  nodes := [⟨"Note".toList, " ".toList, "RECTANGLE", true⟩, ⟨"KP_SER".toList, "KP_SER".toList, "IMPLICIT",
    false⟩,
    ⟨"KP_LIM".toList, "KP_LIM".toList, "IMPLICIT", false⟩]
  edges := [⟨"KP_SER".toList, "KP_LIM".toList, .PREREQUISITE, true, "-->", 0⟩]
  normalizedSource := "graph TD\nNote[\" \"]\nKP_SER --> KP_LIM".toList
  parserVersion := "c4-mermaid-parser-v1"

/-- The parser accepts the blank label and the contract does not: `verify` raises. -/
theorem blank_label_undecided : IsParsed asciiPlatform.db notedGraph ∧ limitsSnapshot.Intact asciiPlatform ∧
    ¬ DecidesAgreement asciiPlatform sampleContext notedGraph limitsSnapshot [7] := by
  have hraises : (verify {} asciiPlatform sampleContext notedGraph limitsSnapshot [7]).toOption = none := by
    decide +kernel
  refine ⟨⟨{}, notedGraph.normalizedSource, by decide +kernel⟩, by unfold GraphSnapshot.Intact; decide, ?_⟩
  rintro ⟨analysis, hok, -⟩
  rw [hok] at hraises
  cases hraises

end CyberControl.GraphVerification
