import CyberControl.MermaidParser

/-! # Parsed Mermaid graphs

What `BoundedMermaidParser.parse` guarantees of the graphs that it returns. -/

namespace CyberControl.Mermaid

/-! ### Well-formed graphs -/

/-- The names that `_node_label` gives to shapes, and that of a node without one. -/
def nodeTypes : List String := "IMPLICIT" :: brackets.map (·.2.2)

theorem mem_nodeTypes {name : String} :
    name ∈ nodeTypes ↔ name = "IMPLICIT" ∨ name ∈ brackets.map (·.2.2) := List.mem_cons

/-- A node as the parser makes it. -/
structure MermaidNodeDraft.Proper (policy : MermaidPolicy) (node : MermaidNodeDraft) : Prop where
  nodeId : isIdentifier node.nodeId
  label_ne_nil : node.label ≠ []
  label_length : node.label.length ≤ max 128 policy.maxLabelChars
  label_plain : '<' ∉ node.label ∧ '>' ∉ node.label
  nodeType : node.nodeType ∈ nodeTypes

/-- An edge between two of the nodes. -/
def MermaidEdgeDraft.Joins (nodes : List MermaidNodeDraft) (edge : MermaidEdgeDraft) : Prop :=
  edge.sourceNodeId ∈ nodes.map (·.nodeId) ∧ edge.targetNodeId ∈ nodes.map (·.nodeId) ∧
    edge.sourceNodeId ≠ edge.targetNodeId

/-- The nodes and the edges of a graph. -/
structure Drawn (policy : MermaidPolicy) (nodes : List MermaidNodeDraft) (edges : List MermaidEdgeDraft) :
    Prop where
  nodup : (nodes.map (·.nodeId)).Nodup
  proper : ∀ node ∈ nodes, node.Proper policy
  joins : ∀ edge ∈ edges, edge.Joins nodes
  ordinals : edges.map (·.ordinal) = List.range edges.length
  edges_length : edges.length ≤ policy.maxEdges

/-- A graph that the parser may return. -/
structure ParsedMermaidGraph.WellFormed (policy : MermaidPolicy) (graph : ParsedMermaidGraph) : Prop where
  drawn : Drawn policy graph.nodes graph.edges
  nodes_ne_nil : graph.nodes ≠ []
  nodes_length : graph.nodes.length ≤ policy.maxNodes
  direction : graph.direction ∈ directions
  parserVersion : graph.parserVersion = mermaidParserVersion

/-! ### Nodes -/

variable {db : Unicode.Database} {policy : MermaidPolicy} {nodes : List MermaidNodeDraft}
  {edges : List MermaidEdgeDraft} {text : List Char}

theorem isIdentifier_length (h : isIdentifier text) : 1 ≤ text.length ∧ text.length ≤ 128 := by
  cases text with
  | nil => cases h
  | cons c cs =>
    unfold isIdentifier at h
    simp only [Bool.and_eq_true, decide_eq_true_eq] at h
    rw [List.length_cons]
    omega

theorem identifier_chars (h : isIdentifier text) : ∀ c ∈ text, isIdentifierChar c = true := by
  cases text with
  | nil => simp
  | cons c cs =>
    unfold isIdentifier at h
    simp only [Bool.and_eq_true, List.all_eq_true] at h
    intro d hd
    cases List.mem_cons.mp hd with
    | inl heq =>
      subst heq
      unfold isIdentifierChar Char.isAlphanum
      rw [h.1.1, Bool.true_or, Bool.true_or]
      rfl
    | inr hmem => exact h.2 d hmem

variable {nodeId : List Char}

theorem proper_implicit (h : isIdentifier nodeId) (explicit : Bool) :
    MermaidNodeDraft.Proper policy ⟨nodeId, nodeId, "IMPLICIT", explicit⟩ := by
  have hlength := isIdentifier_length h
  refine ⟨h, fun hnil => ?_, ?_, ⟨?_, ?_⟩, mem_nodeTypes.mpr (.inl rfl)⟩
  · have : nodeId.length = 0 := congrArg List.length hnil
    omega
  · exact hlength.2.trans (le_max_left _ _)
  · exact fun hmem => absurd (identifier_chars h _ hmem) (by decide)
  · exact fun hmem => absurd (identifier_chars h _ hmem) (by decide)

variable {lineNumber : ℕ} {shape : Option (List Char)}

theorem nodeLabel_proper {nodeId label : List Char}
    {nodeType : String} (hid : isIdentifier nodeId)
    (h : nodeLabel db policy shape nodeId lineNumber = .ok (label, nodeType)) :
    MermaidNodeDraft.Proper policy ⟨nodeId, label, nodeType, true⟩ := by
  unfold nodeLabel at h
  cases shape with
  | none =>
    cases h
    exact proper_implicit hid true
  | some shape =>
    dsimp only at h
    split at h
    · cases h
    · rename_i opening closing name hfind
      obtain ⟨hne, h⟩ := unit_bind_eq_ok.mp h
      obtain ⟨hsafe, h⟩ := unit_bind_eq_ok.mp h
      obtain ⟨hlabel, htype⟩ := Prod.mk.inj (Except.ok.inj h)
      have hne := ensure_eq_ok.mp hne
      obtain ⟨hlength, hplain⟩ := ensure_eq_ok.mp hsafe
      rw [hlabel] at hne hlength hplain
      have hname : name ∈ brackets.map (·.2.2) := List.mem_map_of_mem (List.mem_of_find?_eq_some hfind)
      rw [htype] at hname
      exact ⟨hid, hne, hlength.trans (le_max_right _ _), hplain, mem_nodeTypes.mpr (.inr hname)⟩

theorem ids_replace (nodes : List MermaidNodeDraft) (draft : MermaidNodeDraft) :
    (nodes.map fun node => if node.nodeId = draft.nodeId then draft else node).map (·.nodeId)
      = nodes.map (·.nodeId) := by
  rw [List.map_map]
  refine List.map_congr_left fun node _ => ?_
  show (if node.nodeId = draft.nodeId then draft else node).nodeId = node.nodeId
  split_ifs with heq
  · exact heq.symm
  · rfl

variable {draft : MermaidNodeDraft}

theorem mem_ids_setNode :
    nodeId ∈ (setNode nodes draft).map (·.nodeId) ↔
      nodeId ∈ nodes.map (·.nodeId) ∨ nodeId = draft.nodeId := by
  unfold setNode
  split_ifs with h
  · rw [ids_replace]
    refine ⟨.inl, fun hmem => hmem.elim id fun heq => ?_⟩
    obtain ⟨node, hnode, hid⟩ := h
    exact List.mem_map.mpr ⟨node, hnode, hid.trans heq.symm⟩
  · simp

theorem nodup_setNode (h : (nodes.map (·.nodeId)).Nodup) :
    ((setNode nodes draft).map (·.nodeId)).Nodup := by
  unfold setNode
  split_ifs with hin
  · rw [ids_replace]
    exact h
  · rw [List.map_append]
    refine List.nodup_append.mpr ⟨h, List.nodup_singleton _, ?_⟩
    intro a ha b hb heq
    rw [List.mem_singleton.mp hb] at heq
    obtain ⟨node, hnode, hid⟩ := List.mem_map.mp ha
    exact hin ⟨node, hnode, hid.trans heq⟩

theorem mem_setNode {draft node : MermaidNodeDraft} (h : node ∈ setNode nodes draft) :
    node ∈ nodes ∨ node = draft := by
  unfold setNode at h
  split_ifs at h
  · obtain ⟨other, hother, heq⟩ := List.mem_map.mp h
    split_ifs at heq
    · exact .inr heq.symm
    · exact .inl (heq ▸ hother)
  · exact (List.mem_append.mp h).imp id List.mem_singleton.mp

theorem ensureImplicitNode_eq (nodes : List MermaidNodeDraft) (nodeId : List Char) :
    ensureImplicitNode nodes nodeId = nodes ∧ nodeId ∈ nodes.map (·.nodeId) ∨
      ensureImplicitNode nodes nodeId = setNode nodes ⟨nodeId, nodeId, "IMPLICIT", false⟩ := by
  unfold ensureImplicitNode setNode
  split_ifs with h
  · obtain ⟨node, hnode, hid⟩ := h
    exact .inl ⟨rfl, List.mem_map.mpr ⟨node, hnode, hid⟩⟩
  · exact .inr rfl

/-! ### Graphs under construction -/

theorem MermaidEdgeDraft.Joins.mono {edge : MermaidEdgeDraft} {nodes' : List MermaidNodeDraft}
    (h : edge.Joins nodes)
    (hids : ∀ nodeId ∈ nodes.map (·.nodeId), nodeId ∈ nodes'.map (·.nodeId)) : edge.Joins nodes' :=
  ⟨hids _ h.1, hids _ h.2.1, h.2.2⟩

theorem Drawn.setNode (h : Drawn policy nodes edges)
    (hdraft : draft.Proper policy) : Drawn policy (setNode nodes draft) edges where
  nodup := nodup_setNode h.nodup
  proper node hnode := (mem_setNode hnode).elim (h.proper node) fun heq => heq ▸ hdraft
  joins edge hedge := (h.joins edge hedge).mono fun _ hid => mem_ids_setNode.mpr (.inl hid)
  ordinals := h.ordinals
  edges_length := h.edges_length

theorem Drawn.ensureImplicitNode (h : Drawn policy nodes edges)
    (hid : isIdentifier nodeId) : Drawn policy (ensureImplicitNode nodes nodeId) edges := by
  cases ensureImplicitNode_eq nodes nodeId with
  | inl hin =>
    rw [hin.1]
    exact h
  | inr hset =>
    rw [hset]
    exact h.setNode (proper_implicit hid false)

theorem mem_ids_ensureImplicitNode {nodeId other : List Char} :
    other ∈ (ensureImplicitNode nodes nodeId).map (·.nodeId) ↔
      other ∈ nodes.map (·.nodeId) ∨ other = nodeId := by
  cases ensureImplicitNode_eq nodes nodeId with
  | inl hin =>
    rw [hin.1]
    exact ⟨.inl, fun h => h.elim id fun heq => heq ▸ hin.2⟩
  | inr hset =>
    rw [hset]
    exact mem_ids_setNode

theorem Drawn.append (h : Drawn policy nodes edges) {edge : MermaidEdgeDraft} (hedge : edge.Joins nodes)
    (hordinal : edge.ordinal = edges.length) (hlength : edges.length + 1 ≤ policy.maxEdges) :
    Drawn policy nodes (edges ++ [edge]) where
  nodup := h.nodup
  proper := h.proper
  joins other hother := (List.mem_append.mp hother).elim (h.joins other) fun heq =>
    List.mem_singleton.mp heq ▸ hedge
  ordinals := by
    rw [List.map_append, h.ordinals, List.length_append, List.length_singleton, List.range_succ]
    simp [hordinal]
  edges_length := by
    rw [List.length_append, List.length_singleton]
    exact hlength

/-! ### Lines -/

variable {found : EdgeMatch}

theorem edgeAfter_target {source rest : List Char}
    (h : edgeAfter db source rest = some found) : found.source = source ∧ isIdentifier found.target := by
  unfold edgeAfter at h
  obtain ⟨operator, -, h⟩ := List.exists_of_findSome?_eq_some h
  obtain ⟨after, -, h⟩ := Option.bind_eq_some_iff.mp h
  dsimp only at h
  split_ifs at h with htarget
  cases h
  exact ⟨rfl, htarget⟩

variable {line : List Char}

theorem edgeMatch_identifiers (h : edgeMatch db line = some found) :
    isIdentifier found.source ∧ isIdentifier found.target := by
  unfold edgeMatch at h
  obtain ⟨length, -, h⟩ := List.exists_of_findSome?_eq_some h
  split_ifs at h with hsource
  obtain ⟨heq, htarget⟩ := edgeAfter_target h
  exact ⟨heq ▸ hsource, htarget⟩

theorem nodeMatch_identifier {line nodeId : List Char}
    (h : nodeMatch line = some (nodeId, shape)) : isIdentifier nodeId := by
  unfold nodeMatch at h
  simp only at h
  split_ifs at h with hid hshape hproper
  · cases h
    exact hid
  · cases h
    exact hid

def ParseState.Built (policy : MermaidPolicy) (s : ParseState) : Prop := Drawn policy s.nodes s.edges

variable {s s' : ParseState}

theorem addEdge_built (h : s.Built policy)
    (hsource : isIdentifier found.source) (htarget : isIdentifier found.target)
    (hok : addEdge db policy s found lineNumber = .ok s') : s'.Built policy := by
  unfold addEdge at hok
  obtain ⟨hself, hok⟩ := unit_bind_eq_ok.mp hok
  obtain ⟨relation, -, hok⟩ := bind_eq_ok.mp hok
  obtain ⟨-, hok⟩ := unit_bind_eq_ok.mp hok
  obtain ⟨hlength, hok⟩ := unit_bind_eq_ok.mp hok
  have hlength := ensure_eq_ok.mp hlength
  rw [List.length_append, List.length_singleton] at hlength
  have hdrawn : Drawn policy (ensureImplicitNode (ensureImplicitNode s.nodes found.source) found.target)
      s.edges := (h.ensureImplicitNode hsource).ensureImplicitNode htarget
  have hjoins : ∀ edge : MermaidEdgeDraft, edge.sourceNodeId = found.source →
      edge.targetNodeId = found.target →
      edge.Joins (ensureImplicitNode (ensureImplicitNode s.nodes found.source) found.target) := by
    intro edge hfrom hto
    unfold MermaidEdgeDraft.Joins
    rw [hfrom, hto]
    refine ⟨mem_ids_ensureImplicitNode.mpr (.inl ?_), mem_ids_ensureImplicitNode.mpr (.inr rfl),
      ensure_eq_ok.mp hself⟩
    exact mem_ids_ensureImplicitNode.mpr (.inr rfl)
  cases hok
  exact hdrawn.append (hjoins _ rfl rfl) rfl hlength

theorem addNode_built (h : s.Built policy)
    (hid : isIdentifier nodeId) (hok : addNode db policy s nodeId shape lineNumber = .ok s') :
    s'.Built policy := by
  unfold addNode at hok
  obtain ⟨-, hok⟩ := unit_bind_eq_ok.mp hok
  obtain ⟨⟨label, nodeType⟩, hlabel, hok⟩ := bind_eq_ok.mp hok
  obtain ⟨-, hok⟩ := unit_bind_eq_ok.mp hok
  obtain ⟨-, hok⟩ := unit_bind_eq_ok.mp hok
  cases hok
  exact h.setNode (nodeLabel_proper hid hlabel)

theorem addStatement_built (h : s.Built policy)
    (hok : addStatement db policy s line lineNumber = .ok s') : s'.Built policy := by
  unfold addStatement at hok
  split at hok
  · rename_i found hfound
    have hids := edgeMatch_identifiers hfound
    exact addEdge_built h hids.1 hids.2 hok
  · split at hok
    · rename_i hnode
      exact addNode_built h (nodeMatch_identifier hnode) hok
    · cases hok

theorem addTrimmed_built (h : s.Built policy)
    (hok : addTrimmed db policy s line lineNumber = .ok s') : s'.Built policy := by
  unfold addTrimmed at hok
  dsimp only at hok
  split_ifs at hok
  · cases hok
    exact h
  · unfold openSubgraph at hok
    obtain ⟨-, hok⟩ := unit_bind_eq_ok.mp hok
    cases hok
    exact h
  · obtain ⟨-, hok⟩ := unit_bind_eq_ok.mp hok
    cases hok
    exact h
  · obtain ⟨-, hok⟩ := unit_bind_eq_ok.mp hok
    cases hok
    exact h
  · obtain ⟨-, hok⟩ := unit_bind_eq_ok.mp hok
    cases hok
    exact h
  · cases hok
    exact h
  · split at hok
    · obtain ⟨-, hok⟩ := unit_bind_eq_ok.mp hok
      cases hok
      exact h
    · obtain ⟨-, hok⟩ := unit_bind_eq_ok.mp hok
      exact addStatement_built h hok

variable {headerIndex : ℕ}

/-- **A line keeps what the loop has built.** -/
theorem addLine_built (h : s.Built policy) {entry : List Char × ℕ}
    (hok : addLine db policy headerIndex s entry = .ok s') : s'.Built policy := by
  unfold addLine at hok
  dsimp only at hok
  split_ifs at hok
  · cases hok
    exact h
  · exact addTrimmed_built h hok

theorem addLines_built {entries : List (List Char × ℕ)} (h : s.Built policy)
    (hok : entries.foldlM (addLine db policy headerIndex) s = .ok s') : s'.Built policy := by
  induction entries generalizing s with
  | nil =>
    cases hok
    exact h
  | cons entry entries ih =>
    rw [List.foldlM_cons] at hok
    obtain ⟨t, ht, hok⟩ := bind_eq_ok.mp hok
    exact ih (addLine_built h ht) hok

/-! ### Parsed graphs -/

theorem findHeader_direction {lines : List (List Char)} {index headerIndex : ℕ} {direction : String}
    (h : findHeader db index lines = .ok (headerIndex, direction)) : direction ∈ directions := by
  induction lines generalizing index with
  | nil => cases h
  | cons line lines ih =>
    unfold findHeader at h
    split at h
    · rename_i found hfound
      cases h
      obtain ⟨keyword, -, hkeyword⟩ := List.exists_of_findSome?_eq_some hfound
      obtain ⟨rest, -, hdirection⟩ := Option.bind_eq_some_iff.mp hkeyword
      exact List.mem_of_find?_eq_some hdirection
    · split_ifs at h
      exact ih h

/-- **Every parsed graph is well formed.** -/
theorem parse_wellFormed {source : List Char} {graph : ParsedMermaidGraph}
    (h : parse db policy source = .ok graph) : graph.WellFormed policy := by
  unfold parse at h
  simp only [unit_bind_eq_ok] at h
  obtain ⟨-, -, -, h⟩ := h
  obtain ⟨lines, -, h⟩ := bind_eq_ok.mp h
  obtain ⟨-, h⟩ := unit_bind_eq_ok.mp h
  obtain ⟨⟨headerIndex, direction⟩, hheader, h⟩ := bind_eq_ok.mp h
  obtain ⟨s, hs, h⟩ := bind_eq_ok.mp h
  simp only [unit_bind_eq_ok] at h
  obtain ⟨-, hnodes, hlength, h⟩ := h
  have hempty : ParseState.Built policy ⟨[], [], [], [], 0⟩ :=
    ⟨List.nodup_nil, by simp, by simp, rfl, Nat.zero_le _⟩
  cases h
  exact ⟨addLines_built hempty hs, ensure_eq_ok.mp hnodes, ensure_eq_ok.mp hlength,
    findHeader_direction hheader, rfl⟩

/-! ### Sources -/

/-- What `edge_keys` holds of an edge. -/
def MermaidEdgeDraft.key (edge : MermaidEdgeDraft) : List Char × List Char × GraphRelation × Bool :=
  (edge.sourceNodeId, edge.targetNodeId, edge.relation, edge.directed)

structure ParseState.Keyed (s : ParseState) : Prop where
  keys : s.edgeKeys = s.edges.map MermaidEdgeDraft.key
  nodup : s.edgeKeys.Nodup

theorem addNode_edges (hok : addNode db policy s nodeId shape lineNumber = .ok s') :
    s'.edges = s.edges ∧ s'.edgeKeys = s.edgeKeys := by
  unfold addNode at hok
  obtain ⟨-, hok⟩ := unit_bind_eq_ok.mp hok
  obtain ⟨_, -, hok⟩ := bind_eq_ok.mp hok
  obtain ⟨-, hok⟩ := unit_bind_eq_ok.mp hok
  obtain ⟨-, hok⟩ := unit_bind_eq_ok.mp hok
  cases hok
  exact ⟨rfl, rfl⟩

theorem addTrimmed_cases (hok : addTrimmed db policy s line lineNumber = .ok s') :
    (s'.edges = s.edges ∧ s'.edgeKeys = s.edgeKeys) ∨ ∃ found, addEdge db policy s found lineNumber = .ok s' := by
  unfold addTrimmed openSubgraph at hok
  dsimp only at hok
  split_ifs at hok
  case neg =>
    split at hok
    · obtain ⟨-, hok⟩ := unit_bind_eq_ok.mp hok
      cases hok
      exact .inl ⟨rfl, rfl⟩
    · obtain ⟨-, hok⟩ := unit_bind_eq_ok.mp hok
      unfold addStatement at hok
      split at hok
      · exact .inr ⟨_, hok⟩
      · split at hok
        · exact .inl (addNode_edges hok)
        · cases hok
  all_goals
    first
    | cases hok
      exact .inl ⟨rfl, rfl⟩
    | obtain ⟨-, hok⟩ := unit_bind_eq_ok.mp hok
      cases hok
      exact .inl ⟨rfl, rfl⟩

theorem addLine_keyed (h : s.Keyed) {entry : List Char × ℕ}
    (hok : addLine db policy headerIndex s entry = .ok s') : s'.Keyed := by
  unfold addLine at hok
  dsimp only at hok
  split_ifs at hok
  · cases hok
    exact h
  rcases addTrimmed_cases hok with ⟨hedges, hkeys⟩ | ⟨found, hok⟩
  · exact ⟨by rw [hkeys, hedges, h.keys], hkeys ▸ h.nodup⟩
  · unfold addEdge at hok
    obtain ⟨-, hok⟩ := unit_bind_eq_ok.mp hok
    obtain ⟨relation, -, hok⟩ := bind_eq_ok.mp hok
    obtain ⟨hnew, hok⟩ := unit_bind_eq_ok.mp hok
    obtain ⟨-, hok⟩ := unit_bind_eq_ok.mp hok
    cases hok
    refine ⟨by simp [h.keys, MermaidEdgeDraft.key], ?_⟩
    simpa using h.nodup.concat (ensure_eq_ok.mp hnew)

theorem addLines_keyed {entries : List (List Char × ℕ)} (h : s.Keyed)
    (hok : entries.foldlM (addLine db policy headerIndex) s = .ok s') : s'.Keyed := by
  induction entries generalizing s with
  | nil =>
    cases hok
    exact h
  | cons entry entries ih =>
    rw [List.foldlM_cons] at hok
    obtain ⟨t, ht, hok⟩ := bind_eq_ok.mp hok
    exact ih (addLine_keyed h ht) hok

/-- **What the parser accepts**: a source within the limit and without a forbidden token, of a well formed graph
in which no edge is drawn twice. -/
theorem parse_safe {source : List Char} {graph : ParsedMermaidGraph} (h : parse db policy source = .ok graph) :
    graph.WellFormed policy ∧ (graph.edges.map MermaidEdgeDraft.key).Nodup ∧
      (db.strip (db.nfkc source)).length ≤ policy.maxChars ∧
      ∀ token ∈ forbiddenTokens, ¬ token.toList <:+: (db.strip (db.nfkc source)).flatMap db.casefold := by
  have hgraph := parse_wellFormed h
  unfold parse at h
  simp only [unit_bind_eq_ok] at h
  obtain ⟨-, hlength, hforbidden, h⟩ := h
  obtain ⟨lines, -, h⟩ := bind_eq_ok.mp h
  obtain ⟨-, h⟩ := unit_bind_eq_ok.mp h
  obtain ⟨⟨headerIndex, direction⟩, -, h⟩ := bind_eq_ok.mp h
  obtain ⟨s, hs, h⟩ := bind_eq_ok.mp h
  simp only [unit_bind_eq_ok] at h
  obtain ⟨-, -, -, h⟩ := h
  have hkeyed : s.Keyed := addLines_keyed ⟨rfl, List.nodup_nil⟩ hs
  cases h
  refine ⟨hgraph, hkeyed.keys ▸ hkeyed.nodup, ensure_eq_ok.mp hlength, fun token htoken => ?_⟩
  exact ensure_eq_ok.mp (forM_eq_ok.mp hforbidden token htoken)

theorem parse_safe_edge : ∃ graph, parse Unicode.Standard.asciiOnly {} "graph TD\nA --> B".toList = .ok graph ∧
    graph.WellFormed {} ∧ (graph.edges.map MermaidEdgeDraft.key).Nodup ∧
    ∀ token ∈ forbiddenTokens, ¬ token.toList <:+: "graph td\na --> b".toList := by
  obtain ⟨graph, hgraph⟩ : ∃ graph, parse Unicode.Standard.asciiOnly {} "graph TD\nA --> B".toList = .ok graph :=
    ⟨_, rfl⟩
  obtain ⟨hwell, hkeys, -, htokens⟩ := parse_safe hgraph
  exact ⟨graph, hgraph, hwell, hkeys, htokens⟩

end CyberControl.Mermaid
