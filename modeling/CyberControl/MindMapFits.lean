import CyberControl.MindMapPoints
import CyberControl.MindMapText

/-! # Which mind maps are built

When `_build_content` (`topic3/agents/mindmap.py`) succeeds on an accepted graph, and what its mind map then
contains. -/

namespace CyberControl.MindMap

open Topic1 Collections TextLines Mermaid

variable {F D : Type} (platform : Platform D) (context : MindMapContext F D)
  (points : List (KnowledgePoint String F D))

/-! ### Sizes -/

def idSize (index : ℕ) : ℕ := 1 + (Nat.toDigits 10 index).length

/-- The label of a point in the text. -/
def emittedTitle (point : KnowledgePoint String F D) : List Char :=
  platform.db.strip (withoutBrackets (platform.title point.fields))

/-- The prerequisites between some points. -/
def prerequisitesAmong : List (Prerequisite String D) :=
  context.graph.prerequisites.filter fun edge =>
    edge.prerequisiteKpId ∈ points.map (·.kpId) ∧ edge.dependentKpId ∈ points.map (·.kpId)

/-- The size of the identifier of a point. -/
def kpSize (kpId : String) : ℕ := idSize (points.findIdx (·.kpId = kpId))

/-- The states of the points, with the sizes of their identifiers. -/
def stateSizes : List (NodeState × ℕ) := points.mapIdx fun i point => (stateOf context point, idSize i)

def styleSize (sizes : List (NodeState × ℕ)) (entry : NodeState × String × String) : ℕ :=
  15 + entry.2.1.length + entry.2.2.length +
    if sizes.filter (·.1 = entry.1) = [] then 0
    else 11 + entry.2.1.length + ((sizes.filter (·.1 = entry.1)).map (·.2 + 1)).sum

/-- The size of the diagram of some points. -/
def diagramSize : ℕ :=
  8 + (points.mapIdx fun i point => idSize i + (emittedTitle platform point).length + 9).sum +
    ((prerequisitesAmong context points).map fun edge =>
      kpSize points edge.prerequisiteKpId + kpSize points edge.dependentKpId + 10).sum +
    (stateClasses.map (styleSize (stateSizes context points))).sum

/-! ### What is asked of a mind map -/

/-- Each needed point is in the mind map once, and so is an edge for every prerequisite between its points. -/
structure Complete (content : MindMapContentV1) : Prop where
  needed : ∀ x, Needed context x → (content.nodes.map (·.kpId)).count x = 1
  edges : ∀ edge ∈ context.graph.prerequisites, ∀ source ∈ content.nodes, ∀ target ∈ content.nodes,
    source.kpId = edge.prerequisiteKpId → target.kpId = edge.dependentKpId →
      ⟨source.nodeId, target.nodeId⟩ ∈ content.edges

/-- No needed point is cut, and the points fit into the contract. -/
structure Fits : Prop where
  needed : ∀ x, Needed context x → Kept context x
  titles : ∀ point ∈ points, (platform.title point.fields).length ≤ 128
  safe : ∀ point ∈ points, ∀ token ∈ unsafeTokens,
    ¬ token.toList <:+: platform.lowering.lower (emittedTitle platform point)
  edges : (prerequisitesAmong context points).length ≤ 2048
  size : diagramSize platform context points ≤ 65536

/-! ### Nodes and edges -/

variable {platform context points}

theorem kpIds_nodesOf : (nodesOf platform context points).map (·.kpId) = points.map (·.kpId) := by
  unfold nodesOf
  refine List.ext_getElem (by simp) fun i hi hi' => ?_
  rw [List.getElem_map, List.getElem_mapIdx, List.getElem_map]
  rfl

theorem nodeIds_nodesOf :
    (nodesOf platform context points).map (·.nodeId) = (List.range points.length).map nodeIdAt := by
  unfold nodesOf
  refine List.ext_getElem (by simp) fun i hi hi' => ?_
  rw [List.getElem_map, List.getElem_mapIdx, List.getElem_map, List.getElem_range]
  rfl

theorem nodeIdAt_injective : Function.Injective nodeIdAt := by
  intro i j h
  exact ClaimExtraction.toDigits_injective (List.cons.inj h).2

variable {x : String}

theorem Listed.mem_kpIds (hlisted : Listed context points) (h : Accepted context platform) :
    x ∈ points.map (·.kpId) ↔ Kept context x := by
  rw [List.mem_map]
  constructor
  · rintro ⟨point, hpoint, rfl⟩
    exact ((hlisted.mem point).mp hpoint).2
  · intro hkept
    obtain ⟨point, hpoint, rfl⟩ := List.mem_map.mp (known_of_around h hkept.1)
    exact ⟨point, (hlisted.mem point).mpr ⟨hpoint, hkept⟩, rfl⟩

theorem Listed.points_nodup (hlisted : Listed context points) : points.Nodup := by
  refine List.nodup_iff_pairwise_ne.mpr (hlisted.ordered.imp ?_)
  rintro point other hlt rfl
  exact lt_irrefl _ hlt

theorem Listed.nodup (hlisted : Listed context points) (h : Accepted context platform) :
    (points.map (·.kpId)).Nodup := by
  refine hlisted.points_nodup.map_on fun point hpoint other hother heq => ?_
  exact List.inj_on_of_nodup_map h.references.kpIds ((hlisted.mem point).mp hpoint).1
    ((hlisted.mem other).mp hother).1 heq

theorem Listed.mapPrerequisites_eq (hlisted : Listed context points) (h : Accepted context platform) :
    mapPrerequisites context = prerequisitesAmong context points := by
  unfold mapPrerequisites prerequisitesAmong
  refine List.filter_congr fun edge _ => ?_
  rw [decide_eq_decide, hlisted.mem_kpIds h, hlisted.mem_kpIds h, mem_included, mem_included]

theorem nodeIdByKp_eq {i : ℕ} {point : KnowledgePoint String F D} (hnodup : (points.map (·.kpId)).Nodup)
    (hpoint : points[i]? = some point) : nodeIdByKp points point.kpId = nodeIdAt i := by
  unfold nodeIdByKp
  congr 1
  obtain ⟨hi, rfl⟩ := List.getElem?_eq_some_iff.mp hpoint
  refine (List.findIdx_eq hi).mpr ⟨by simp, fun j hj => ?_⟩
  rw [decide_eq_false_iff_not]
  intro heq
  have hlength : j < (points.map (·.kpId)).length := by
    rw [List.length_map]
    omega
  have hsame : (points.map (·.kpId))[j]? = (points.map (·.kpId))[i]? := by
    rw [List.getElem?_map, List.getElem?_map, List.getElem?_eq_getElem (hj.trans hi),
      List.getElem?_eq_getElem hi, Option.map_some, Option.map_some, heq]
  have hji := (List.getElem?_inj hlength hnodup).mp hsame
  omega

theorem exists_getElem_of_kpId (hx : x ∈ points.map (·.kpId)) :
    ∃ (i : ℕ) (point : KnowledgePoint String F D), points[i]? = some point ∧ point.kpId = x := by
  obtain ⟨point, hpoint, rfl⟩ := List.mem_map.mp hx
  obtain ⟨i, hi⟩ := List.mem_iff_getElem?.mp hpoint
  exact ⟨i, point, hi, rfl⟩

theorem nodeIdByKp_mem (hx : x ∈ points.map (·.kpId)) :
    nodeIdByKp points x ∈ (nodesOf platform context points).map (·.nodeId) := by
  rw [nodeIds_nodesOf]
  refine List.mem_map_of_mem (List.mem_range.mpr ?_)
  obtain ⟨point, hpoint, rfl⟩ := List.mem_map.mp hx
  exact List.findIdx_lt_length_of_exists ⟨point, hpoint, by simp⟩

theorem Listed.length_le (hlisted : Listed context points) (h : Accepted context platform) :
    points.length ≤ 384 := by
  have hsub : points.map (·.kpId) ⊆ sorted (included context) := by
    intro x hx
    exact mem_sorted.mpr (mem_included.mpr ((hlisted.mem_kpIds h).mp hx))
  have hlength := ((hlisted.nodup h).subperm hsub).length_le
  rw [List.length_map, length_sorted] at hlength
  refine hlength.trans ?_
  unfold included
  split_ifs with hmany
  · have hunion := Finset.card_union_le ((sorted (extended context)).take 256).toFinset
      context.targetKpIds.toFinset
    have htake := List.toFinset_card_le ((sorted (extended context)).take 256)
    have htargets := List.toFinset_card_le context.targetKpIds
    have hcommand := h.targets
    rw [List.length_take] at htake
    omega
  · omega

theorem Listed.numbered (hlisted : Listed context points) (h : Accepted context platform)
    (hedges : (prerequisitesAmong context points).length ≤ 2048) :
    Numbered (nodesOf platform context points) (edgesOf context points) := by
  have hlength := hlisted.length_le h
  have hsize : (nodesOf platform context points).length = points.length := by
    unfold nodesOf
    rw [List.length_mapIdx]
  have hmem : ∀ edge ∈ edgesOf context points, ∃ prerequisite ∈ context.graph.prerequisites,
      edge = edgeOf points prerequisite ∧ prerequisite.prerequisiteKpId ∈ points.map (·.kpId) ∧
        prerequisite.dependentKpId ∈ points.map (·.kpId) := by
    intro edge hedge
    unfold edgesOf at hedge
    rw [hlisted.mapPrerequisites_eq h] at hedge
    obtain ⟨prerequisite, hprerequisite, rfl⟩ := List.mem_map.mp hedge
    obtain ⟨hprerequisite, hends⟩ := List.mem_filter.mp hprerequisite
    exact ⟨prerequisite, hprerequisite, rfl, of_decide_eq_true hends⟩
  constructor
  · obtain ⟨target, htarget⟩ := List.exists_mem_of_length_pos h.targets.1
    have hpoint := (hlisted.mem_kpIds h).mpr (kept_of_target htarget)
    have hpos : 0 < (points.map (·.kpId)).length := List.length_pos_of_mem hpoint
    rw [List.length_map] at hpos
    exact List.ne_nil_of_length_pos (by omega)
  · intro node hnode
    have hid : node.nodeId ∈ (nodesOf platform context points).map (·.nodeId) := List.mem_map_of_mem hnode
    rw [nodeIds_nodesOf] at hid
    obtain ⟨i, hi, hid⟩ := List.mem_map.mp hid
    have hi := List.mem_range.mp hi
    exact ⟨i, by omega, hid.symm⟩
  · rw [nodeIds_nodesOf]
    exact List.nodup_range.map nodeIdAt_injective
  · intro edge hedge
    obtain ⟨prerequisite, -, rfl, hsource, -⟩ := hmem edge hedge
    exact nodeIdByKp_mem hsource
  · intro edge hedge
    obtain ⟨prerequisite, -, rfl, -, htarget⟩ := hmem edge hedge
    exact nodeIdByKp_mem htarget
  · intro edge hedge
    obtain ⟨prerequisite, -, rfl, hsource, htarget⟩ := hmem edge hedge
    obtain ⟨i, point, hpoint, hid⟩ := exists_getElem_of_kpId hsource
    obtain ⟨j, other, hother, hid'⟩ := exists_getElem_of_kpId htarget
    unfold edgeOf
    rw [← hid, ← hid', nodeIdByKp_eq (hlisted.nodup h) hpoint, nodeIdByKp_eq (hlisted.nodup h) hother]
    intro heq
    have hij : i = j := nodeIdAt_injective heq
    rw [hij, hother] at hpoint
    cases hpoint
    exact prerequisite.noSelfEdge (hid.symm.trans hid')
  · omega
  · unfold edgesOf
    rw [List.length_map, hlisted.mapPrerequisites_eq h]
    exact hedges

/-! ### The size of the text -/

@[simp] theorem length_nodeIdAt (i : ℕ) : (nodeIdAt i).length = idSize i := by
  rw [nodeIdAt, List.length_cons, idSize, Nat.add_comm]

@[simp] theorem length_nodeLine (nodeId label : List Char) :
    (nodeLine nodeId label).length = nodeId.length + label.length + 4 := by
  have hopening : "[\"".toList.length = 2 := rfl
  have hclosing : "\"]".toList.length = 2 := rfl
  rw [nodeLine, List.length_append, List.length_append, List.length_append, hopening, hclosing]
  omega

@[simp] theorem length_edgeLine (edge : MindMapEdgeV1) :
    (edgeLine edge).length = edge.sourceNodeId.length + edge.targetNodeId.length + 5 := by
  have harrow : " --> ".toList.length = 5 := rfl
  rw [edgeLine, List.length_append, List.length_append, harrow]
  omega

@[simp] theorem length_classDefLine (name style : String) :
    (classDefLine name style).length = name.length + style.length + 10 := by
  have hword : "classDef ".length = 9 := rfl
  unfold classDefLine
  simp only [List.length_append, List.length_cons, String.length_toList]
  omega

theorem length_classLine {ids : List (List Char)} (hids : ids ≠ []) (name : String) :
    (classLine ids name).length = name.length + (ids.map fun id => id.length + 1).sum + 6 := by
  have hword : "class ".length = 6 := rfl
  obtain ⟨id, rest, rfl⟩ := List.exists_cons_of_ne_nil hids
  unfold classLine
  simp only [List.length_append, List.length_cons, String.length_toList, length_join, List.map_cons,
    List.sum_cons]
  omega

theorem stateSizes_eq : stateSizes context points
    = (nodesOf platform context points).map fun node => (node.state, node.nodeId.length) := by
  unfold stateSizes nodesOf
  refine List.ext_getElem (by simp) fun i hi hi' => ?_
  rw [List.getElem_map, List.getElem_mapIdx, List.getElem_mapIdx]
  exact congrArg _ (length_nodeIdAt i).symm

theorem sum_styleLines (nodes : List MindMapNodeV1) :
    ((styleLines nodes).map fun line => line.length + 5).sum = (stateClasses.map
      (styleSize (nodes.map fun node => (node.state, node.nodeId.length)))).sum := by
  unfold styleLines
  rw [List.map_flatMap, List.flatMap_def, List.sum_flatten, List.map_map]
  congr 1
  refine List.map_congr_left fun entry _ => ?_
  obtain ⟨state, name, style⟩ := entry
  have hmembers : (nodes.map fun node => (node.state, node.nodeId.length)).filter (·.1 = state)
      = (nodes.filter (·.state = state)).map fun node => (node.state, node.nodeId.length) := by
    rw [List.filter_map]
    rfl
  unfold styleSize
  rw [Function.comp_apply]
  dsimp only
  rw [hmembers]
  by_cases hnone : nodes.filter (·.state = state) = []
  · have hids : memberIds nodes state = [] := by rw [memberIds, hnone, List.map_nil]
    simp [hids, hnone]
    omega
  · have hids : memberIds nodes state ≠ [] := fun hids => hnone (List.map_eq_nil_iff.mp hids)
    rw [if_neg hids, if_neg fun hsizes => hnone (List.map_eq_nil_iff.mp hsizes)]
    simp only [List.map_cons, List.map_nil, List.sum_cons, List.sum_nil, length_classDefLine,
      length_classLine hids]
    unfold memberIds
    rw [List.map_map, List.map_map]
    simp only [Function.comp_def]
    omega

/-- **The size of the text.** -/
theorem length_mermaidText (hprerequisites : mapPrerequisites context = prerequisitesAmong context points) :
    (mermaidText (emittedLabel platform) (nodesOf platform context points) (edgesOf context points)).length
      = diagramSize platform context points := by
  have hheader : "graph TD".toList.length = 8 := rfl
  have hindent : "    ".toList.length = 4 := rfl
  have hnodes : (nodesOf platform context points).map
      (fun node => (nodeLine node.nodeId (emittedLabel platform node)).length + 5)
        = points.mapIdx fun i point => idSize i + (emittedTitle platform point).length + 9 := by
    unfold nodesOf
    refine List.ext_getElem (by simp) fun i hi hi' => ?_
    rw [List.getElem_map, List.getElem_mapIdx, List.getElem_mapIdx, length_nodeLine]
    show (nodeIdAt i).length + _ + 4 + 5 = _
    rw [length_nodeIdAt]
    rfl
  have hedges : (edgesOf context points).map (fun edge => (edgeLine edge).length + 5)
      = (prerequisitesAmong context points).map fun edge =>
          kpSize points edge.prerequisiteKpId + kpSize points edge.dependentKpId + 10 := by
    unfold edgesOf
    rw [hprerequisites, List.map_map]
    refine List.map_congr_left fun edge _ => ?_
    rw [Function.comp_apply, length_edgeLine]
    show (nodeIdAt _).length + (nodeIdAt _).length + 5 + 5 = _
    rw [length_nodeIdAt, length_nodeIdAt]
    rfl
  have hline : ((fun next : List Char => next.length + 1) ∘ indent) = fun line => line.length + 5 := by
    funext line
    rw [Function.comp_apply, indent, List.length_append, hindent]
    omega
  unfold mermaidText
  rw [length_join, hheader, List.map_map, hline, bodyLines, List.map_append, List.map_append, List.sum_append,
    List.sum_append, List.map_map, List.map_map, sum_styleLines, ← stateSizes_eq, diagramSize]
  simp only [Function.comp_def]
  rw [hnodes, hedges]
  omega

/-! ### Mind maps that are built -/

theorem masteryOf_unit (h : Accepted context platform) (kpId : String) :
    0 ≤ masteryOf context kpId ∧ masteryOf context kpId ≤ 1 := by
  unfold masteryOf
  split
  · rename_i memory hmemory
    exact h.memories memory (List.mem_reverse.mp (List.mem_of_find?_eq_some hmemory))
  · exact h.mastery

theorem mem_nodesOf {node : MindMapNodeV1} (h : node ∈ nodesOf platform context points) :
    ∃ (i : ℕ) (point : KnowledgePoint String F D), points[i]? = some point ∧
      node = nodeOf platform context i point := by
  obtain ⟨i, hi⟩ := List.mem_iff_getElem?.mp h
  obtain ⟨point, hpoint, rfl⟩ := nodesOf_getElem? platform hi
  exact ⟨i, point, hpoint, rfl⟩

theorem nodeOf_mem {i : ℕ} {point : KnowledgePoint String F D} (h : points[i]? = some point) :
    nodeOf platform context i point ∈ nodesOf platform context points := by
  refine List.mem_of_getElem? (i := i) ?_
  unfold nodesOf
  rw [List.getElem?_mapIdx, h]
  rfl

/-- The unsafe directives are found in the text when they are found in a label. -/
theorem unsafe_iff (hnumbered : Numbered (nodesOf platform context points) (edgesOf context points))
    {token : String} (htoken : token ∈ unsafeTokens) :
    token.toList <:+: platform.lowering.lower (mermaidText (emittedLabel platform)
        (nodesOf platform context points) (edgesOf context points)) ↔
      ∃ point ∈ points, token.toList <:+: platform.lowering.lower (emittedTitle platform point) := by
  have hall : unsafeTokens.all (fun token => token.toList.all fun c => c.toNat < 128) = true := by decide
  have hascii : ∀ c ∈ token.toList, c.toNat < 128 := fun c hc =>
    of_decide_eq_true (List.all_eq_true.mp (List.all_eq_true.mp hall token htoken) c hc)
  have hforbidden : unsafeTokens ⊆ forbiddenTokens := by decide
  have hforeign := foreign_forbidden token (hforbidden htoken)
  have hplain : ∀ c : Char, c.toNat < 128 → platform.lowering.plain c = [c.toLower] := by
    intro c hc
    have hsigma : c ≠ 'Σ' := by
      rintro rfl
      exact absurd hc (by decide)
    rw [Unicode.Lowering.plain, if_neg hsigma, platform.lowering.lowerChar_ascii c hc]
  rw [platform.lowering.infix_lower hascii, infix_mermaidText hplain hforeign hnumbered]
  constructor
  · rintro ⟨node, hnode, hinfix⟩
    obtain ⟨i, point, hpoint, rfl⟩ := mem_nodesOf hnode
    refine ⟨point, List.mem_of_getElem? hpoint, ?_⟩
    exact (platform.lowering.infix_lower hascii).mpr hinfix
  · rintro ⟨point, hpoint, hinfix⟩
    obtain ⟨i, hi⟩ := List.mem_iff_getElem?.mp hpoint
    refine ⟨nodeOf platform context i point, nodeOf_mem hi, ?_⟩
    exact (platform.lowering.infix_lower hascii).mp hinfix

theorem validContent_iff (hround : ∀ x : ℚ, 0 ≤ x → x ≤ 1 → 0 ≤ platform.round6 x ∧ platform.round6 x ≤ 1)
    (h : Accepted context platform) (hlisted : Listed context points) :
    ValidContent platform ⟨nodesOf platform context points, edgesOf context points, mermaidText
        (emittedLabel platform) (nodesOf platform context points) (edgesOf context points)⟩ ↔
      (∀ point ∈ points, (platform.title point.fields).length ≤ 128) ∧
      (∀ point ∈ points, ∀ token ∈ unsafeTokens,
        ¬ token.toList <:+: platform.lowering.lower (emittedTitle platform point)) ∧
      (prerequisitesAmong context points).length ≤ 2048 ∧ diagramSize platform context points ≤ 65536 := by
  have hprerequisites := hlisted.mapPrerequisites_eq h
  have hsize : (nodesOf platform context points).length = points.length := by
    unfold nodesOf
    rw [List.length_mapIdx]
  have hedgesSize : (edgesOf context points).length = (prerequisitesAmong context points).length := by
    unfold edgesOf
    rw [List.length_map, hprerequisites]
  constructor
  · intro hvalid
    have hedges : (prerequisitesAmong context points).length ≤ 2048 := hedgesSize ▸ hvalid.edges_length
    have hnumbered := hlisted.numbered h hedges
    refine ⟨fun point hpoint => ?_, fun point hpoint token htoken hinfix => ?_, hedges, ?_⟩
    · obtain ⟨i, hi⟩ := List.mem_iff_getElem?.mp hpoint
      exact (hvalid.nodes _ (nodeOf_mem hi)).1.2
    · exact hvalid.safe token htoken ((unsafe_iff hnumbered htoken).mpr ⟨point, hpoint, hinfix⟩)
    · rw [← length_mermaidText hprerequisites]
      exact hvalid.mermaid_length.2
  · rintro ⟨htitles, hsafe, hedges, hdiagram⟩
    have hnumbered := hlisted.numbered h hedges
    have hlength := hlisted.length_le h
    refine ⟨⟨?_, ?_⟩, ?_, ?_, ⟨?_, ?_⟩, hnumbered.nodup, hnumbered.noSelfEdge,
      fun edge hedge => ⟨hnumbered.sources edge hedge, hnumbered.targets edge hedge⟩, ?_, ?_⟩
    · exact List.length_pos_iff.mpr hnumbered.nonempty
    · exact hnumbered.nodes_length
    · exact hnumbered.edges_length
    · intro node hnode
      obtain ⟨i, point, hpoint, rfl⟩ := mem_nodesOf hnode
      have hpoint := List.mem_of_getElem? hpoint
      have hgraph := ((hlisted.mem point).mp hpoint).1
      have hmastery := masteryOf_unit h point.kpId
      have hid := h.kpIds point hgraph
      refine ⟨⟨(h.titles point hgraph).1, htitles point hpoint⟩, ⟨?_, hid.2⟩, hround _ hmastery.1 hmastery.2⟩
      exact le_trans (by decide) hid.1
    · exact List.length_pos_iff.mpr hnumbered.text_visible.ne_nil
    · rw [length_mermaidText hprerequisites]
      exact hdiagram
    · exact prefix_join _ _ _
    · intro token htoken hinfix
      obtain ⟨point, hpoint, hinfix⟩ := (unsafe_iff hnumbered htoken).mp hinfix
      exact hsafe point hpoint token htoken hinfix

theorem complete_iff (h : Accepted context platform) (hlisted : Listed context points) (mermaid : List Char) :
    Complete context ⟨nodesOf platform context points, edgesOf context points, mermaid⟩ ↔
      ∀ x, Needed context x → Kept context x := by
  have hnodup := hlisted.nodup h
  constructor
  · intro hcomplete x hx
    have hcount := hcomplete.needed x hx
    rw [kpIds_nodesOf] at hcount
    refine (hlisted.mem_kpIds h).mp (List.count_pos_iff.mp ?_)
    omega
  · intro hkept
    refine ⟨fun x hx => ?_, ?_⟩
    · rw [kpIds_nodesOf]
      exact List.count_eq_one_of_mem hnodup ((hlisted.mem_kpIds h).mpr (hkept x hx))
    · intro edge hedge source hsource target htarget hprerequisite hdependent
      obtain ⟨i, point, hpoint, rfl⟩ := mem_nodesOf hsource
      obtain ⟨j, other, hother, rfl⟩ := mem_nodesOf htarget
      have hprerequisite : point.kpId = edge.prerequisiteKpId := hprerequisite
      have hdependent : other.kpId = edge.dependentKpId := hdependent
      have hamong : edge ∈ prerequisitesAmong context points := by
        refine List.mem_filter.mpr ⟨hedge, decide_eq_true ?_⟩
        rw [← hprerequisite, ← hdependent]
        exact ⟨List.mem_map_of_mem (List.mem_of_getElem? hpoint),
          List.mem_map_of_mem (List.mem_of_getElem? hother)⟩
      unfold edgesOf
      rw [hlisted.mapPrerequisites_eq h]
      refine List.mem_map.mpr ⟨edge, hamong, ?_⟩
      unfold edgeOf
      rw [← hprerequisite, ← hdependent, nodeIdByKp_eq hnodup hpoint, nodeIdByKp_eq hnodup hother]
      rfl

/-- **Mind maps.** On an accepted graph the mind map is built, with every needed point once and every
prerequisite between its points, exactly when no needed point is cut and the kept points fit into the
contract. -/
theorem buildContent_complete_iff
    (hround : ∀ x : ℚ, 0 ≤ x → x ≤ 1 → 0 ≤ platform.round6 x ∧ platform.round6 x ≤ 1)
    (h : Accepted context platform) : ∃ points, Listed context points ∧
      ((∃ content, buildContent platform context = .ok content ∧ Complete context content) ↔
        Fits platform context points) := by
  obtain ⟨points, hpoints, hlisted⟩ := orderedPoints_ok h
  refine ⟨points, hlisted, ?_⟩
  have hvalid := validContent_iff hround h hlisted
  constructor
  · rintro ⟨content, hcontent, hcomplete⟩
    obtain ⟨other, hother, hrun⟩ := bind_eq_ok.mp hcontent
    cases hpoints.symm.trans hother
    obtain ⟨hok, hreturn⟩ := unit_bind_eq_ok.mp hrun
    cases hreturn
    obtain ⟨htitles, hsafe, hedges, hsize⟩ := hvalid.mp ((validateContent_ok platform).mp hok)
    exact ⟨(complete_iff h hlisted _).mp hcomplete, htitles, hsafe, hedges, hsize⟩
  · intro hfits
    have hok := (validateContent_ok platform).mpr
      (hvalid.mpr ⟨hfits.titles, hfits.safe, hfits.edges, hfits.size⟩)
    have hbuilt : buildContent platform context = .ok ⟨nodesOf platform context points,
        edgesOf context points, mermaidText (emittedLabel platform) (nodesOf platform context points)
          (edgesOf context points)⟩ := bind_eq_ok.mpr ⟨points, hpoints, unit_bind_eq_ok.mpr ⟨hok, rfl⟩⟩
    exact ⟨_, hbuilt, (complete_iff h hlisted _).mpr hfits.needed⟩

/-! ### Two graphs -/

/-- The title is the only field. -/
def samplePlatform : Platform (List Char) where
  db := Unicode.Standard.ascii
  lowering := Unicode.Lowering.ascii
  round6 x := x
  title title := title

def firstStamp : Stamp := Stamp.first 0

def samplePoint (kpId : String) (title : List Char) (topologyLevel : ℕ) :
    KnowledgePoint String ℕ (List Char) where
  learningObjectives := ["objective"]
  difficultyLevel := 1
  difficultyScore := 0
  estimatedMinutes := 1
  formulaSignatures := []
  fields := title
  kpId
  courseId := "course"
  stamp := firstStamp
  topologyLevel
  topologyWeight := 1

def sampleGraph (knowledgePoints : List (KnowledgePoint String ℕ (List Char)))
    (prerequisites : List (Prerequisite String (List Char))) : Content String ℕ (List Char) where
  course := ⟨⟨"COURSE", []⟩, "course", firstStamp⟩
  knowledgePoints
  prerequisites
  misconceptions := []
  textbooks := []
  textbookSections := []
  textbookMappings := []
  goldenQuestions := []

/-- Feedback is a prerequisite of stability. -/
def feedbackMap : MindMapContext ℕ (List Char) where
  graph := sampleGraph [samplePoint "KP_STABILITY" "Stability".toList 1,
    samplePoint "KP_FEEDBACK" "Feedback".toList 0]
    [⟨⟨"KP_FEEDBACK", "KP_STABILITY", .REQUIRED, []⟩, "EDGE_1", "course", firstStamp, by decide⟩]
  targetKpIds := ["KP_STABILITY"]
  memoryStates := []
  knowledgeMastery := 1 / 2

/-- One point with a title of 129 characters. -/
def longTitleMap : MindMapContext ℕ (List Char) where
  graph := sampleGraph [samplePoint "KP_STABILITY" (List.replicate 129 'a') 0] []
  targetKpIds := ["KP_STABILITY"]
  memoryStates := []
  knowledgeMastery := 1 / 2

theorem accepted_feedback : Accepted feedbackMap samplePlatform where
  references := validateReferences_ok.mp rfl
  kpIds := by decide
  titles := by decide
  targets := by decide
  known := by decide
  memories := by decide
  mastery := by norm_num [feedbackMap]

theorem accepted_longTitle : Accepted longTitleMap samplePlatform where
  references := validateReferences_ok.mp rfl
  kpIds := by decide
  titles := by simp [longTitleMap, sampleGraph, samplePoint, samplePlatform]
  targets := by decide
  known := by decide
  memories := by decide
  mastery := by norm_num [longTitleMap]

theorem kept_of_few (hfew : (extended context).card ≤ 256) (hx : Around context x) :
    Kept context x := by
  rw [← mem_included]
  unfold included
  rw [if_neg (by omega)]
  exact mem_extended.mpr hx

theorem Listed.eq {other : List (KnowledgePoint String F D)} (hlisted : Listed context points)
    (hother : Listed context other) : points = other := by
  have hperm : points.Perm other := by
    refine (List.perm_ext_iff_of_nodup hlisted.points_nodup hother.points_nodup).mpr fun point => ?_
    rw [hlisted.mem, hother.mem]
  refine hperm.eq_of_pairwise ?_ hlisted.ordered hother.ordered
  intro a b _ _ hab hba
  exact absurd hab hba.asymm

theorem listed_feedback : Listed feedbackMap
    [samplePoint "KP_FEEDBACK" "Feedback".toList 0, samplePoint "KP_STABILITY" "Stability".toList 1] := by
  have hfew : (extended feedbackMap).card ≤ 256 := by decide +kernel
  have htarget : Kept feedbackMap "KP_STABILITY" := kept_of_target (by decide)
  have hprerequisite : Kept feedbackMap "KP_FEEDBACK" := by
    refine kept_of_few hfew (.inl ⟨"KP_STABILITY", by decide, .single ⟨_, List.mem_cons_self, rfl, rfl⟩⟩)
  constructor
  · decide
  · intro point
    simp only [feedbackMap, sampleGraph, List.mem_cons, List.not_mem_nil, or_false]
    constructor
    · rintro (rfl | rfl)
      · exact ⟨.inr rfl, hprerequisite⟩
      · exact ⟨.inl rfl, htarget⟩
    · rintro ⟨rfl | rfl, -⟩
      · exact .inr rfl
      · exact .inl rfl

/-- The mind map of stability and feedback. -/
theorem buildContent_complete_feedback : ∃ content, buildContent samplePlatform feedbackMap = .ok content ∧
    Complete feedbackMap content := by
  obtain ⟨points, hlisted, hiff⟩ := buildContent_complete_iff (fun x hlow hhigh => ⟨hlow, hhigh⟩)
    accepted_feedback
  refine hiff.mpr ?_
  rw [hlisted.eq listed_feedback]
  refine ⟨fun x hx => ?_, by decide, ?_, by decide, ?_⟩
  · exact kept_of_few (by decide +kernel) (.inl hx)
  · decide +kernel
  · decide +kernel

/-- **Long titles.** A title of 129 characters is accepted, but no label. -/
theorem longTitle_fails : Accepted longTitleMap samplePlatform ∧
    ¬ ∃ content, buildContent samplePlatform longTitleMap = .ok content := by
  refine ⟨accepted_longTitle, ?_⟩
  rintro ⟨content, hcontent⟩
  have hnone : (buildContent samplePlatform longTitleMap).toOption.isNone = true := by decide +kernel
  rw [hcontent] at hnone
  cases hnone

end CyberControl.MindMap
