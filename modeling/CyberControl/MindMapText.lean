import CyberControl.MermaidParser
import CyberControl.MindMap
import CyberControl.TextLines
import Mathlib.Tactic.IntervalCases

/-! # The text of a mind map

What is found in the text that the agent writes. -/

namespace CyberControl.MindMap

open Mermaid TextLines Unicode
open Streaming (isLineBoundary)

-- `decide` runs through a text, not through all characters
local instance (priority := high) decidableAll (text : List Char) (p : Char → Prop) [DecidablePred p] :
    Decidable (∀ c ∈ text, p c) := List.decidableBAll p text

/-! ### Printable text -/

def Printable (text : List Char) : Prop := ∀ c ∈ text, 32 ≤ c.toNat ∧ c.toNat < 127

instance (text : List Char) : Decidable (Printable text) := List.decidableBAll _ text

/-- A printable character that is no space. -/
def IsVisible (c : Char) : Prop := 33 ≤ c.toNat ∧ c.toNat < 127

instance (c : Char) : Decidable (IsVisible c) := inferInstanceAs (Decidable (_ ∧ _))

/-- The text begins and ends with a visible character. -/
structure VisibleEnds (text : List Char) : Prop where
  head : ∃ c, text.head? = some c ∧ IsVisible c
  last : ∃ c, text.getLast? = some c ∧ IsVisible c

theorem Printable.append {a b : List Char} (ha : Printable a) (hb : Printable b) : Printable (a ++ b) := by
  intro c hc
  rcases List.mem_append.mp hc with hc | hc
  · exact ha c hc
  · exact hb c hc

variable {text : List Char}

theorem Printable.ascii (h : Printable text) : ∀ c ∈ text, c.toNat < 128 :=
  fun c hc => (h c hc).2.trans (by decide)

theorem VisibleEnds.ne_nil (h : VisibleEnds text) : text ≠ [] := by
  rintro rfl
  obtain ⟨c, hc, -⟩ := h.head
  cases hc

theorem visibleEnds_append {first middle last : List Char}
    (hfirst : ∃ c, first.head? = some c ∧ IsVisible c) (hlast : ∃ c, last.getLast? = some c ∧ IsVisible c) :
    VisibleEnds (first ++ middle ++ last) := by
  obtain ⟨c, hc, hvisible⟩ := hfirst
  obtain ⟨d, hd, hvisible'⟩ := hlast
  refine ⟨⟨c, ?_, hvisible⟩, ⟨d, ?_, hvisible'⟩⟩
  · rw [List.append_assoc, List.head?_append, hc]
    rfl
  · rw [List.getLast?_append, hd]
    rfl

/-! ### Lines -/

variable {c : Char}

theorem toDigits_bounds {n : ℕ} (h : c ∈ Nat.toDigits 10 n) : 48 ≤ c.toNat ∧ c.toNat ≤ 57 := by
  have hdigit := Nat.isDigit_of_mem_toDigits (by decide) (by decide) h
  simp only [Char.isDigit, Bool.and_eq_true, decide_eq_true_eq, ge_iff_le, UInt32.le_iff_toNat_le] at hdigit
  exact hdigit

theorem nodeIdAt_printable (i : ℕ) : Printable (nodeIdAt i) := by
  intro c hc
  rcases List.mem_cons.mp hc with rfl | hc
  · decide
  · have hbounds := toDigits_bounds hc
    omega

theorem nodeIdAt_visible (i : ℕ) : VisibleEnds (nodeIdAt i) := by
  refine ⟨⟨'K', rfl, by decide⟩, ?_⟩
  have hne : Nat.toDigits 10 i ≠ [] := Nat.toDigits_ne_nil
  refine ⟨(Nat.toDigits 10 i).getLast hne, ?_, ?_⟩
  · unfold nodeIdAt
    rw [List.getLast?_cons, List.getLast?_eq_some_getLast hne]
    rfl
  · have hbounds := toDigits_bounds (List.getLast_mem hne)
    unfold IsVisible
    omega

/-- An identifier of the agent. -/
def IsNodeId (nodeId : List Char) : Prop := ∃ i < 512, nodeId = nodeIdAt i

variable {nodeId : List Char}

theorem IsNodeId.printable (h : IsNodeId nodeId) : Printable nodeId := by
  obtain ⟨i, -, rfl⟩ := h
  exact nodeIdAt_printable i

theorem IsNodeId.visible (h : IsNodeId nodeId) : VisibleEnds nodeId := by
  obtain ⟨i, -, rfl⟩ := h
  exact nodeIdAt_visible i

/-- The nodes have identifiers of the agent, and the edges are between different nodes. -/
structure Numbered (nodes : List MindMapNodeV1) (edges : List MindMapEdgeV1) : Prop where
  nonempty : nodes ≠ []
  nodeIds : ∀ node ∈ nodes, IsNodeId node.nodeId
  nodup : (nodes.map (·.nodeId)).Nodup
  sources : ∀ edge ∈ edges, edge.sourceNodeId ∈ nodes.map (·.nodeId)
  targets : ∀ edge ∈ edges, edge.targetNodeId ∈ nodes.map (·.nodeId)
  noSelfEdge : ∀ edge ∈ edges, edge.sourceNodeId ≠ edge.targetNodeId
  nodes_length : nodes.length ≤ 512
  edges_length : edges.length ≤ 2048

theorem Numbered.isNodeId {nodes : List MindMapNodeV1} {edges : List MindMapEdgeV1}
    (h : Numbered nodes edges) (hmem : nodeId ∈ nodes.map (·.nodeId)) :
    IsNodeId nodeId := by
  obtain ⟨node, hnode, rfl⟩ := List.mem_map.mp hmem
  exact h.nodeIds node hnode

variable {edge : MindMapEdgeV1}

theorem edgeLine_printable (hsource : IsNodeId edge.sourceNodeId)
    (htarget : IsNodeId edge.targetNodeId) : Printable (edgeLine edge) :=
  (hsource.printable.append (by decide)).append htarget.printable

theorem edgeLine_visible (hsource : IsNodeId edge.sourceNodeId)
    (htarget : IsNodeId edge.targetNodeId) : VisibleEnds (edgeLine edge) :=
  visibleEnds_append hsource.visible.head htarget.visible.last

theorem classDefLine_printable : ∀ entry ∈ stateClasses, Printable (classDefLine entry.2.1 entry.2.2) := by
  decide

theorem name_printable : ∀ entry ∈ stateClasses, Printable entry.2.1.toList := by decide

variable {ids : List (List Char)}

theorem ids_printable (hids : ∀ id ∈ ids, IsNodeId id) :
    Printable ([','].intercalate ids) := by
  intro c hc
  rcases mem_join hc with rfl | ⟨id, hid, hc⟩
  · decide
  · exact (hids id hid).printable c hc

theorem classLine_printable (hids : ∀ id ∈ ids, IsNodeId id) :
    ∀ entry ∈ stateClasses, Printable (classLine ids entry.2.1) := by
  intro entry hentry
  refine (Printable.append (by decide) (ids_printable hids)).append ?_
  exact Printable.append (a := [' ']) (by decide) (name_printable entry hentry)

theorem classDefLine_visible : ∀ entry ∈ stateClasses, VisibleEnds (classDefLine entry.2.1 entry.2.2) := by
  simp only [stateClasses, List.forall_mem_cons]
  refine ⟨?_, ?_, ?_, ?_, ?_, by simp⟩ <;>
    exact ⟨⟨_, rfl, by decide⟩, ⟨_, rfl, by decide⟩⟩

theorem classLine_visible (ids : List (List Char)) :
    ∀ entry ∈ stateClasses, VisibleEnds (classLine ids entry.2.1) := by
  simp only [stateClasses, List.forall_mem_cons]
  refine ⟨?_, ?_, ?_, ?_, ?_, by simp⟩ <;>
    exact visibleEnds_append ⟨_, rfl, by decide⟩ ⟨_, rfl, by decide⟩

variable {line : List Char}

theorem mem_styleLines {nodes : List MindMapNodeV1} (h : line ∈ styleLines nodes) :
    ∃ entry ∈ stateClasses, line = classDefLine entry.2.1 entry.2.2 ∨
      (memberIds nodes entry.1 ≠ [] ∧ line = classLine (memberIds nodes entry.1) entry.2.1) := by
  obtain ⟨entry, hentry, hline⟩ := List.mem_flatMap.mp h
  refine ⟨entry, hentry, ?_⟩
  rcases List.mem_cons.mp hline with hline | hline
  · exact .inl hline
  · split_ifs at hline with hmembers
    · cases hline
    · exact .inr ⟨hmembers, List.mem_singleton.mp hline⟩

theorem memberIds_subset (nodes : List MindMapNodeV1) (state : NodeState) :
    memberIds nodes state ⊆ nodes.map (·.nodeId) :=
  List.map_subset _ (List.filter_subset_self nodes)

/-! ### The body of a text -/

section body
variable {db : Standard} {nodes : List MindMapNodeV1} {edges : List MindMapEdgeV1}
  {label : MindMapNodeV1 → List Char}

theorem Numbered.line_cases (h : Numbered nodes edges)
    (hline : line ∈ edges.map edgeLine ++ styleLines nodes) : Printable line ∧ VisibleEnds line := by
  rcases List.mem_append.mp hline with hline | hline
  · obtain ⟨edge, hedge, rfl⟩ := List.mem_map.mp hline
    have hsource := h.isNodeId (h.sources edge hedge)
    have htarget := h.isNodeId (h.targets edge hedge)
    exact ⟨edgeLine_printable hsource htarget, edgeLine_visible hsource htarget⟩
  · obtain ⟨entry, hentry, rfl | ⟨-, rfl⟩⟩ := mem_styleLines hline
    · exact ⟨classDefLine_printable entry hentry, classDefLine_visible entry hentry⟩
    · refine ⟨classLine_printable (fun id hid => ?_) entry hentry, classLine_visible _ entry hentry⟩
      exact h.isNodeId (memberIds_subset nodes entry.1 hid)

theorem nodeLine_visible {nodeId text : List Char} (h : IsNodeId nodeId) :
    VisibleEnds (nodeLine nodeId text) := by
  obtain ⟨i, -, rfl⟩ := h
  exact visibleEnds_append ⟨'K', rfl, by decide⟩ ⟨']', rfl, by decide⟩

theorem nodeLine_eq (nodeId text : List Char) :
    nodeLine nodeId text = (nodeId ++ ['[']) ++ '"' :: (text ++ '"' :: [']']) := by
  unfold nodeLine
  simp

theorem indent_nodeLine (nodeId text : List Char) :
    indent (nodeLine nodeId text) = nodeLine (indent nodeId) text := by
  unfold indent nodeLine
  simp only [List.append_assoc]

theorem indent_printable (h : Printable line) : Printable (indent line) :=
  Printable.append (by decide) h

theorem mem_bodyLines : line ∈ bodyLines label nodes edges ↔
    (∃ node ∈ nodes, line = nodeLine node.nodeId (label node)) ∨
      line ∈ edges.map edgeLine ++ styleLines nodes := by
  unfold bodyLines
  rw [List.append_assoc, List.mem_append, List.mem_map]
  simp only [eq_comm]

theorem Numbered.body_visible (h : Numbered nodes edges)
    (hline : line ∈ bodyLines label nodes edges) : VisibleEnds line := by
  rcases mem_bodyLines.mp hline with ⟨node, hnode, rfl⟩ | hline
  · exact nodeLine_visible (h.nodeIds node hnode)
  · exact (h.line_cases hline).2

theorem styleLines_ne_nil (nodes : List MindMapNodeV1) : styleLines nodes ≠ [] := by
  unfold styleLines stateClasses
  simp

theorem Numbered.text_visible (h : Numbered nodes edges) : VisibleEnds (mermaidText label nodes edges) := by
  refine ⟨⟨'g', ?_, by decide⟩, ?_⟩
  · unfold mermaidText
    exact congrArg List.head? (@List.intercalate_cons_cons_left Char ['\n'] "raph TD".toList 'g' _)
  · have hne : bodyLines label nodes edges ≠ [] := by
      unfold bodyLines
      simp [styleLines_ne_nil]
    have hlast := List.getLast?_eq_some_getLast hne
    have hvisible := h.body_visible (List.getLast_mem hne)
    obtain ⟨c, hc, hcvisible⟩ := hvisible.last
    refine ⟨c, ?_, hcvisible⟩
    have hend : (("graph TD".toList) :: (bodyLines label nodes edges).map indent).getLast?
        = some (indent ((bodyLines label nodes edges).getLast hne)) := by
      rw [List.getLast?_cons, List.getLast?_map, hlast]
      rfl
    unfold mermaidText
    rw [getLast?_join hend (List.append_ne_nil_of_right_ne_nil _ hvisible.ne_nil)]
    unfold indent
    rw [List.getLast?_append, hc]
    rfl

/-! ### Foreign tokens -/

/-- The characters of identifiers, arrows and shapes in lower case. -/
def isLink (c : Char) : Bool := c.isDigit || [' ', 'k', '[', ']', '-', '>', ','].contains c

/-- The token up to its first space. -/
def core (token : List Char) : List Char := token.takeWhile (· ≠ ' ')

/-- The words of the line of a class in lower case. -/
def classWords : List (List Char) :=
  "class".toList :: stateClasses.map fun entry => entry.2.1.toList.map Char.toLower

/-- The lines of the text, apart from the labels and in lower case, do not contain the token. -/
def Foreign (token : List Char) : Prop :=
  '\n' ∉ token ∧ '"' ∉ token ∧ ¬ token <:+: "graph td".toList ∧ (∃ c ∈ core token, isLink c = false) ∧
    (∀ word ∈ classWords, ¬ core token <:+: word) ∧
    ∀ entry ∈ stateClasses, ¬ token <:+: (indent (classDefLine entry.2.1 entry.2.2)).map Char.toLower

instance (token : List Char) : Decidable (Foreign token) :=
  have : Decidable (∃ c ∈ core token, isLink c = false) := List.decidableBEx _ (core token)
  inferInstanceAs (Decidable (_ ∧ _))

theorem foreign_forbidden : ∀ token ∈ forbiddenTokens, Foreign token.toList := by decide +kernel

theorem core_infix_token (token : List Char) : core token <:+: token := (List.takeWhile_prefix _).isInfix

theorem space_notMem_core (token : List Char) : ' ' ∉ core token := by
  intro hspace
  have hne := List.mem_takeWhile_imp hspace
  simp at hne

theorem core_not_of_links {token text : List Char} (h : ∃ c ∈ core token, isLink c = false)
    (htext : ∀ c ∈ text, isLink c = true) : ¬ core token <:+: text := by
  obtain ⟨c, hc, hlink⟩ := h
  refine not_infix_of_mem hc fun hmem => ?_
  rw [htext c hmem] at hlink
  cases hlink

theorem isLink_nodeIdAt {i : ℕ} (h : c ∈ (nodeIdAt i).map Char.toLower) : isLink c = true := by
  obtain ⟨d, hd, rfl⟩ := List.mem_map.mp h
  rcases List.mem_cons.mp hd with rfl | hd
  · decide
  · obtain ⟨hlow, hhigh⟩ := toDigits_bounds hd
    rw [← Char.ofNat_toNat d]
    generalize d.toNat = n at hlow hhigh
    interval_cases n <;> decide

theorem IsNodeId.isLink (h : IsNodeId nodeId)
    (hc : c ∈ nodeId.map Char.toLower) : isLink c = true := by
  obtain ⟨i, -, rfl⟩ := h
  exact isLink_nodeIdAt hc

theorem edgeLine_isLink (hsource : IsNodeId edge.sourceNodeId)
    (htarget : IsNodeId edge.targetNodeId) :
    ∀ c ∈ (indent (edgeLine edge)).map Char.toLower, isLink c = true := by
  have hindent : ∀ c ∈ "    ".toList, isLink c = true := by decide
  have harrow : ∀ c ∈ " --> ".toList.map Char.toLower, isLink c = true := by decide
  intro c hc
  unfold indent edgeLine at hc
  simp only [List.map_append, List.mem_append] at hc
  rcases hc with hc | (hc | hc) | hc
  · exact hindent c hc
  · exact hsource.isLink hc
  · exact harrow c hc
  · exact htarget.isLink hc

theorem classLine_words (ids : List (List Char)) (name : String) :
    (indent (classLine ids name)).map Char.toLower = [' '].intercalate [[], [], [], [], "class".toList,
      ([','].intercalate ids).map Char.toLower, name.toList.map Char.toLower] := by
  unfold indent classLine
  simp [List.intercalate]

variable {token : List Char}

theorem classLine_without (h : Foreign token)
    (hids : ∀ id ∈ ids, IsNodeId id) :
    ∀ entry ∈ stateClasses, ¬ token <:+: (indent (classLine ids entry.2.1)).map Char.toLower := by
  intro entry hentry htoken
  obtain ⟨-, -, -, hlink, hwords, -⟩ := h
  have hcore := (core_infix_token token).trans htoken
  rw [classLine_words, infix_join (space_notMem_core token) (List.cons_ne_nil _ _)] at hcore
  obtain ⟨word, hword, hcore⟩ := hcore
  have hnil : ¬ core token <:+: [] := core_not_of_links hlink (by simp)
  have hjoined : ∀ c ∈ ([','].intercalate ids).map Char.toLower, isLink c = true := by
    intro c hc
    obtain ⟨d, hd, rfl⟩ := List.mem_map.mp hc
    rcases mem_join hd with rfl | ⟨id, hid, hd⟩
    · decide
    · exact (hids id hid).isLink (List.mem_map_of_mem hd)
  simp only [List.mem_cons, List.not_mem_nil, or_false] at hword
  rcases hword with rfl | rfl | rfl | rfl | rfl | rfl | rfl
  · exact hnil hcore
  · exact hnil hcore
  · exact hnil hcore
  · exact hnil hcore
  · exact hwords _ List.mem_cons_self hcore
  · exact core_not_of_links hlink hjoined hcore
  · exact hwords _ (List.mem_cons_of_mem _ (List.mem_map_of_mem hentry)) hcore

theorem Numbered.line_without (h : Numbered nodes edges) (htoken : Foreign token)
    (hline : line ∈ edges.map edgeLine ++ styleLines nodes) :
    ¬ token <:+: (indent line).map Char.toLower := by
  rcases List.mem_append.mp hline with hline | hline
  · obtain ⟨edge, hedge, rfl⟩ := List.mem_map.mp hline
    have hlink := edgeLine_isLink (h.isNodeId (h.sources edge hedge)) (h.isNodeId (h.targets edge hedge))
    exact fun hinfix => core_not_of_links htoken.2.2.2.1 hlink ((core_infix_token token).trans hinfix)
  · obtain ⟨entry, hentry, rfl | ⟨-, rfl⟩⟩ := mem_styleLines hline
    · exact htoken.2.2.2.2.2 entry hentry
    · exact classLine_without htoken
        (fun id hid => h.isNodeId (memberIds_subset nodes entry.1 hid)) entry hentry

variable {f : Char → List Char}

theorem flatMap_ascii (hf : ∀ c : Char, c.toNat < 128 → f c = [c.toLower])
    (h : ∀ c ∈ text, c.toNat < 128) : text.flatMap f = text.map Char.toLower := by
  rw [List.flatMap_congr fun c hc => hf c (h c hc)]
  exact (List.map_eq_flatMap).symm

/-- In the line of a node a foreign token is found where it is in the label. -/
theorem infix_nodeLine (hf : ∀ c : Char, c.toNat < 128 → f c = [c.toLower])
    (htoken : Foreign token) {nodeId text : List Char} (h : IsNodeId nodeId) :
    token <:+: (indent (nodeLine nodeId text)).flatMap f ↔ token <:+: text.flatMap f := by
  have hbefore : Printable (indent nodeId ++ ['[']) := (indent_printable h.printable).append (by decide)
  have hlink : ∀ c ∈ (indent nodeId ++ ['[']).map Char.toLower, isLink c = true := by
    have hindent : ∀ c ∈ "    ".toList.map Char.toLower, isLink c = true := by decide
    intro c hc
    unfold indent at hc
    simp only [List.map_append, List.mem_append] at hc
    rcases hc with (hc | hc) | hc
    · exact hindent c hc
    · exact h.isLink hc
    · rw [List.mem_singleton.mp hc]
      decide
  have hafter : ¬ token <:+: [']'].map Char.toLower := fun hinfix =>
    core_not_of_links htoken.2.2.2.1 (by decide) ((core_infix_token token).trans hinfix)
  have hquote : f '"' = ['"'] := hf '"' (by decide)
  have hsplit : (indent (nodeLine nodeId text)).flatMap f = (indent nodeId ++ ['[']).map Char.toLower
      ++ '"' :: (text.flatMap f ++ '"' :: [']'].map Char.toLower) := by
    rw [← flatMap_ascii hf hbefore.ascii, ← flatMap_ascii hf (show ∀ c ∈ [']'], c.toNat < 128 by decide),
      indent_nodeLine, nodeLine_eq]
    simp [List.flatMap_append, hquote]
  rw [hsplit, infix_around htoken.2.1, infix_around htoken.2.1, or_iff_left hafter]
  exact or_iff_right fun hinfix =>
    core_not_of_links htoken.2.2.2.1 hlink ((core_infix_token token).trans hinfix)

/-- **A foreign token** is found in the text in lower case when it is found in a label. -/
theorem infix_mermaidText (hf : ∀ c : Char, c.toNat < 128 → f c = [c.toLower])
    (htoken : Foreign token) (h : Numbered nodes edges) :
    token <:+: (mermaidText label nodes edges).flatMap f ↔
      ∃ node ∈ nodes, token <:+: (label node).flatMap f := by
  have hheader : "graph TD".toList.flatMap f = "graph td".toList := flatMap_ascii hf (by decide)
  unfold mermaidText
  rw [flatMap_join, hf '\n' (by decide)]
  have hnewline : '\n'.toLower = '\n' := by decide
  rw [hnewline, List.map_cons, infix_join htoken.1 (List.cons_ne_nil _ _), List.exists_mem_cons_iff, hheader,
    or_iff_right htoken.2.2.1, List.map_map]
  constructor
  · rintro ⟨line, hline, hinfix⟩
    obtain ⟨under, hunder, rfl⟩ := List.mem_map.mp hline
    rcases mem_bodyLines.mp hunder with ⟨node, hnode, rfl⟩ | hunder
    · exact ⟨node, hnode, (infix_nodeLine hf htoken (h.nodeIds node hnode)).mp hinfix⟩
    · have hascii := (indent_printable (h.line_cases hunder).1).ascii
      rw [Function.comp_apply, flatMap_ascii hf hascii] at hinfix
      exact absurd hinfix (h.line_without htoken hunder)
  · rintro ⟨node, hnode, hinfix⟩
    refine ⟨_, List.mem_map_of_mem (mem_bodyLines.mpr (.inl ⟨node, hnode, rfl⟩)), ?_⟩
    exact (infix_nodeLine hf htoken (h.nodeIds node hnode)).mpr hinfix

end body

end CyberControl.MindMap
