import CyberControl.Topology

/-! # The cycle search of the graph verifier

`_has_cycle` of `Topic1GraphVerifier` (`graph/verifier.py`): a depth-first search with three states, which
stops at the first node that it meets again before it has left it. -/

namespace CyberControl.GraphVerification

open Collections CyberControl.Digraph
open CyberControl.Topology (Extends Search Searching Within isClosedWalk_of_mem_stack unvisited
  unvisited_enter_card_lt)

variable {K : Type*} [LinearOrder K]

/-! ### The search -/

/-- What ends the search early: `True`, or nothing of the source, a recursion deeper than the model follows. -/
inductive Halt where
  | cycle
  | outOfFuel

/-- `visit`, following a recursion of depth `fuel`; a node without an entry has state 0. -/
def visit (adjacency : K → Finset K) : ℕ → (K → ℕ) → K → Except Halt (K → ℕ)
  | 0, _, _ => .error .outOfFuel
  | fuel + 1, state, node =>
    if state node = 1 then .error .cycle
    else if state node = 2 then .ok state
    else do
      let left ← (sorted (adjacency node)).foldlM (visit adjacency fuel) (Function.update state node 1)
      .ok (Function.update left node 2)

/-- The nodes of the graph: the keys of the dictionary and the members of its sets. -/
def graphNodes (adjacency : K → Finset K) (keys : Finset K) : Finset K := keys ∪ keys.biUnion adjacency

/-- `_has_cycle`; `keys` are the keys of the dictionary. -/
def hasCycle (adjacency : K → Finset K) (keys : Finset K) : Bool :=
  match (sorted keys).foldlM (visit adjacency ((graphNodes adjacency keys).card + 1)) fun _ => 0 with
  | .error .cycle => true
  | _ => false

/-! ### The search finds a cycle -/

variable {adjacency : K → Finset K} {nodes : Finset K}

/-- `state` is that of a search that meets `P`, or there is a cycle. -/
def Halts (adjacency : K → Finset K) (nodes : Finset K) (P : Search K → Prop) :
    Except Halt (K → ℕ) → Prop
  | .ok state => ∃ s : Search K, s.state = state ∧ P s
  | .error .cycle => ∃ walk, IsClosedWalk (Within adjacency nodes) walk
  | .error .outOfFuel => False

omit [LinearOrder K] in
theorem Halts.bind {P Q : Search K → Prop} {x : Except Halt (K → ℕ)}
    {f : (K → ℕ) → Except Halt (K → ℕ)} (hx : Halts adjacency nodes P x)
    (hf : ∀ s : Search K, P s → Halts adjacency nodes Q (f s.state)) : Halts adjacency nodes Q (x >>= f) := by
  cases x with
  | ok state =>
    obtain ⟨s, rfl, hs⟩ := hx
    exact hf s hs
  | error halt =>
    cases halt with
    | cycle => exact hx
    | outOfFuel => exact hx

omit [LinearOrder K] in
theorem Halts.mono {P Q : Search K → Prop} {x : Except Halt (K → ℕ)} (hx : Halts adjacency nodes P x)
    (h : ∀ s, P s → Q s) : Halts adjacency nodes Q x := by
  cases x with
  | ok state =>
    obtain ⟨s, hstate, hs⟩ := hx
    exact ⟨s, hstate, h s hs⟩
  | error halt =>
    cases halt with
    | cycle => exact hx
    | outOfFuel => exact hx

/-- What a visit of a node leaves. -/
def Left (adjacency : K → Finset K) (nodes : Finset K) (s : Search K) (node : K) (s' : Search K) : Prop :=
  Searching adjacency nodes s' ∧ Extends s s' ∧ s'.state node = 2

theorem children_halt {fuel : ℕ}
    (hvisit : ∀ s node, Searching adjacency nodes s → node ∈ nodes →
      (∀ last ∈ s.stack.getLast?, Within adjacency nodes last node) → (unvisited nodes s).card < fuel →
      Halts adjacency nodes (Left adjacency nodes s node) (visit adjacency fuel s.state node))
    (children : List K) (s : Search K) (hs : Searching adjacency nodes s)
    (hnodes : ∀ child ∈ children, child ∈ nodes)
    (hlast : ∀ last ∈ s.stack.getLast?, ∀ child ∈ children, Within adjacency nodes last child)
    (hfuel : (unvisited nodes s).card < fuel) :
    Halts adjacency nodes
      (fun s' => Searching adjacency nodes s' ∧ Extends s s' ∧ ∀ child ∈ children, s'.state child = 2)
      (children.foldlM (visit adjacency fuel) s.state) := by
  induction children generalizing s with
  | nil => exact ⟨s, rfl, hs, .refl s, by simp⟩
  | cons child children ih =>
    rw [List.foldlM_cons]
    have hturn := hvisit s child hs (hnodes child (by simp)) (fun last hl => hlast last hl child (by simp))
      hfuel
    refine hturn.bind fun t ⟨ht, hst, hdone⟩ => ?_
    have hrest := ih t ht (fun c hc => hnodes c (by simp [hc]))
      (fun last hl c hc => hlast last (hst.stack ▸ hl) c (by simp [hc]))
      (hst.unvisited_card_le.trans_lt hfuel)
    refine hrest.mono fun u ⟨hu, htu, hall⟩ => ⟨hu, hst.trans htu, fun c hc => ?_⟩
    cases List.mem_cons.mp hc with
    | inl hc =>
      subst hc
      rw [htu.kept c (by omega), hdone]
    | inr hc => exact hall c hc

/-- **A visit halts**: it meets a cycle, or it leaves its node and keeps the invariant. -/
theorem visit_halts (hclosed : ∀ node ∈ nodes, ∀ child ∈ adjacency node, child ∈ nodes) {fuel : ℕ}
    {s : Search K} {node : K} (hs : Searching adjacency nodes s) (hnode : node ∈ nodes)
    (hlast : ∀ last ∈ s.stack.getLast?, Within adjacency nodes last node)
    (hfuel : (unvisited nodes s).card < fuel) :
    Halts adjacency nodes (Left adjacency nodes s node) (visit adjacency fuel s.state node) := by
  induction fuel generalizing s node with
  | zero => omega
  | succ fuel ih =>
    unfold visit
    split_ifs with hone htwo
    · exact ⟨_, isClosedWalk_of_mem_stack hs.chain ((hs.onStack node).mp hone) hlast⟩
    · exact ⟨s, rfl, hs, .refl s, htwo⟩
    · have hle := hs.state_le node
      have hnew : s.state node = 0 := by omega
      have hlt := unvisited_enter_card_lt hnode hnew
      have hloop := children_halt (fun t d ht hd hl hf => ih ht hd hl hf) (sorted (adjacency node))
        (s.enter node) (hs.enter hlast) (fun child hc => hclosed node hnode child (mem_sorted.mp hc)) ?_
        (by omega)
      · refine hloop.bind fun left ⟨hleft, hext, hall⟩ => ?_
        have hdone := hs.leave hnew hleft hext fun d hd => hall d (mem_sorted.mpr hd.2.2)
        exact ⟨left.leave node, rfl, hdone.1, hdone.2, Search.leave_state_self⟩
      · intro last hl child hchild
        obtain rfl : node = last := by simpa [Search.enter] using hl
        exact ⟨hnode, hclosed node hnode child (mem_sorted.mp hchild), mem_sorted.mp hchild⟩

theorem searching_start : Searching adjacency nodes ⟨fun _ => 0, []⟩ := by
  refine ⟨fun _ => Nat.zero_le _, fun x => ?_, List.IsChain.nil, fun x hx => ?_⟩
  · simp
  · cases hx

omit [LinearOrder K] in
theorem acyclic_of_left {s : Search K} {keys : Finset K} (hs : Searching adjacency nodes s)
    (hkeys : ∀ key ∈ keys, s.state key = 2) (hedges : ∀ a b, b ∈ adjacency a → a ∈ keys)
    (hclosed : ∀ a b, b ∈ adjacency a → a ∈ nodes ∧ b ∈ nodes) :
    Acyclic fun a b => b ∈ adjacency a := by
  have hwithin : ∀ a b, b ∈ adjacency a → Within adjacency nodes a b :=
    fun a b hab => ⟨(hclosed a b hab).1, (hclosed a b hab).2, hab⟩
  intro x hx
  have hkey : x ∈ keys := by
    obtain ⟨y, hxy, -⟩ := Relation.TransGen.head'_iff.mp hx
    exact hedges x y hxy
  exact not_transGen_of_acc (hs.finished x (hkeys x hkey)) (Relation.TransGen.mono hwithin x x hx)

/-- **The search meets no cycle exactly when the graph is acyclic.** -/
theorem hasCycle_eq_false {keys : Finset K} (hedges : ∀ a b, b ∈ adjacency a → a ∈ keys) :
    hasCycle adjacency keys = false ↔ Acyclic fun a b => b ∈ adjacency a := by
  have hclosed : ∀ a b, b ∈ adjacency a → a ∈ graphNodes adjacency keys ∧ b ∈ graphNodes adjacency keys :=
    fun a b hab => ⟨Finset.mem_union_left _ (hedges a b hab),
      Finset.mem_union_right _ (Finset.mem_biUnion.mpr ⟨a, hedges a b hab, hab⟩)⟩
  have hroots : ∀ key ∈ sorted keys, key ∈ graphNodes adjacency keys :=
    fun key hkey => Finset.mem_union_left _ (mem_sorted.mp hkey)
  have hfuel : (unvisited (graphNodes adjacency keys) ⟨fun _ => 0, []⟩).card
      < (graphNodes adjacency keys).card + 1 := Nat.lt_succ_of_le (Finset.card_filter_le _ _)
  have hhalt := children_halt
    (fun s node hs hnode hlast hf => visit_halts (fun a _ b hab => (hclosed a b hab).2) hs hnode hlast hf)
    (sorted keys) ⟨fun _ => 0, []⟩ searching_start hroots (by simp) hfuel
  unfold hasCycle
  cases hsearch : (sorted keys).foldlM (visit adjacency ((graphNodes adjacency keys).card + 1))
      fun _ => 0 with
  | ok state =>
    rw [hsearch] at hhalt
    obtain ⟨s, -, hs, -, hall⟩ := hhalt
    exact iff_of_true rfl
      (acyclic_of_left hs (fun key hkey => hall key (mem_sorted.mpr hkey)) hedges hclosed)
  | error halt =>
    rw [hsearch] at hhalt
    cases halt with
    | cycle =>
      obtain ⟨walk, hwalk⟩ := hhalt
      refine iff_of_false Bool.noConfusion fun hacyclic => ?_
      exact hwalk.not_acyclic (hacyclic.mono fun a b hab => hab.2.2)
    | outOfFuel => cases hhalt

end CyberControl.GraphVerification
