import CyberControl.Collections
import CyberControl.Kahn

/-! # Topology of the knowledge graph

`analyze_topology` of `domains/topic1/topology.py`: it builds the adjacency sets, puts the nodes in
order with their levels, and when some are left over it raises the cycle that a depth-first search
finds among them. -/

namespace CyberControl.Topology

open Collections CyberControl.Digraph

variable {K : Type*} [LinearOrder K]

structure TopologyEdge (K : Type*) where
  prerequisiteKpId : K
  dependentKpId : K

/-- What `analyze_topology` raises: a `ValueError`, its subclass for a cycle, or nothing of the
source: a recursion deeper than the model follows. -/
inductive TopologyError (K : Type*)
  | valueError (text : String)
  | topologyCycleError (cycle : List K)
  | outOfFuel

/-- The returned metrics without the weights, which are floating-point numbers. -/
structure TopologyMetrics (K : Type*) where
  topologicalOrder : List K
  levels : K → ℕ

/-! ### Adjacency -/

/-- The two dictionaries that the first loop fills. -/
structure Adjacency (K : Type*) where
  adjacency : K → Finset K
  indegree : K → ℤ

def Adjacency.empty : Adjacency K := ⟨fun _ => ∅, fun _ => 0⟩

/-- `dependents.add(…)` and `indegree[…] += 1`. -/
def Adjacency.link (a : Adjacency K) (prerequisite dependent : K) : Adjacency K where
  adjacency := Function.update a.adjacency prerequisite (insert dependent (a.adjacency prerequisite))
  indegree := Function.update a.indegree dependent (a.indegree dependent + 1)

/-- One turn of the first loop. -/
def addEdge (nodeIds : Finset K) (a : Adjacency K) (edge : TopologyEdge K) :
    Except (TopologyError K) (Adjacency K) :=
  if edge.prerequisiteKpId ∉ nodeIds ∨ edge.dependentKpId ∉ nodeIds then
    .error (.valueError "topology edge references an unknown knowledge point")
  else if edge.prerequisiteKpId = edge.dependentKpId then
    .error (.topologyCycleError [edge.prerequisiteKpId, edge.dependentKpId])
  else if edge.dependentKpId ∈ a.adjacency edge.prerequisiteKpId then .ok a
  else .ok (a.link edge.prerequisiteKpId edge.dependentKpId)

/-! ### The order and the levels -/

/-- The variables of the second loop. -/
structure Sweep (K : Type*) extends Kahn.State K where
  levels : K → ℕ

/-- `for dependent in sorted(adjacency[current])`. -/
def relax (current : K) (s : Sweep K) (dependent : K) : Sweep K where
  toState := Kahn.release s.toState dependent
  levels := Function.update s.levels dependent (max (s.levels dependent) (s.levels current + 1))

/-- `while ready`, at most `fuel` times. -/
def sweep (adjacency : K → Finset K) : ℕ → Sweep K → Sweep K
  | 0, s => s
  | fuel + 1, s =>
    match s.ready with
    | [] => s
    | current :: ready =>
      sweep adjacency fuel ((sorted (adjacency current)).foldl (relax current)
        { s with ready := ready, order := s.order ++ [current] })

/-! ### The search for a cycle -/

/-- The dictionary and the stack of `_find_cycle`; a node without an entry has state 0. -/
structure Search (K : Type*) where
  state : K → ℕ
  stack : List K

/-- `state[node_id] = 1` and `stack.append(node_id)`. -/
def Search.enter (s : Search K) (nodeId : K) : Search K :=
  ⟨Function.update s.state nodeId 1, s.stack ++ [nodeId]⟩

/-- `stack.pop()` and `state[node_id] = 2`. -/
def Search.leave (s : Search K) (nodeId : K) : Search K :=
  ⟨Function.update s.state nodeId 2, s.stack.dropLast⟩

/-- What ends the search early. -/
inductive Stop (K : Type*)
  | cycle (cycle : List K)
  | outOfFuel

/-- One turn of the loop of `visit` over the dependents; `visit` is the recursive call. -/
def follow (candidates : Finset K) (visit : Search K → K → Except (Stop K) (Search K))
    (s : Search K) (dependent : K) : Except (Stop K) (Search K) :=
  if dependent ∉ candidates then .ok s
  else if s.state dependent = 0 then visit s dependent
  else if s.state dependent = 1 then
    .error (.cycle (s.stack.drop (s.stack.idxOf dependent) ++ [dependent]))
  else .ok s

/-- `visit`, following a recursion of depth `fuel`. -/
def visit (adjacency : K → Finset K) (candidates : Finset K) :
    ℕ → Search K → K → Except (Stop K) (Search K)
  | 0, _, _ => .error .outOfFuel
  | fuel + 1, s, nodeId => do
    let left ← (sorted (adjacency nodeId)).foldlM
      (follow candidates (visit adjacency candidates fuel)) (s.enter nodeId)
    .ok (left.leave nodeId)

/-- `for node_id in sorted(candidates)`. -/
def visitRoot (adjacency : K → Finset K) (candidates : Finset K) (s : Search K) (nodeId : K) :
    Except (Stop K) (Search K) :=
  if s.state nodeId = 0 then visit adjacency candidates candidates.card s nodeId else .ok s

def findCycle (adjacency : K → Finset K) (candidates : Finset K) : Except (Stop K) (List K) :=
  match (sorted candidates).foldlM (visitRoot adjacency candidates) ⟨fun _ => 0, []⟩ with
  | .error (.cycle cycle) => .ok cycle
  | .error .outOfFuel => .error .outOfFuel
  | .ok _ => .ok (sorted candidates)

/-! ### `analyze_topology` -/

/-- The variables before the second loop. -/
def firstSweep (nodeIds : Finset K) (a : Adjacency K) : Sweep K where
  ready := sorted (nodeIds.filter fun nodeId => a.indegree nodeId = 0)
  order := []
  indegree := a.indegree
  levels := fun _ => 0

/-- What follows the second loop: all nodes are in order, or there is a cycle among the others. -/
def metricsOf (nodeIds : Finset K) (adjacency : K → Finset K) (s : Sweep K) :
    Except (TopologyError K) (TopologyMetrics K) :=
  if s.order.length ≠ nodeIds.card then
    match findCycle adjacency (nodeIds \ s.order.toFinset) with
    | .ok cycle => .error (.topologyCycleError cycle)
    | .error _ => .error .outOfFuel
  else .ok ⟨s.order, s.levels⟩

def analyzeTopology (nodeIds : Finset K) (edges : List (TopologyEdge K)) :
    Except (TopologyError K) (TopologyMetrics K) := do
  let a ← edges.foldlM (addEdge nodeIds) Adjacency.empty
  metricsOf nodeIds a.adjacency (sweep a.adjacency nodeIds.card (firstSweep nodeIds a))

/-! ### The search finds a cycle -/

section search
variable {adjacency : K → Finset K} {candidates : Finset K}

variable (adjacency candidates) in
/-- An edge between candidates. -/
def Within (a b : K) : Prop := a ∈ candidates ∧ b ∈ candidates ∧ b ∈ adjacency a

variable (adjacency candidates) in
/-- The stack is a walk, and no walk along the candidates goes on for ever from a node that the
search has left. -/
structure Searching (s : Search K) : Prop where
  state_le : ∀ x, s.state x ≤ 2
  onStack : ∀ x, s.state x = 1 ↔ x ∈ s.stack
  chain : s.stack.IsChain (Within adjacency candidates)
  finished : ∀ x, s.state x = 2 → Acc (fun b a => Within adjacency candidates a b) x

/-- `s'` has the stack of `s` and keeps the state of each node that has one. -/
structure Extends (s s' : Search K) : Prop where
  stack : s'.stack = s.stack
  kept : ∀ x, s.state x ≠ 0 → s'.state x = s.state x

omit [LinearOrder K] in
theorem Extends.refl (s : Search K) : Extends s s := ⟨rfl, fun _ _ => rfl⟩

omit [LinearOrder K] in
theorem Extends.trans {s t u : Search K} (hst : Extends s t) (htu : Extends t u) : Extends s u := by
  refine ⟨htu.stack.trans hst.stack, fun x hx => ?_⟩
  have hxt := hst.kept x hx
  rw [htu.kept x (by rw [hxt]; exact hx), hxt]

variable (adjacency candidates) in
/-- How a search may end: in a state meeting `P`, or with a cycle. -/
def Ends (P : Search K → Prop) : Except (Stop K) (Search K) → Prop
  | .ok s => P s
  | .error (.cycle cycle) => IsClosedWalk (Within adjacency candidates) cycle
  | .error .outOfFuel => False

omit [LinearOrder K] in
theorem Ends.bind {P Q : Search K → Prop} {x : Except (Stop K) (Search K)}
    {f : Search K → Except (Stop K) (Search K)} (hx : Ends adjacency candidates P x)
    (hf : ∀ s, P s → Ends adjacency candidates Q (f s)) : Ends adjacency candidates Q (x >>= f) := by
  cases x with
  | ok s => exact hf s hx
  | error stop => cases stop with
    | cycle c => exact hx
    | outOfFuel => exact hx

omit [LinearOrder K] in
theorem Ends.mono {P Q : Search K → Prop} {x : Except (Stop K) (Search K)}
    (hx : Ends adjacency candidates P x) (h : ∀ s, P s → Q s) : Ends adjacency candidates Q x := by
  cases x with
  | ok s => exact h s hx
  | error stop => cases stop with
    | cycle c => exact hx
    | outOfFuel => exact hx

variable (candidates) in
/-- The candidates that have no state yet. -/
def unvisited (s : Search K) : Finset K := candidates.filter fun x => s.state x = 0

omit [LinearOrder K] in
theorem Extends.unvisited_card_le {s s' : Search K} (h : Extends s s') :
    (unvisited candidates s').card ≤ (unvisited candidates s).card := by
  refine Finset.card_le_card fun x hx => ?_
  obtain ⟨hc, hzero⟩ := Finset.mem_filter.mp hx
  refine Finset.mem_filter.mpr ⟨hc, ?_⟩
  by_contra hne
  exact hne ((h.kept x hne).symm.trans hzero)

theorem isClosedWalk_of_mem_stack {stack : List K} {dependent : K}
    (hchain : stack.IsChain (Within adjacency candidates)) (hmem : dependent ∈ stack)
    (hlast : ∀ last ∈ stack.getLast?, Within adjacency candidates last dependent) :
    IsClosedWalk (Within adjacency candidates)
      (stack.drop (stack.idxOf dependent) ++ [dependent]) := by
  have hlt := List.idxOf_lt_length_of_mem hmem
  have hdrop : stack.drop (stack.idxOf dependent)
      = dependent :: stack.drop (stack.idxOf dependent + 1) := by
    rw [List.drop_eq_getElem_cons hlt, List.getElem_idxOf]
  refine ⟨dependent, stack.drop (stack.idxOf dependent + 1), by rw [hdrop]; rfl, ?_⟩
  refine (hchain.drop _).append (List.isChain_singleton _) ?_
  intro last hl b hb
  obtain rfl : dependent = b := by simpa using hb
  refine hlast last ?_
  rwa [List.getLast?_drop, if_neg (by omega)] at hl

theorem follow_ends {fuel : ℕ}
    (hvisit : ∀ s node, Searching adjacency candidates s → node ∈ candidates → s.state node = 0 →
      (∀ last ∈ s.stack.getLast?, Within adjacency candidates last node) →
      (unvisited candidates s).card ≤ fuel →
      Ends adjacency candidates
        (fun s' => Searching adjacency candidates s' ∧ Extends s s' ∧ s'.state node = 2)
        (visit adjacency candidates fuel s node))
    (dependents : List K) (s : Search K) (hs : Searching adjacency candidates s)
    (hlast : ∀ last ∈ s.stack.getLast?, ∀ d ∈ dependents, d ∈ candidates →
      Within adjacency candidates last d)
    (hfuel : (unvisited candidates s).card ≤ fuel) :
    Ends adjacency candidates
      (fun s' => Searching adjacency candidates s' ∧ Extends s s' ∧
        ∀ d ∈ dependents, d ∈ candidates → s'.state d = 2)
      (dependents.foldlM (follow candidates (visit adjacency candidates fuel)) s) := by
  induction dependents generalizing s with
  | nil => exact ⟨hs, .refl s, by simp⟩
  | cons d dependents ih =>
    rw [List.foldlM_cons]
    have hturn : Ends adjacency candidates
        (fun s' => Searching adjacency candidates s' ∧ Extends s s' ∧
          (d ∈ candidates → s'.state d = 2))
        (follow candidates (visit adjacency candidates fuel) s d) := by
      rw [follow]
      split_ifs with hd hzero hone
      · have hlastD : ∀ last ∈ s.stack.getLast?, Within adjacency candidates last d :=
          fun last hl => hlast last hl d (by simp) hd
        exact (hvisit s d hs hd hzero hlastD hfuel).mono fun t ht => ⟨ht.1, ht.2.1, fun _ => ht.2.2⟩
      · exact isClosedWalk_of_mem_stack hs.chain ((hs.onStack d).mp hone)
          fun last hl => hlast last hl d (by simp) hd
      · have hle := hs.state_le d
        exact ⟨hs, .refl s, fun _ => by omega⟩
      · exact ⟨hs, .refl s, fun h => absurd h hd⟩
    refine hturn.bind fun t ⟨ht, hst, hdone⟩ => ?_
    have hrest := ih t ht
      (fun last hl e he hec => hlast last (hst.stack ▸ hl) e (by simp [he]) hec)
      (hst.unvisited_card_le.trans hfuel)
    refine hrest.mono fun u ⟨hu, htu, hall⟩ => ⟨hu, hst.trans htu, fun e he hec => ?_⟩
    rcases List.mem_cons.mp he with rfl | he
    · rw [htu.kept e (by rw [hdone hec]; omega), hdone hec]
    · exact hall e he hec

variable {s : Search K}

theorem Search.enter_state_of_ne {node x : K} (h : x ≠ node) :
    (s.enter node).state x = s.state x := Function.update_of_ne h _ _

theorem Search.leave_state_of_ne {node x : K} (h : x ≠ node) :
    (s.leave node).state x = s.state x := Function.update_of_ne h _ _

variable {node : K}

@[simp] theorem Search.enter_state_self : (s.enter node).state node = 1 :=
  Function.update_self _ _ _

@[simp] theorem Search.leave_state_self : (s.leave node).state node = 2 :=
  Function.update_self _ _ _

theorem Searching.enter (hs : Searching adjacency candidates s)
    (hlast : ∀ last ∈ s.stack.getLast?, Within adjacency candidates last node) :
    Searching adjacency candidates (s.enter node) := by
  refine ⟨fun x => ?_, fun x => ?_, ?_, fun x hx => ?_⟩
  · by_cases hxn : x = node
    · simp [hxn]
    · rw [Search.enter_state_of_ne hxn]
      exact hs.state_le x
  · by_cases hxn : x = node
    · simp [hxn, Search.enter]
    · rw [Search.enter_state_of_ne hxn, hs.onStack x]
      simp [Search.enter, hxn]
  · refine hs.chain.append (List.isChain_singleton _) ?_
    intro last hl b hb
    obtain rfl : node = b := by simpa using hb
    exact hlast last hl
  · by_cases hxn : x = node
    · simp [hxn] at hx
    · rw [Search.enter_state_of_ne hxn] at hx
      exact hs.finished x hx

theorem unvisited_enter_card_lt (hnode : node ∈ candidates)
    (hnew : s.state node = 0) :
    (unvisited candidates (s.enter node)).card < (unvisited candidates s).card := by
  refine Finset.card_lt_card ⟨fun x hx => ?_, fun hsub => ?_⟩
  · obtain ⟨hc, hzero⟩ := Finset.mem_filter.mp hx
    have hxn : x ≠ node := by
      rintro rfl
      simp at hzero
    rw [Search.enter_state_of_ne hxn] at hzero
    exact Finset.mem_filter.mpr ⟨hc, hzero⟩
  · have hin := hsub (Finset.mem_filter.mpr ⟨hnode, hnew⟩)
    have hzero := (Finset.mem_filter.mp hin).2
    simp at hzero

theorem Searching.leave {s left : Search K} (hs : Searching adjacency candidates s)
    (hnew : s.state node = 0) (hleft : Searching adjacency candidates left)
    (hext : Extends (s.enter node) left)
    (hall : ∀ d, Within adjacency candidates node d → left.state d = 2) :
    Searching adjacency candidates (left.leave node) ∧ Extends s (left.leave node) := by
  have hstack : (left.leave node).stack = s.stack := by
    show left.stack.dropLast = s.stack
    rw [hext.stack]
    exact List.dropLast_concat
  have hnot : node ∉ s.stack := fun hin => by
    have := (hs.onStack node).mpr hin
    omega
  refine ⟨⟨fun x => ?_, fun x => ?_, ?_, fun x hx => ?_⟩, ⟨hstack, fun x hx => ?_⟩⟩
  · by_cases hxn : x = node
    · simp [hxn]
    · rw [Search.leave_state_of_ne hxn]
      exact hleft.state_le x
  · rw [hstack]
    by_cases hxn : x = node
    · simp [hxn, hnot]
    · rw [Search.leave_state_of_ne hxn, hleft.onStack x, hext.stack]
      simp [Search.enter, hxn]
  · rw [hstack]
    exact hs.chain
  · by_cases hxn : x = node
    · subst hxn
      exact Acc.intro x fun y hy => hleft.finished y (hall y hy)
    · rw [Search.leave_state_of_ne hxn] at hx
      exact hleft.finished x hx
  · have hxn : x ≠ node := by
      rintro rfl
      exact hx hnew
    rw [Search.leave_state_of_ne hxn, hext.kept x (by rwa [Search.enter_state_of_ne hxn]),
      Search.enter_state_of_ne hxn]

/-- **A visit ends**: it finds a cycle, or it leaves its node and keeps the invariant. -/
theorem visit_ends {fuel : ℕ} (hs : Searching adjacency candidates s)
    (hnode : node ∈ candidates) (hnew : s.state node = 0)
    (hlast : ∀ last ∈ s.stack.getLast?, Within adjacency candidates last node)
    (hfuel : (unvisited candidates s).card ≤ fuel) :
    Ends adjacency candidates
      (fun s' => Searching adjacency candidates s' ∧ Extends s s' ∧ s'.state node = 2)
      (visit adjacency candidates fuel s node) := by
  have hlt := unvisited_enter_card_lt hnode hnew
  induction fuel generalizing s node with
  | zero => omega
  | succ fuel ih =>
    have hloop := follow_ends
      (fun t d ht hd h0 hl hf => ih ht hd h0 hl hf (unvisited_enter_card_lt hd h0))
      (sorted (adjacency node)) (s.enter node) (hs.enter hlast) ?_ (by omega)
    · rw [visit]
      refine hloop.bind fun left ⟨hleft, hext, hall⟩ => ?_
      have hdone := hs.leave hnew hleft hext fun d hd => hall d (mem_sorted.mpr hd.2.2) hd.2.1
      exact ⟨hdone.1, hdone.2, Search.leave_state_self⟩
    · intro last hl d hd hdc
      obtain rfl : node = last := by simpa [Search.enter] using hl
      exact ⟨hnode, hdc, mem_sorted.mp hd⟩

theorem visitRoot_ends (roots : List K) (s : Search K) (hs : Searching adjacency candidates s)
    (hstack : s.stack = []) (hroots : ∀ x ∈ roots, x ∈ candidates) :
    Ends adjacency candidates
      (fun s' => Searching adjacency candidates s' ∧ Extends s s' ∧ ∀ x ∈ roots, s'.state x = 2)
      (roots.foldlM (visitRoot adjacency candidates) s) := by
  induction roots generalizing s with
  | nil => exact ⟨hs, .refl s, by simp⟩
  | cons x roots ih =>
    rw [List.foldlM_cons]
    have hturn : Ends adjacency candidates
        (fun s' => Searching adjacency candidates s' ∧ Extends s s' ∧ s'.state x = 2)
        (visitRoot adjacency candidates s x) := by
      rw [visitRoot]
      split_ifs with hzero
      · exact visit_ends hs (hroots x (by simp)) hzero (by simp [hstack])
          (Finset.card_filter_le _ _)
      · have hone : s.state x ≠ 1 := fun h => by
          have := (hs.onStack x).mp h
          simp [hstack] at this
        have hle := hs.state_le x
        exact ⟨hs, .refl s, by omega⟩
    refine hturn.bind fun t ⟨ht, hst, hx⟩ => ?_
    refine (ih t ht (hst.stack.trans hstack) fun y hy => hroots y (by simp [hy])).mono ?_
    intro u ⟨hu, htu, hall⟩
    refine ⟨hu, hst.trans htu, fun y hy => ?_⟩
    rcases List.mem_cons.mp hy with rfl | hy
    · rw [htu.kept y (by omega), hx]
    · exact hall y hy

/-- **The search finds a cycle** among candidates that each have a predecessor among them. -/
theorem findCycle_isClosedWalk (adjacency : K → Finset K) (candidates : Finset K)
    (hne : candidates.Nonempty)
    (hblocked : ∀ v ∈ candidates, ∃ u ∈ candidates, v ∈ adjacency u) :
    ∃ cycle, findCycle adjacency candidates = .ok cycle ∧
      IsClosedWalk (Within adjacency candidates) cycle := by
  have hs : Searching adjacency candidates ⟨fun _ => 0, []⟩ :=
    ⟨by simp, by simp, List.isChain_nil, by simp⟩
  have hends := visitRoot_ends (sorted candidates) _ hs rfl fun x => mem_sorted.mp
  rw [findCycle]
  revert hends
  cases (sorted candidates).foldlM (visitRoot adjacency candidates) ⟨fun _ => 0, []⟩ with
  | ok left =>
    rintro ⟨hleft, -, hall⟩
    have hacyclic : Acyclic (Within adjacency candidates) := by
      intro x hx
      have hxc : x ∈ candidates := by
        obtain ⟨b, hxb, -⟩ := Relation.TransGen.head'_iff.mp hx
        exact hxb.1
      exact not_transGen_of_acc (hleft.finished x (hall x (mem_sorted.mpr hxc))) hx
    obtain ⟨v, hv, hsource⟩ := hacyclic.exists_source hne
    obtain ⟨u, hu, huv⟩ := hblocked v hv
    exact absurd ⟨hu, hv, huv⟩ (hsource u hu)
  | error stop =>
    cases stop with
    | cycle c => exact fun h => ⟨c, rfl, h⟩
    | outOfFuel => exact False.elim

end search

/-! ### The adjacency sets -/

section edges
variable {nodeIds : Finset K} {edges : List (TopologyEdge K)}

/-- There is an edge from `a` to `b`. -/
def Step (edges : List (TopologyEdge K)) (a b : K) : Prop := ⟨a, b⟩ ∈ edges

/-- The edges that no check of the first loop stops at. -/
def Known (nodeIds : Finset K) (edge : TopologyEdge K) : Prop :=
  edge.prerequisiteKpId ∈ nodeIds ∧ edge.dependentKpId ∈ nodeIds ∧
    edge.prerequisiteKpId ≠ edge.dependentKpId

/-- The counts are those of the adjacency sets. -/
def Adjacency.Counted (nodeIds : Finset K) (a : Adjacency K) : Prop :=
  ∀ v, a.indegree v = (nodeIds.filter fun u => v ∈ a.adjacency u).card

theorem edgesInto_sorted (adjacency : K → Finset K) (v : K) :
    Kahn.edgesInto (fun u => sorted (adjacency u)) nodeIds v
      = (nodeIds.filter fun u => v ∈ adjacency u).card := by
  simp only [Kahn.edgesInto, count_sorted, Finset.card_filter]

variable {a : Adjacency K}

theorem Adjacency.mem_link {p d u v : K} :
    v ∈ (a.link p d).adjacency u ↔ v ∈ a.adjacency u ∨ (p = u ∧ d = v) := by
  by_cases hu : u = p
  · subst hu
    simp [Adjacency.link, eq_comm, or_comm]
  · simp [Adjacency.link, hu, Ne.symm hu]

theorem Adjacency.Counted.link {p d : K} (ha : a.Counted nodeIds)
    (hp : p ∈ nodeIds) (hnew : d ∉ a.adjacency p) : (a.link p d).Counted nodeIds := by
  intro v
  by_cases hv : v = d
  · subst hv
    have hfilter : (nodeIds.filter fun u => v ∈ (a.link p v).adjacency u)
        = insert p (nodeIds.filter fun u => v ∈ a.adjacency u) := by
      ext u
      by_cases hu : u = p
      · simp [Adjacency.mem_link, hu, hp]
      · simp [Adjacency.mem_link, hu, Ne.symm hu]
    have hcount : (a.link p v).indegree v = a.indegree v + 1 := Function.update_self _ _ _
    rw [hfilter, Finset.card_insert_of_notMem (by simp [hnew]), hcount, ha v]
    push_cast
    rfl
  · have hcount : (a.link p d).indegree v = a.indegree v := Function.update_of_ne hv _ _
    simp only [hcount, ha v, Adjacency.mem_link, Ne.symm hv, and_false, or_false]

theorem addEdge_ok {edge : TopologyEdge K} (ha : a.Counted nodeIds)
    (hedge : Known nodeIds edge) : ∃ b, addEdge nodeIds a edge = .ok b ∧ b.Counted nodeIds ∧
      ∀ u v, v ∈ b.adjacency u ↔ v ∈ a.adjacency u ∨ edge = ⟨u, v⟩ := by
  obtain ⟨p, d⟩ := edge
  obtain ⟨hp, hd, hne⟩ := hedge
  simp only at hp hd hne
  simp only [addEdge, hp, hd, hne, not_true_eq_false, or_self, if_false]
  split_ifs with hin
  · refine ⟨a, rfl, ha, fun u v => ⟨.inl, ?_⟩⟩
    rintro (h | h)
    · exact h
    · cases h
      exact hin
  · refine ⟨_, rfl, ha.link hp hin, fun u v => ?_⟩
    rw [Adjacency.mem_link, TopologyEdge.mk.injEq]

theorem addEdges_ok (ha : a.Counted nodeIds)
    (hedges : ∀ edge ∈ edges, Known nodeIds edge) :
    ∃ b, edges.foldlM (addEdge nodeIds) a = .ok b ∧ b.Counted nodeIds ∧
      ∀ u v, v ∈ b.adjacency u ↔ v ∈ a.adjacency u ∨ Step edges u v := by
  induction edges generalizing a with
  | nil => exact ⟨a, rfl, ha, by simp [Step]⟩
  | cons edge edges ih =>
    obtain ⟨b, hb, hbCounted, hbMem⟩ := addEdge_ok ha (hedges edge (by simp))
    obtain ⟨c, hc, hcCounted, hcMem⟩ := ih hbCounted fun e he => hedges e (by simp [he])
    refine ⟨c, ?_, hcCounted, fun u v => ?_⟩
    · rw [List.foldlM_cons, hb]
      exact hc
    · rw [hcMem, hbMem, or_assoc]
      simp [Step, eq_comm]

/-! ### The order -/

theorem foldl_relax_toState (current : K) (dependents : List K) (s : Sweep K) :
    (dependents.foldl (relax current) s).toState = dependents.foldl Kahn.release s.toState := by
  induction dependents generalizing s with
  | nil => rfl
  | cons d dependents ih => rw [List.foldl_cons, ih, List.foldl_cons, relax]

theorem sweep_toState (adjacency : K → Finset K) (fuel : ℕ) (s : Sweep K) :
    (sweep adjacency fuel s).toState
      = Kahn.loop (fun u => sorted (adjacency u)) Kahn.popFirst fuel s.toState := by
  induction fuel generalizing s with
  | zero => rfl
  | succ fuel ih =>
    rw [sweep, Kahn.loop, Kahn.step]
    cases hready : s.ready with
    | nil => rfl
    | cons current ready =>
      simp only [Kahn.popFirst, Option.map_some]
      rw [ih, foldl_relax_toState]

theorem inv_firstSweep (ha : a.Counted nodeIds) :
    Kahn.Inv (fun u => sorted (a.adjacency u)) nodeIds (firstSweep nodeIds a).toState where
  nodup := by simpa [firstSweep] using nodup_sorted _
  mem v := by simp [firstSweep]
  indegree v := by
    rw [edgesInto_sorted]
    simp only [firstSweep, List.toFinset_nil, Finset.sdiff_empty]
    exact ha v
  idxOf_lt := by simp [firstSweep]

/-- **`analyze_topology` orders an acyclic graph or raises a cycle.** -/
theorem analyzeTopology_spec (hedges : ∀ edge ∈ edges, Known nodeIds edge) :
    (∃ metrics, analyzeTopology nodeIds edges = .ok metrics ∧ Acyclic (Step edges)) ∨
      ∃ cycle, analyzeTopology nodeIds edges = .error (.topologyCycleError cycle) ∧
        IsClosedWalk (Step edges) cycle := by
  have hempty : (Adjacency.empty : Adjacency K).Counted nodeIds := fun v => by simp [Adjacency.empty]
  obtain ⟨a, ha, hcounted, hmem⟩ := addEdges_ok hempty hedges
  have hadj : ∀ u v, v ∈ a.adjacency u ↔ Step edges u v := fun u v => by
    simp [hmem, Adjacency.empty]
  have hclosed : ∀ u ∈ nodeIds, ∀ v ∈ sorted (a.adjacency u), v ∈ nodeIds := fun u _ v hv =>
    (hedges _ ((hadj u v).mp (mem_sorted.mp hv))).2.1
  obtain ⟨hinv, hready⟩ := (inv_firstSweep hcounted).loop_spec Kahn.pops_popFirst hclosed
    nodeIds.card (by simp [firstSweep])
  rw [← sweep_toState] at hinv hready
  have hrun : analyzeTopology nodeIds edges
      = metricsOf nodeIds a.adjacency (sweep a.adjacency nodeIds.card (firstSweep nodeIds a)) := by
    simp only [analyzeTopology, ha]
    rfl
  rw [hrun, metricsOf]
  split_ifs with hlen
  · right
    have hleft : ∃ v ∈ nodeIds, v ∉ (sweep a.adjacency nodeIds.card (firstSweep nodeIds a)).order := by
      by_contra hnone
      push Not at hnone
      exact hlen (hinv.length_order_eq_iff.mpr hnone)
    obtain ⟨w, hw, hwNot⟩ := hleft
    obtain ⟨cycle, hcycle, hwalk⟩ := findCycle_isClosedWalk a.adjacency
      (nodeIds \ (sweep a.adjacency nodeIds.card (firstSweep nodeIds a)).order.toFinset)
      ⟨w, by simp [hw, hwNot]⟩ (by
        intro v hv
        obtain ⟨hvNodes, hvNot⟩ := Finset.mem_sdiff.mp hv
        obtain ⟨u, hu, huNot, huv⟩ := hinv.exists_blocked hready hvNodes (by simpa using hvNot)
        exact ⟨u, by simp [hu, huNot], mem_sorted.mp huv⟩)
    exact ⟨cycle, by rw [hcycle], hwalk.imp_of_mem fun u _ v _ huv => (hadj u v).mp huv.2.2⟩
  · left
    refine ⟨_, rfl, ?_⟩
    have hall := hinv.length_order_eq_iff.mp (not_ne_iff.mp hlen)
    refine (hinv.acyclic_of_forall_mem hall hclosed).mono fun u v huv => ?_
    exact ⟨(hedges _ huv).1, mem_sorted.mpr ((hadj u v).mpr huv)⟩

end edges

end CyberControl.Topology
