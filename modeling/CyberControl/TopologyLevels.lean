import CyberControl.Layers
import CyberControl.Topology

/-! # Levels and order of the knowledge graph

What `analyze_topology` has found when its loops are done, for any list of edges. -/

namespace CyberControl.Topology

open Collections CyberControl.Digraph

variable {K : Type*} [LinearOrder K]

/-! ### The first loop -/

variable {a : Adjacency K}

section edges
variable {nodeIds : Finset K} {edges : List (TopologyEdge K)}

/-- Both ends of an edge are nodes. -/
def Inside (nodeIds : Finset K) (edge : TopologyEdge K) : Prop :=
  edge.prerequisiteKpId ∈ nodeIds ∧ edge.dependentKpId ∈ nodeIds

theorem exists_of_foldlM_error {α β ε : Type*} {f : β → α → Except ε β} {l : List α} {b : β} {e : ε}
    (h : l.foldlM f b = .error e) : ∃ a ∈ l, ∃ c, f c a = .error e := by
  induction l generalizing b with
  | nil => cases h
  | cons a l ih =>
    rw [List.foldlM_cons] at h
    cases hfirst : f b a with
    | error e' =>
      rw [hfirst] at h
      cases h
      exact ⟨a, by simp, b, hfirst⟩
    | ok c =>
      rw [hfirst] at h
      obtain ⟨a', ha', hstop⟩ := ih h
      exact ⟨a', by simp [ha'], hstop⟩

theorem addEdge_error {edge : TopologyEdge K} {error : TopologyError K}
    (h : addEdge nodeIds a edge = .error error) :
    (¬ Inside nodeIds edge ∧ ∃ text, error = .valueError text) ∨
      (edge.prerequisiteKpId = edge.dependentKpId ∧
        error = .topologyCycleError [edge.prerequisiteKpId, edge.dependentKpId]) := by
  unfold addEdge at h
  split_ifs at h with hunknown hself
  · cases h
    refine .inl ⟨fun hin => ?_, _, rfl⟩
    rcases hunknown with hnot | hnot
    · exact hnot hin.1
    · exact hnot hin.2
  · cases h
    exact .inr ⟨hself, rfl⟩

variable {a b : Adjacency K}

theorem addEdge_ok_known {edge : TopologyEdge K}
    (h : addEdge nodeIds a edge = .ok b) : Known nodeIds edge := by
  unfold addEdge at h
  split_ifs at h with hunknown hself
  all_goals
    push Not at hunknown
    exact ⟨hunknown.1, hunknown.2, hself⟩

theorem addEdges_ok_known (h : edges.foldlM (addEdge nodeIds) a = .ok b) :
    ∀ edge ∈ edges, Known nodeIds edge := by
  induction edges generalizing a with
  | nil => simp
  | cons edge edges ih =>
    rw [List.foldlM_cons] at h
    cases hfirst : addEdge nodeIds a edge with
    | error error =>
      rw [hfirst] at h
      cases h
    | ok c =>
      rw [hfirst] at h
      intro e he
      rcases List.mem_cons.mp he with rfl | he
      · exact addEdge_ok_known hfirst
      · exact ih h e he

/-- What stops the first loop. -/
def Stops (nodeIds : Finset K) (edges : List (TopologyEdge K)) : TopologyError K → Prop
  | .valueError _ => ∃ edge ∈ edges, ¬ Inside nodeIds edge
  | .topologyCycleError cycle => IsClosedWalk (Step edges) cycle
  | .outOfFuel => False

theorem addEdges_error {error : TopologyError K}
    (h : edges.foldlM (addEdge nodeIds) a = .error error) : Stops nodeIds edges error := by
  obtain ⟨edge, hedge, b, hstop⟩ := exists_of_foldlM_error h
  rcases addEdge_error hstop with ⟨hout, text, rfl⟩ | ⟨hself, rfl⟩
  · exact ⟨edge, hedge, hout⟩
  · refine ⟨edge.prerequisiteKpId, [], by rw [hself]; rfl, ?_⟩
    rw [List.isChain_cons_cons]
    exact ⟨hedge, List.isChain_singleton _⟩

theorem counted_empty : (Adjacency.empty : Adjacency K).Counted nodeIds := fun v => by
  simp [Adjacency.empty]

theorem Adjacency.Counted.ext (ha : a.Counted nodeIds) (hb : b.Counted nodeIds)
    (h : ∀ u v, v ∈ a.adjacency u ↔ v ∈ b.adjacency u) : a = b := by
  have hadj : a.adjacency = b.adjacency := funext fun u => Finset.ext (h u)
  have hdegree : a.indegree = b.indegree := by
    funext v
    rw [ha v, hb v, hadj]
  obtain ⟨adjacency, indegree⟩ := a
  obtain rfl : adjacency = b.adjacency := hadj
  obtain rfl : indegree = b.indegree := hdegree
  rfl

/-- The sets that the first loop builds. -/
structure Builds (nodeIds : Finset K) (edges : List (TopologyEdge K)) (a : Adjacency K) : Prop where
  known : ∀ edge ∈ edges, Known nodeIds edge
  counted : a.Counted nodeIds
  mem : ∀ u v, v ∈ a.adjacency u ↔ Step edges u v

/-- **The first loop** builds the adjacency sets of edges that no check stops at, and of no others. -/
theorem addEdges_eq_ok :
    edges.foldlM (addEdge nodeIds) Adjacency.empty = .ok a ↔ Builds nodeIds edges a := by
  have hbuilds : (∀ edge ∈ edges, Known nodeIds edge) → ∃ b,
      edges.foldlM (addEdge nodeIds) Adjacency.empty = .ok b ∧ Builds nodeIds edges b := by
    intro hknown
    obtain ⟨b, hb, hcounted, hmem⟩ := addEdges_ok counted_empty hknown
    exact ⟨b, hb, hknown, hcounted, fun u v => by simp [hmem, Adjacency.empty]⟩
  constructor
  · intro h
    obtain ⟨b, hb, hbuilt⟩ := hbuilds (addEdges_ok_known h)
    obtain rfl : a = b := Except.ok.inj (h.symm.trans hb)
    exact hbuilt
  · intro h
    obtain ⟨b, hb, hbuilt⟩ := hbuilds h.known
    rw [hb, h.counted.ext hbuilt.counted fun u v => (h.mem u v).trans (hbuilt.mem u v).symm]

theorem Builds.congr {edges' : List (TopologyEdge K)} (h : Builds nodeIds edges a)
    (hedges : ∀ edge, edge ∈ edges' ↔ edge ∈ edges) : Builds nodeIds edges' a where
  known edge hedge := h.known edge ((hedges edge).mp hedge)
  counted := h.counted
  mem u v := (h.mem u v).trans (hedges _).symm

end edges

/-! ### The levels -/

variable {s : Sweep K}

section levels
variable {adjacency : K → Finset K} {nodeIds : Finset K}

theorem foldl_relax_levels {current : K} {dependents : List K} (h : current ∉ dependents) (s : Sweep K)
    (v : K) : (dependents.foldl (relax current) s).levels v
      = if v ∈ dependents then max (s.levels v) (s.levels current + 1) else s.levels v := by
  induction dependents generalizing s with
  | nil => rfl
  | cons d dependents ih =>
    have hd : current ≠ d := fun heq => h (by simp [heq])
    have hrest : current ∉ dependents := fun hin => h (by simp [hin])
    rw [List.foldl_cons, ih hrest]
    have hcurrent : (relax current s d).levels current = s.levels current := Function.update_of_ne hd _ _
    rw [hcurrent]
    by_cases hv : v = d
    · subst hv
      have hself : (relax current s v).levels v = max (s.levels v) (s.levels current + 1) :=
        Function.update_self _ _ _
      rw [hself]
      simp
    · have hother : (relax current s d).levels v = s.levels v := Function.update_of_ne hv _ _
      rw [hother]
      simp [hv]

variable (adjacency) in
/-- The levels among the nodes in order. -/
structure Leveled (s : Sweep K) : Prop where
  below : ∀ u ∈ s.order, ∀ v ∈ adjacency u, s.levels u < s.levels v
  previous : ∀ v n, s.levels v = n + 1 → ∃ u ∈ s.order, v ∈ adjacency u ∧ s.levels u = n

/-- **One turn of the second loop** keeps the levels. -/
theorem Leveled.turn {current : K} {ready : List K} (hs : Leveled adjacency s)
    (hinv : Kahn.Inv (fun u => sorted (adjacency u)) nodeIds s.toState) (hready : s.ready = current :: ready)
    (hnodes : ∀ u v, v ∈ adjacency u → u ∈ nodeIds) :
    Leveled adjacency ((sorted (adjacency current)).foldl (relax current)
      { s with ready := ready, order := s.order ++ [current] }) := by
  have hcurrent : current ∉ s.order := by
    intro hin
    have hnodup := hinv.nodup
    rw [hready] at hnodup
    exact (List.nodup_append.mp hnodup).2.2 current hin current (by simp) rfl
  have hpred : ∀ u v, v ∈ s.order ++ [current] → v ∈ adjacency u → u ∈ s.order := by
    intro u v hv huv
    refine hinv.mem_order_of_mem_successors ?_ (hnodes u v huv) (mem_sorted.mpr huv)
    rw [hready]
    rcases List.mem_append.mp hv with hv | hv
    · exact List.mem_append_left _ hv
    · rw [List.mem_singleton.mp hv]
      simp
  have hlevels := foldl_relax_levels
    (fun hin => hcurrent (hpred current current (by simp) (mem_sorted.mp hin)))
    { s with ready := ready, order := s.order ++ [current] }
  have hkept : ∀ u ∈ s.order ++ [current], ((sorted (adjacency current)).foldl (relax current)
      { s with ready := ready, order := s.order ++ [current] }).levels u = s.levels u := by
    intro u hu
    rw [hlevels, if_neg fun hin => hcurrent (hpred current u hu (mem_sorted.mp hin))]
  have horder : ((sorted (adjacency current)).foldl (relax current)
      { s with ready := ready, order := s.order ++ [current] }).order = s.order ++ [current] := by
    rw [foldl_relax_toState, Kahn.foldl_release_order]
  refine ⟨fun u hu v huv => ?_, fun v n hv => ?_⟩
  · rw [horder] at hu
    rw [hkept u hu, hlevels]
    rcases List.mem_append.mp hu with hu | hu
    · have hlt := hs.below u hu v huv
      split_ifs
      · exact lt_max_of_lt_left hlt
      · exact hlt
    · obtain rfl : u = current := List.mem_singleton.mp hu
      rw [if_pos (mem_sorted.mpr huv)]
      exact lt_max_of_lt_right (Nat.lt_succ_self _)
  · have hold : s.levels v = n + 1 → ∃ u ∈ s.order ++ [current], v ∈ adjacency u ∧ s.levels u = n := by
      intro heq
      obtain ⟨u, hu, huv, hn⟩ := hs.previous v n heq
      exact ⟨u, List.mem_append_left _ hu, huv, hn⟩
    have hfound : ∃ u ∈ s.order ++ [current], v ∈ adjacency u ∧ s.levels u = n := by
      rw [hlevels] at hv
      split_ifs at hv with hin
      · rcases max_choice (s.levels v) (s.levels current + 1) with hmax | hmax
        · exact hold (hmax.symm.trans hv)
        · exact ⟨current, by simp, mem_sorted.mp hin, Nat.succ.inj (hmax.symm.trans hv)⟩
      · exact hold hv
    obtain ⟨u, hu, huv, hn⟩ := hfound
    exact ⟨u, by rwa [horder], huv, by rwa [hkept u hu]⟩

/-- **The second loop** keeps the levels. -/
theorem sweep_leveled (hnodes : ∀ u v, v ∈ adjacency u → u ∈ nodeIds ∧ v ∈ nodeIds) (fuel : ℕ)
    (hs : Leveled adjacency s)
    (hinv : Kahn.Inv (fun u => sorted (adjacency u)) nodeIds s.toState) :
    Leveled adjacency (sweep adjacency fuel s) := by
  induction fuel generalizing s with
  | zero => exact hs
  | succ fuel ih =>
    rw [sweep]
    cases hready : s.ready with
    | nil => exact hs
    | cons current ready =>
      refine ih (hs.turn hinv hready fun u v huv => (hnodes u v huv).1) ?_
      have hstep : Kahn.step (fun u => sorted (adjacency u)) Kahn.popFirst s.toState
          = some ((sorted (adjacency current)).foldl (relax current)
            { s with ready := ready, order := s.order ++ [current] }).toState := by
        rw [Kahn.step, hready, foldl_relax_toState]
        rfl
      exact (hinv.step Kahn.pops_popFirst
        (fun u _ v hv => (hnodes u v (mem_sorted.mp hv)).2) hstep).1

end levels

/-! ### The end of the loops -/

section ordered
variable {nodeIds : Finset K} {edges : List (TopologyEdge K)}

/-- The order and the levels of an acyclic graph. -/
structure Ordered (nodeIds : Finset K) (edges : List (TopologyEdge K)) (order : List K) (levels : K → ℕ) :
    Prop where
  nodup : order.Nodup
  mem : ∀ v, v ∈ order ↔ v ∈ nodeIds
  prerequisite_first : ∀ a b, Step edges a b → order.idxOf a < order.idxOf b
  depth : ∀ v, IsDepth (Step edges) v (levels v)
  acyclic : Acyclic (Step edges)

/-- **What the loops leave** when every node is in order. -/
theorem ordered_sweep (ha : Builds nodeIds edges a)
    (hs : s = sweep a.adjacency nodeIds.card (firstSweep nodeIds a)) (hlength : s.order.length = nodeIds.card) :
    Ordered nodeIds edges s.order s.levels := by
  have hnodes : ∀ u v, v ∈ a.adjacency u → u ∈ nodeIds ∧ v ∈ nodeIds := fun u v huv =>
    have hknown := ha.known _ ((ha.mem u v).mp huv)
    ⟨hknown.1, hknown.2.1⟩
  have hclosed : ∀ u ∈ nodeIds, ∀ v ∈ sorted (a.adjacency u), v ∈ nodeIds := fun u _ v hv =>
    (hnodes u v (mem_sorted.mp hv)).2
  have hfirst := inv_firstSweep ha.counted
  have hinv := (hfirst.loop_spec Kahn.pops_popFirst hclosed nodeIds.card (by simp [firstSweep])).1
  rw [← sweep_toState, ← hs] at hinv
  have hleveled : Leveled a.adjacency s := by
    rw [hs]
    exact sweep_leveled hnodes nodeIds.card ⟨by simp [firstSweep], by simp [firstSweep]⟩ hfirst
  have hall := hinv.length_order_eq_iff.mp hlength
  have hmem : ∀ v, v ∈ s.order ↔ v ∈ nodeIds := fun v =>
    ⟨fun hv => hinv.mem_nodes (List.mem_append_left _ hv), hall v⟩
  have hstep : ∀ u v, Step edges u v → u ∈ nodeIds ∧ v ∈ nodeIds ∧ v ∈ a.adjacency u := fun u v huv =>
    have hin := (ha.mem u v).mpr huv
    ⟨(hnodes u v hin).1, (hnodes u v hin).2, hin⟩
  have hlayers : Layers (Step edges) fun v n => s.levels v = n := by
    refine ⟨?_, ?_⟩
    · rintro u v n huv rfl
      obtain ⟨hu, -, hin⟩ := hstep u v huv
      exact ⟨s.levels u, hleveled.below u (hall u hu) v hin, rfl⟩
    · intro v n hv
      obtain ⟨u, -, huv, hn⟩ := hleveled.previous v n hv
      exact ⟨u, (ha.mem u v).mp huv, hn⟩
  refine ⟨hinv.nodup_order, hmem, fun u v huv => ?_, fun v => hlayers.isDepth rfl,
    hlayers.acyclic fun _ => ⟨_, rfl⟩⟩
  obtain ⟨hu, hv, hin⟩ := hstep u v huv
  exact hinv.idxOf_lt u hu v (hall v hv) (mem_sorted.mpr hin)

end ordered

end CyberControl.Topology
