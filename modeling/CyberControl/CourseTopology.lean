import CyberControl.CourseRevisions
import CyberControl.TopologyLevels
import Mathlib.Data.Set.Card
import Mathlib.Tactic.Positivity

/-! # The metrics of the knowledge graph

All that `analyze_topology` of `domains/topic1/topology.py` returns: the order, the levels, the weights and
the numbers of descendants. -/

namespace CyberControl.Topic1

open Collections CyberControl.Digraph CyberControl.Topology Relation

variable {K F : Type} [LinearOrder K]

structure TopologyMetrics (K F : Type) where
  topologicalOrder : List K
  levels : K → ℕ
  weights : K → F
  descendantCounts : K → ℕ

/-- `analyze_topology` with all that it returns. -/
def analyzeMetrics (A : FloatArithmetic F) (nodeIds : Finset K) (edges : List (TopologyEdge K)) :
    Except (TopologyError K) (TopologyMetrics K F) := do
  let metrics ← analyzeTopology nodeIds edges
  let a ← edges.foldlM (addEdge nodeIds) Adjacency.empty
  let descendants := descendantSets a.adjacency metrics.topologicalOrder
  return {
    topologicalOrder := metrics.topologicalOrder
    levels := metrics.levels
    weights := fun nodeId => topologyWeight A nodeIds.card (descendants nodeId).card
      (metrics.levels nodeId) (nodeIds.sup metrics.levels)
    descendantCounts := fun nodeId => (descendants nodeId).card }

theorem analyzeWeights_eq (A : FloatArithmetic F) (nodeIds : Finset K) (edges : List (TopologyEdge K)) :
    analyzeWeights A nodeIds edges
      = (analyzeMetrics A nodeIds edges).map fun metrics => ⟨metrics.levels, metrics.weights⟩ := by
  unfold analyzeWeights analyzeMetrics
  cases analyzeTopology nodeIds edges with
  | error error => rfl
  | ok metrics =>
    cases edges.foldlM (addEdge nodeIds) Adjacency.empty with
    | error error => rfl
    | ok a => rfl

/-! ### Descendants -/

variable {order : List K} {v : K}

section descendants
variable {adjacency : K → Finset K}

/-- The descendants that the loop has collected from the end of the order on. -/
def collected (adjacency : K → Finset K) (order : List K) : K → Finset K :=
  order.foldr (fun nodeId descendants => Function.update descendants nodeId
    (descendants nodeId ∪ adjacency nodeId ∪ (adjacency nodeId).biUnion descendants)) fun _ => ∅

theorem descendantSets_eq (order : List K) : descendantSets adjacency order = collected adjacency order := by
  unfold descendantSets collected
  rw [List.foldl_reverse]

theorem collected_of_notMem (h : v ∉ order) : collected adjacency order v = ∅ := by
  induction order with
  | nil => rfl
  | cons a order ih =>
    have hne : v ≠ a := fun heq => h (by simp [heq])
    have hrest : collected adjacency (a :: order) v = collected adjacency order v :=
      Function.update_of_ne hne _ _
    rw [hrest]
    exact ih fun hin => h (by simp [hin])

/-- **The loop over the reversed order collects what a node reaches.** -/
theorem mem_collected (hnodup : order.Nodup)
    (hfirst : ∀ a ∈ order, ∀ b ∈ adjacency a, b ∈ order ∧ order.idxOf a < order.idxOf b)
    (hv : v ∈ order) (b : K) :
    b ∈ collected adjacency order v ↔ TransGen (fun a b => b ∈ adjacency a) v b := by
  induction order generalizing v with
  | nil => simp at hv
  | cons a order ih =>
    obtain ⟨ha, htail⟩ := List.nodup_cons.mp hnodup
    have hlater : ∀ c ∈ a :: order, ∀ d ∈ adjacency c, d ∈ order := by
      intro c hc d hd
      obtain ⟨hmem, hlt⟩ := hfirst c hc d hd
      refine (List.mem_cons.mp hmem).resolve_left ?_
      rintro rfl
      rw [List.idxOf_cons_self] at hlt
      omega
    have hrest : ∀ c ∈ order, ∀ d ∈ adjacency c, d ∈ order ∧ order.idxOf c < order.idxOf d := by
      intro c hc d hd
      have hdmem := hlater c (by simp [hc]) d hd
      have hca : a ≠ c := fun heq => ha (heq ▸ hc)
      have hda : a ≠ d := fun heq => ha (heq ▸ hdmem)
      have hlt := (hfirst c (by simp [hc]) d hd).2
      rw [List.idxOf_cons_ne order hca, List.idxOf_cons_ne order hda] at hlt
      exact ⟨hdmem, by omega⟩
    by_cases hva : v = a
    · subst hva
      have hself : collected adjacency (v :: order) v = collected adjacency order v ∪ adjacency v
          ∪ (adjacency v).biUnion (collected adjacency order) := Function.update_self _ _ _
      rw [hself, collected_of_notMem ha, Finset.empty_union, Finset.mem_union, Finset.mem_biUnion]
      constructor
      · rintro (hb | ⟨c, hc, hb⟩)
        · exact TransGen.single hb
        · exact TransGen.head hc ((ih htail hrest (hlater v (by simp) c hc)).mp hb)
      · intro hreach
        obtain ⟨c, hc, hcb⟩ := TransGen.head'_iff.mp hreach
        rcases reflTransGen_iff_eq_or_transGen.mp hcb with rfl | hcb
        · exact .inl hc
        · exact .inr ⟨c, hc, (ih htail hrest (hlater v (by simp) c hc)).mpr hcb⟩
    · have hkept : collected adjacency (a :: order) v = collected adjacency order v :=
        Function.update_of_ne hva _ _
      rw [hkept]
      exact ih htail hrest ((List.mem_cons.mp hv).resolve_left hva)

end descendants

/-! ### Weights -/

section weights
variable {A : FloatArithmetic F} {le : F → F → Prop}

variable (A) in
/-- What the weights need of floating-point numbers under `<=`; the literals are numbers, a weighted share is
nonnegative and so is a sum of two, `min` returns one of its arguments and no larger one, and rounding to six
places is monotone and keeps 0 and 1. -/
structure FloatArithmetic.Bounded (le : F → F → Prop) : Prop where
  literal_refl : ∀ m e, le (A.literal m e) (A.literal m e)
  literal_nonneg : ∀ m e, le (A.literal 0 0) (A.literal m e)
  add_nonneg : ∀ x y, le (A.literal 0 0) x → le (A.literal 0 0) y → le (A.literal 0 0) (A.add x y)
  share_nonneg : ∀ m a n, 0 < m → m < 100 → 0 < n → le (A.literal 0 0) (A.mul (A.literal m 2) (A.quotient a n))
  minimum_eq : ∀ x y, A.minimum x y = x ∨ A.minimum x y = y
  minimum_le : ∀ x y, le x x → le (A.minimum x y) x
  round6_mono : ∀ x y, le x y → le (A.round6 x) (A.round6 y)
  round6_zero : A.round6 (A.literal 0 0) = A.literal 0 0
  round6_one : A.round6 (A.literal 1 0) = A.literal 1 0

/-- **A weight lies between 0 and 1.** -/
theorem topologyWeight_mem (hA : A.Bounded le) (nodeCount descendants level maxLevel : ℕ) :
    le (A.literal 0 0) (topologyWeight A nodeCount descendants level maxLevel) ∧
      le (topologyWeight A nodeCount descendants level maxLevel) (A.literal 1 0) := by
  unfold topologyWeight
  split_ifs with hone
  · exact ⟨hA.literal_nonneg 1 0, hA.literal_refl 1 0⟩
  · dsimp only
    have hsum : le (A.literal 0 0) (A.add
        (A.mul (A.literal 55 2) (A.quotient descendants (max 1 (nodeCount - 1))))
        (A.mul (A.literal 45 2) (A.quotient level (max 1 maxLevel)))) := by
      apply hA.add_nonneg
      · exact hA.share_nonneg 55 _ _ (by omega) (by omega) (by omega)
      · exact hA.share_nonneg 45 _ _ (by omega) (by omega) (by omega)
    constructor
    · have hmin : le (A.literal 0 0) (A.minimum (A.literal 1 0) (A.add
          (A.mul (A.literal 55 2) (A.quotient descendants (max 1 (nodeCount - 1))))
          (A.mul (A.literal 45 2) (A.quotient level (max 1 maxLevel))))) := by
        rcases hA.minimum_eq (A.literal 1 0) _ with heq | heq
        · rw [heq]
          exact hA.literal_nonneg 1 0
        · rw [heq]
          exact hsum
      have hround := hA.round6_mono _ _ hmin
      rwa [hA.round6_zero] at hround
    · have hround := hA.round6_mono _ _ (hA.minimum_le (A.literal 1 0) (A.add
          (A.mul (A.literal 55 2) (A.quotient descendants (max 1 (nodeCount - 1))))
          (A.mul (A.literal 45 2) (A.quotient level (max 1 maxLevel)))) (hA.literal_refl 1 0))
      rwa [hA.round6_one] at hround

end weights

/-! ### `analyze_topology` -/

section analyze
variable {A : FloatArithmetic F} {le : F → F → Prop} {nodeIds : Finset K} {edges : List (TopologyEdge K)}

/-- The metrics of an acyclic graph. -/
structure Analyzed (A : FloatArithmetic F) (le : F → F → Prop) (nodeIds : Finset K)
    (edges : List (TopologyEdge K)) (metrics : TopologyMetrics K F) : Prop where
  inside : ∀ edge ∈ edges, Inside nodeIds edge
  ordered : Ordered nodeIds edges metrics.topologicalOrder metrics.levels
  descendants : ∀ v ∈ nodeIds, metrics.descendantCounts v = Set.ncard {b | TransGen (Step edges) v b}
  weights : ∀ v ∈ nodeIds, le (A.literal 0 0) (metrics.weights v) ∧ le (metrics.weights v) (A.literal 1 0)

/-- How `analyze_topology` ends. -/
def AnalyzeEnds (A : FloatArithmetic F) (le : F → F → Prop) (nodeIds : Finset K) (edges : List (TopologyEdge K)) :
    Except (TopologyError K) (TopologyMetrics K F) → Prop
  | .ok metrics => Analyzed A le nodeIds edges metrics
  | .error (.topologyCycleError cycle) => IsClosedWalk (Step edges) cycle
  | .error (.valueError _) => ∃ edge ∈ edges, ¬ Inside nodeIds edge
  | .error .outOfFuel => False

theorem ends_of_stops {error : TopologyError K} (h : Stops nodeIds edges error) :
    AnalyzeEnds A le nodeIds edges (.error error) := by
  cases error with
  | valueError text => exact h
  | topologyCycleError cycle => exact h
  | outOfFuel => exact h

theorem ncard_reached {a : Adjacency K} {levels : K → ℕ} (ha : Builds nodeIds edges a)
    (horder : Ordered nodeIds edges order levels) (hv : v ∈ nodeIds) :
    (descendantSets a.adjacency order v).card = Set.ncard {b | TransGen (Step edges) v b} := by
  have hadj : (fun a' b => b ∈ a.adjacency a') = Step edges := by
    funext u b
    exact propext (ha.mem u b)
  have hfirst : ∀ u ∈ order, ∀ b ∈ a.adjacency u, b ∈ order ∧ order.idxOf u < order.idxOf b := by
    intro u _ b hb
    have hstep := (ha.mem u b).mp hb
    exact ⟨(horder.mem b).mpr (ha.known _ hstep).2.1, horder.prerequisite_first u b hstep⟩
  have hset : {b | TransGen (Step edges) v b} = ↑(descendantSets a.adjacency order v) := by
    ext b
    rw [Finset.mem_coe, descendantSets_eq,
      mem_collected horder.nodup hfirst ((horder.mem v).mpr hv) b, hadj]
    rfl
  rw [hset, Set.ncard_coe_finset]

theorem analyzeMetrics_ends (hA : A.Bounded le) (nodeIds : Finset K) (edges : List (TopologyEdge K)) :
    AnalyzeEnds A le nodeIds edges (analyzeMetrics A nodeIds edges) := by
  unfold analyzeMetrics
  cases ha : edges.foldlM (addEdge nodeIds) Adjacency.empty with
  | error error =>
    have herror : analyzeTopology nodeIds edges = .error error := by
      rw [analyzeTopology, ha]
      rfl
    rw [herror]
    exact ends_of_stops (addEdges_error ha)
  | ok a =>
    have hbuilds := addEdges_eq_ok.mp ha
    rcases analyzeTopology_spec hbuilds.known with ⟨metrics, hok, -⟩ | ⟨cycle, herror, hwalk⟩
    · rw [hok]
      have hordered : Ordered nodeIds edges metrics.topologicalOrder metrics.levels := by
        rw [analyzeTopology, ha] at hok
        change metricsOf nodeIds a.adjacency _ = _ at hok
        unfold metricsOf at hok
        split_ifs at hok with hlength
        · split at hok <;> cases hok
        · cases hok
          exact ordered_sweep hbuilds rfl (not_ne_iff.mp hlength)
      refine ⟨fun edge hedge => ?_, hordered, fun v hv => ncard_reached hbuilds hordered hv,
        fun v _ => topologyWeight_mem hA _ _ _ _⟩
      have hknown := hbuilds.known edge hedge
      exact ⟨hknown.1, hknown.2.1⟩
    · rw [herror]
      exact hwalk

theorem analyzeMetrics_congr {edges' : List (TopologyEdge K)} {metrics : TopologyMetrics K F}
    (hedges : ∀ edge, edge ∈ edges' ↔ edge ∈ edges) (h : analyzeMetrics A nodeIds edges = .ok metrics) :
    analyzeMetrics A nodeIds edges' = .ok metrics := by
  unfold analyzeMetrics analyzeTopology at h ⊢
  cases ha : edges.foldlM (addEdge nodeIds) Adjacency.empty with
  | error error =>
    rw [ha] at h
    cases h
  | ok a =>
    rw [ha] at h
    rw [addEdges_eq_ok.mpr ((addEdges_eq_ok.mp ha).congr hedges)]
    exact h

/-- **`analyze_topology` is correct** for all nodes and edges. -/
theorem analyze_topology_correct (hA : A.Bounded le) (nodeIds : Finset K) (edges : List (TopologyEdge K)) :
    AnalyzeEnds A le nodeIds edges (analyzeMetrics A nodeIds edges) ∧
      ((∀ edge ∈ edges, Inside nodeIds edge) →
        ((∃ cycle, analyzeMetrics A nodeIds edges = .error (.topologyCycleError cycle)) ↔
          ¬ Digraph.Acyclic (Step edges))) ∧
      ∀ edges' : List (TopologyEdge K), (∀ edge, edge ∈ edges' ↔ edge ∈ edges) → ∀ metrics,
        analyzeMetrics A nodeIds edges = .ok metrics → analyzeMetrics A nodeIds edges' = .ok metrics := by
  have hends := analyzeMetrics_ends hA nodeIds edges
  refine ⟨hends, fun hinside => ⟨?_, fun hcyclic => ?_⟩, fun edges' hedges metrics =>
    analyzeMetrics_congr hedges⟩
  · rintro ⟨cycle, hcycle⟩
    rw [hcycle] at hends
    exact IsClosedWalk.not_acyclic hends
  · cases hrun : analyzeMetrics A nodeIds edges with
    | ok metrics =>
      rw [hrun] at hends
      exact absurd hends.ordered.acyclic hcyclic
    | error error =>
      rw [hrun] at hends
      cases error with
      | valueError text =>
        obtain ⟨edge, hedge, hout⟩ := hends
        exact absurd (hinside edge hedge) hout
      | topologyCycleError cycle => exact ⟨cycle, rfl⟩
      | outOfFuel => exact hends.elim

theorem sampleArithmetic_bounded : sampleArithmetic.Bounded (· ≤ ·) where
  literal_refl m e := le_refl _
  literal_nonneg m e := by
    simp only [sampleArithmetic, Nat.cast_zero, zero_div]
    positivity
  add_nonneg x y hx hy := by
    simp only [sampleArithmetic] at hx hy ⊢
    norm_num at hx hy ⊢
    exact add_nonneg hx hy
  share_nonneg m a n _ _ _ := by
    simp only [sampleArithmetic, Nat.cast_zero, zero_div]
    positivity
  minimum_eq x y := min_choice x y
  minimum_le x y _ := min_le_left x y
  round6_mono x y h := by
    simp only [sampleArithmetic]
    gcongr
  round6_zero := by norm_num [sampleArithmetic]
  round6_one := by norm_num [sampleArithmetic]

/-- Two prerequisites of one knowledge point, one edge listed twice. -/
theorem analyze_topology_correct_sample :
    AnalyzeEnds sampleArithmetic (· ≤ ·) {1, 2, 3} [⟨1, 3⟩, ⟨2, 3⟩, ⟨1, 3⟩]
      (analyzeMetrics (K := ℕ) sampleArithmetic {1, 2, 3} [⟨1, 3⟩, ⟨2, 3⟩, ⟨1, 3⟩]) :=
  (analyze_topology_correct sampleArithmetic_bounded {1, 2, 3} [⟨1, 3⟩, ⟨2, 3⟩, ⟨1, 3⟩]).1

end analyze

end CyberControl.Topic1
