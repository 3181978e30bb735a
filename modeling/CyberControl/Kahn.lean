import CyberControl.Digraph
import Mathlib.Algebra.BigOperators.Group.Finset.Piecewise
import Mathlib.Data.List.MinMax

/-! # Topological sorting by counting what is left

The loop of Kahn's algorithm over the nodes of a finite graph, whose edges are given by the list of
successors of each node (an edge may be listed more than once).  `indegree` counts the edges whose
first node is not yet in the order, and a node is ready when its count has reached zero.  Which
ready node comes next is a parameter: a queue takes the oldest, a heap the least. -/

namespace CyberControl.Kahn

open CyberControl.Digraph

variable {K : Type*} [DecidableEq K]

/-- The ready nodes, the nodes put in order so far, and the edges left into each node. -/
structure State (K : Type*) where
  ready : List K
  order : List K
  indegree : K → ℤ

/-- An edge into `dependent` is used up. -/
def release (s : State K) (dependent : K) : State K where
  ready := if s.indegree dependent - 1 = 0 then s.ready ++ [dependent] else s.ready
  order := s.order
  indegree := Function.update s.indegree dependent (s.indegree dependent - 1)

/-- `pop` takes one element out of a list. -/
structure Pops (pop : List K → Option (K × List K)) : Prop where
  eq_none : ∀ l, pop l = none → l = []
  perm : ∀ l a rest, pop l = some (a, rest) → l.Perm (a :: rest)

variable (successors : K → List K) (pop : List K → Option (K × List K))

/-- One turn: the next ready node is put in order and its edges are used up. -/
def step (s : State K) : Option (State K) :=
  (pop s.ready).map fun next =>
    (successors next.1).foldl release { s with ready := next.2, order := s.order ++ [next.1] }

/-- Turns until no node is ready, at most `fuel` of them. -/
def loop : ℕ → State K → State K
  | 0, s => s
  | fuel + 1, s =>
    match step successors pop s with
    | none => s
    | some t => loop fuel t

variable {successors pop}

/-- The oldest element of a queue. -/
def popFirst : List K → Option (K × List K)
  | [] => none
  | a :: l => some (a, l)

omit [DecidableEq K] in
theorem pops_popFirst : Pops (popFirst (K := K)) where
  eq_none l h := by
    cases l with
    | nil => rfl
    | cons a l => cases h
  perm l a rest h := by
    cases l with
    | nil => cases h
    | cons b l =>
      cases h
      exact List.Perm.refl _

/-- The least element of a heap; its elements are listed in any order. -/
def popLeast {κ : Type*} [LinearOrder κ] (key : K → κ) (l : List K) : Option (K × List K) :=
  (l.argmin key).map fun a => (a, l.erase a)

theorem pops_popLeast {κ : Type*} [LinearOrder κ] (key : K → κ) : Pops (popLeast key) where
  eq_none l h := List.argmin_eq_none.mp (Option.map_eq_none_iff.mp h)
  perm l a rest h := by
    obtain ⟨b, hb, heq⟩ := Option.map_eq_some_iff.mp h
    obtain ⟨rfl, rfl⟩ := Prod.mk.inj heq
    exact List.perm_cons_erase (List.argmin_mem hb)

/-! ### Using up the edges of a node -/

theorem foldl_release_order (ds : List K) (s : State K) :
    (ds.foldl release s).order = s.order := by
  induction ds generalizing s with
  | nil => rfl
  | cons d ds ih => rw [List.foldl_cons, ih, release]

theorem foldl_release_indegree (ds : List K) (s : State K) (v : K) :
    (ds.foldl release s).indegree v = s.indegree v - ds.count v := by
  induction ds generalizing s with
  | nil => simp
  | cons d ds ih =>
    rw [List.foldl_cons, ih, List.count_cons]
    by_cases hd : d = v
    · subst hd
      simp only [release, Function.update_self, BEq.rfl, if_true]
      omega
    · have hbeq : (d == v) = false := by simpa using hd
      simp only [release, Function.update_of_ne (Ne.symm hd), hbeq, Bool.false_eq_true, if_false]
      omega

theorem foldl_release_ready (ds : List K) (s : State K) (h : ∀ v, (ds.count v : ℤ) ≤ s.indegree v) :
    ∃ fresh : List K, (ds.foldl release s).ready = s.ready ++ fresh ∧ fresh.Nodup ∧
      ∀ v, v ∈ fresh ↔ v ∈ ds ∧ s.indegree v = ds.count v := by
  induction ds generalizing s with
  | nil => exact ⟨[], by simp, List.nodup_nil, by simp⟩
  | cons d ds ih =>
    have hcount : ∀ v, (ds.count v : ℤ) ≤ (release s d).indegree v := by
      intro v
      have hv := h v
      rw [List.count_cons] at hv
      by_cases hd : d = v
      · subst hd
        simp only [release, Function.update_self]
        simp only [BEq.rfl, if_true] at hv
        omega
      · simp only [release, Function.update_of_ne (Ne.symm hd)]
        omega
    obtain ⟨fresh, hready, hnodup, hmem⟩ := ih (release s d) hcount
    have hd := hcount d
    simp only [release, Function.update_self] at hd
    by_cases hzero : s.indegree d - 1 = 0
    · have hnot : d ∉ ds := by
        rw [← List.count_eq_zero]
        omega
      have hrel : ∀ v, v ≠ d → (release s d).indegree v = s.indegree v := by
        intro v hv
        simp only [release, Function.update_of_ne hv]
      refine ⟨d :: fresh, ?_, List.nodup_cons.mpr ⟨fun hf => hnot ((hmem d).mp hf).1, hnodup⟩, ?_⟩
      · rw [List.foldl_cons, hready]
        simp [release, hzero]
      · intro v
        by_cases hv : v = d
        · subst hv
          have hcnt : ds.count v = 0 := List.count_eq_zero.mpr hnot
          simp only [List.mem_cons, true_or, List.count_cons_self, hcnt, true_and, true_iff]
          omega
        · rw [List.mem_cons, List.mem_cons, hmem, hrel v hv, List.count_cons_of_ne (Ne.symm hv)]
          simp [hv]
    · refine ⟨fresh, ?_, hnodup, ?_⟩
      · rw [List.foldl_cons, hready]
        simp [release, hzero]
      · intro v
        rw [hmem]
        by_cases hv : v = d
        · subst hv
          simp only [release, Function.update_self, List.mem_cons, true_or, true_and,
            List.count_cons_self]
          constructor
          · rintro ⟨-, heq⟩
            omega
          · intro heq
            refine ⟨?_, by omega⟩
            rw [← List.count_pos_iff]
            omega
        · rw [List.count_cons_of_ne (Ne.symm hv)]
          simp [release, hv]

/-! ### The invariant of the loop -/

variable (successors) in
/-- The edges into `v` from the nodes of `s`. -/
def edgesInto (s : Finset K) (v : K) : ℕ := ∑ u ∈ s, (successors u).count v

variable {v : K}

theorem edgesInto_eq_zero {s : Finset K} :
    edgesInto successors s v = 0 ↔ ∀ u ∈ s, v ∉ successors u := by
  simp only [edgesInto, Finset.sum_eq_zero_iff, List.count_eq_zero]

theorem edgesInto_append {nodes : Finset K} {order : List K} {c : K} (hc : c ∈ nodes) (hnew : c ∉ order)
    (v : K) : edgesInto successors (nodes \ order.toFinset) v
      = (successors c).count v + edgesInto successors (nodes \ (order ++ [c]).toFinset) v := by
  have hsplit : nodes \ order.toFinset = insert c (nodes \ (order ++ [c]).toFinset) := by
    ext u
    by_cases hu : u = c
    · simp [hu, hc, hnew]
    · simp [hu]
  rw [hsplit, edgesInto, Finset.sum_insert (by simp)]
  rfl

variable (successors) in
/-- What every turn of the loop preserves. -/
structure Inv (nodes : Finset K) (s : State K) : Prop where
  nodup : (s.order ++ s.ready).Nodup
  mem : ∀ v, v ∈ s.order ++ s.ready ↔ v ∈ nodes ∧ s.indegree v = 0
  indegree : ∀ v, s.indegree v = edgesInto successors (nodes \ s.order.toFinset) v
  idxOf_lt : ∀ u ∈ nodes, ∀ v ∈ s.order, v ∈ successors u → s.order.idxOf u < s.order.idxOf v

namespace Inv
variable {nodes : Finset K} {s t : State K}

theorem mem_nodes (hs : Inv successors nodes s) (hv : v ∈ s.order ++ s.ready) :
    v ∈ nodes := ((hs.mem v).mp hv).1

theorem mem_order_of_mem_successors (hs : Inv successors nodes s) {u v : K}
    (hv : v ∈ s.order ++ s.ready) (hu : u ∈ nodes) (huv : v ∈ successors u) : u ∈ s.order := by
  have hzero : edgesInto successors (nodes \ s.order.toFinset) v = 0 := by
    have h := ((hs.mem v).mp hv).2
    rw [hs.indegree v] at h
    exact_mod_cast h
  by_contra hnot
  exact edgesInto_eq_zero.mp hzero u (by simp [hu, hnot]) huv

theorem idxOf_lt_append (hs : Inv successors nodes s) {c u v : K} (hc : c ∈ s.order ++ s.ready)
    (hnew : c ∉ s.order) (hu : u ∈ nodes) (hv : v ∈ s.order ++ [c]) (huv : v ∈ successors u) :
    (s.order ++ [c]).idxOf u < (s.order ++ [c]).idxOf v := by
  rcases List.mem_append.mp hv with hvo | hvc
  · have huo : u ∈ s.order := hs.mem_order_of_mem_successors (by simp [hvo]) hu huv
    rw [List.idxOf_append_of_mem huo, List.idxOf_append_of_mem hvo]
    exact hs.idxOf_lt u hu v hvo huv
  · obtain rfl : v = c := List.mem_singleton.mp hvc
    have huo : u ∈ s.order := hs.mem_order_of_mem_successors hc hu huv
    have hlt := List.idxOf_lt_length_of_mem huo
    rw [List.idxOf_append_of_mem huo, List.idxOf_append_of_notMem hnew]
    omega

theorem length_le (hs : Inv successors nodes s) :
    s.order.length + s.ready.length ≤ nodes.card := by
  rw [← List.length_append, ← List.toFinset_card_of_nodup hs.nodup]
  refine Finset.card_le_card fun v hv => hs.mem_nodes ?_
  simpa using hv

theorem step (hpop : Pops pop) (hclosed : ∀ u ∈ nodes, ∀ v ∈ successors u, v ∈ nodes)
    (hs : Inv successors nodes s) (h : Kahn.step successors pop s = some t) :
    Inv successors nodes t ∧ t.order.length = s.order.length + 1 := by
  obtain ⟨⟨c, rest⟩, hpopped, rfl⟩ := Option.map_eq_some_iff.mp h
  have hperm : s.ready.Perm (c :: rest) := hpop.perm _ _ _ hpopped
  have hall : (s.order ++ s.ready).Perm ((s.order ++ [c]) ++ rest) := by
    rw [List.append_assoc]
    exact hperm.append_left _
  have hnodup := hall.nodup_iff.mp hs.nodup
  have hmem : ∀ v, v ∈ (s.order ++ [c]) ++ rest ↔ v ∈ nodes ∧ s.indegree v = 0 := fun v =>
    hall.mem_iff.symm.trans (hs.mem v)
  have hc : c ∈ s.order ++ s.ready := hall.mem_iff.mpr (by simp)
  have hcNodes : c ∈ nodes := hs.mem_nodes hc
  have hcOrder : c ∉ s.order := fun hin =>
    (List.nodup_append.mp (List.nodup_append.mp hnodup).1).2.2 c hin c (by simp) rfl
  -- the edges of `c` are among those that were left
  have hsum : ∀ v, edgesInto successors (nodes \ s.order.toFinset) v
      = (successors c).count v + edgesInto successors (nodes \ (s.order ++ [c]).toFinset) v :=
    edgesInto_append hcNodes hcOrder
  have hle : ∀ v, ((successors c).count v : ℤ) ≤ s.indegree v := by
    intro v
    rw [hs.indegree v, hsum v]
    push_cast
    omega
  obtain ⟨fresh, hready, hfreshNodup, hfresh⟩ :=
    foldl_release_ready (successors c) { s with ready := rest, order := s.order ++ [c] } hle
  have hindegree : ∀ v, ((successors c).foldl release
      { s with ready := rest, order := s.order ++ [c] }).indegree v
        = edgesInto successors (nodes \ (s.order ++ [c]).toFinset) v := by
    intro v
    rw [foldl_release_indegree]
    show s.indegree v - _ = _
    rw [hs.indegree v, hsum v]
    push_cast
    omega
  have hfreshNew : ∀ v ∈ fresh, v ∉ (s.order ++ [c]) ++ rest := by
    intro v hv hin
    obtain ⟨hcount, hcard⟩ := (hfresh v).mp hv
    have hzero := ((hmem v).mp hin).2
    have hpos : 0 < (successors c).count v := List.count_pos_iff.mpr hcount
    have heq : s.indegree v = (successors c).count v := hcard
    omega
  refine ⟨⟨?_, ?_, ?_, ?_⟩, ?_⟩
  · rw [foldl_release_order, hready, ← List.append_assoc]
    exact List.nodup_append.mpr ⟨hnodup, hfreshNodup, fun v hv w hw hvw =>
      hfreshNew w hw (hvw ▸ hv)⟩
  · intro v
    rw [foldl_release_order, hready, ← List.append_assoc, List.mem_append, hmem v, hfresh v,
      foldl_release_indegree]
    show _ ↔ v ∈ nodes ∧ s.indegree v - ((successors c).count v : ℤ) = 0
    have hv := hle v
    constructor
    · rintro (⟨hn, hzero⟩ | ⟨hin, heq⟩)
      · exact ⟨hn, by omega⟩
      · exact ⟨hclosed c hcNodes v hin, sub_eq_zero.mpr heq⟩
    · rintro ⟨hn, hzero⟩
      by_cases hin : v ∈ successors c
      · exact .inr ⟨hin, sub_eq_zero.mp hzero⟩
      · have hcount : (successors c).count v = 0 := List.count_eq_zero.mpr hin
        exact .inl ⟨hn, by omega⟩
  · intro v
    rw [hindegree v, foldl_release_order]
  · intro u hu v hv huv
    rw [foldl_release_order] at hv ⊢
    exact hs.idxOf_lt_append hc hcOrder hu hv huv
  · rw [foldl_release_order]
    simp

/-- **The loop ends with no node ready**, within as many turns as there are nodes. -/
theorem loop_spec (hpop : Pops pop) (hclosed : ∀ u ∈ nodes, ∀ v ∈ successors u, v ∈ nodes)
    (fuel : ℕ) (hs : Inv successors nodes s) (hfuel : nodes.card ≤ s.order.length + fuel) :
    Inv successors nodes (loop successors pop fuel s) ∧ (loop successors pop fuel s).ready = [] := by
  induction fuel generalizing s with
  | zero =>
    have hle := hs.length_le
    exact ⟨hs, List.eq_nil_of_length_eq_zero (by rw [loop]; omega)⟩
  | succ fuel ih =>
    rw [loop]
    cases hstep : Kahn.step successors pop s with
    | none => exact ⟨hs, hpop.eq_none _ (Option.map_eq_none_iff.mp hstep)⟩
    | some t =>
      obtain ⟨ht, hlen⟩ := hs.step hpop hclosed hstep
      exact ih ht (by omega)

/-! ### At the end of the loop -/

theorem exists_blocked (hs : Inv successors nodes s) (hready : s.ready = [])
    (hv : v ∈ nodes) (hnot : v ∉ s.order) : ∃ u ∈ nodes, u ∉ s.order ∧ v ∈ successors u := by
  have hne : edgesInto successors (nodes \ s.order.toFinset) v ≠ 0 := by
    intro hzero
    refine hnot ?_
    have := (hs.mem v).mpr ⟨hv, by rw [hs.indegree v, hzero]; rfl⟩
    simpa [hready] using this
  by_contra hall
  push Not at hall
  refine hne (edgesInto_eq_zero.mpr fun u hu => ?_)
  have hu := Finset.mem_sdiff.mp hu
  exact hall u hu.1 (by simpa using hu.2)

theorem mem_order_of_acyclic (hs : Inv successors nodes s) (hready : s.ready = [])
    (hacyclic : Acyclic fun u v => u ∈ nodes ∧ v ∈ successors u) (hv : v ∈ nodes) :
    v ∈ s.order := by
  by_contra hnot
  have hleft : (nodes.filter fun v => v ∉ s.order).Nonempty := ⟨v, by simp [hv, hnot]⟩
  obtain ⟨w, hw, hsource⟩ := hacyclic.exists_source hleft
  obtain ⟨hwNodes, hwNot⟩ := Finset.mem_filter.mp hw
  obtain ⟨u, hu, huNot, huw⟩ := hs.exists_blocked hready hwNodes hwNot
  exact hsource u (by simp [hu, huNot]) ⟨hu, huw⟩

theorem nodup_order (hs : Inv successors nodes s) : s.order.Nodup := (List.nodup_append.mp hs.nodup).1

theorem length_order_eq_iff (hs : Inv successors nodes s) :
    s.order.length = nodes.card ↔ ∀ v ∈ nodes, v ∈ s.order := by
  have hsub : s.order.toFinset ⊆ nodes := fun u hu =>
    hs.mem_nodes (List.mem_append_left _ (List.mem_toFinset.mp hu))
  rw [← List.toFinset_card_of_nodup hs.nodup_order]
  constructor
  · intro h v hv
    rw [← Finset.eq_of_subset_of_card_le hsub h.ge] at hv
    exact List.mem_toFinset.mp hv
  · intro h
    rw [Finset.Subset.antisymm hsub fun v hv => List.mem_toFinset.mpr (h v hv)]

theorem acyclic_of_forall_mem (hs : Inv successors nodes s) (h : ∀ v ∈ nodes, v ∈ s.order)
    (hclosed : ∀ u ∈ nodes, ∀ v ∈ successors u, v ∈ nodes) :
    Acyclic fun u v => u ∈ nodes ∧ v ∈ successors u :=
  acyclic_of_rank s.order.idxOf fun u v huv =>
    hs.idxOf_lt u huv.1 v (h v (hclosed u huv.1 v huv.2)) huv.2

end Inv

end CyberControl.Kahn
