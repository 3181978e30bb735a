import CyberControl.Digraph

/-! # Layers of a graph

The depth of a node is the length of the longest walk that ends in it.  `Layers r layer` says of a
relation `layer v n` (node `v` is in layer `n`) what an algorithm that gives out layers from the
sources on keeps to: predecessors are in earlier layers, one of them in the layer just before. -/

namespace CyberControl.Digraph

variable {K : Type*} {r : K → K → Prop} {layer : K → ℕ → Prop}

/-- There is a walk of `n` edges that ends in `v`. -/
def WalkTo (r : K → K → Prop) : K → ℕ → Prop
  | _, 0 => True
  | v, n + 1 => ∃ u, r u v ∧ WalkTo r u n

/-- The longest walk that ends in `v` has `n` edges. -/
def IsDepth (r : K → K → Prop) (v : K) (n : ℕ) : Prop := IsGreatest {k | WalkTo r v k} n

variable {v : K}

theorem IsDepth.unique {m n : ℕ} (hm : IsDepth r v m) (hn : IsDepth r v n) : m = n :=
  le_antisymm (hn.2 hm.1) (hm.2 hn.1)

/-- Predecessors are in earlier layers, and one of them is in the layer just before. -/
structure Layers (r : K → K → Prop) (layer : K → ℕ → Prop) : Prop where
  earlier : ∀ {u v n}, r u v → layer v n → ∃ m < n, layer u m
  previous : ∀ {v n}, layer v (n + 1) → ∃ u, r u v ∧ layer u n

namespace Layers

theorem walkTo (h : Layers r layer) {n : ℕ} (hv : layer v n) : WalkTo r v n := by
  induction n generalizing v with
  | zero => trivial
  | succ n ih =>
    obtain ⟨u, huv, hu⟩ := h.previous hv
    exact ⟨u, huv, ih hu⟩

theorem le_of_walkTo (h : Layers r layer) {n k : ℕ} (hv : layer v n) (hk : WalkTo r v k) :
    k ≤ n := by
  induction k generalizing v n with
  | zero => exact Nat.zero_le n
  | succ k ih =>
    obtain ⟨u, huv, hu⟩ := hk
    obtain ⟨m, hm, hum⟩ := h.earlier huv hv
    have hle := ih hum hu
    omega

/-- **The layer of a node is its depth.** -/
theorem isDepth (h : Layers r layer) {n : ℕ} (hv : layer v n) : IsDepth r v n :=
  ⟨h.walkTo hv, fun _ hk => h.le_of_walkTo hv hk⟩

/-- **A graph whose nodes all have layers is acyclic.** -/
theorem acyclic (h : Layers r layer) (hall : ∀ {u v}, r u v → ∃ n, layer v n) : Acyclic r := by
  have hreach : ∀ u v, Relation.TransGen r u v → ∀ n, layer v n → ∃ m < n, layer u m := by
    intro u v huv
    induction huv with
    | single huv => exact fun n hn => h.earlier huv hn
    | tail _ hbc ih =>
      intro n hn
      obtain ⟨m, hm, hb⟩ := h.earlier hbc hn
      obtain ⟨k, hk, hu⟩ := ih m hb
      exact ⟨k, hk.trans hm, hu⟩
  intro v hv
  obtain ⟨u, -, huv⟩ := Relation.TransGen.tail'_iff.mp hv
  obtain ⟨n, hn⟩ := hall huv
  obtain ⟨m, hm, hvm⟩ := hreach v v hv n hn
  exact absurd ((h.isDepth hvm).unique (h.isDepth hn)) hm.ne

end Layers

end CyberControl.Digraph
