import Mathlib.Data.Fintype.EquivFin
import Mathlib.Data.List.Chain
import Mathlib.Order.WellFounded

/-! # Cycles of a relation

A directed graph is a relation `r` on its nodes.

* `Acyclic r`: no node reaches itself.  A rank that grows along every edge is enough.
* `IsClosedWalk r l`: `l` lists a walk that ends where it starts; its nodes reach each other. -/

namespace CyberControl.Digraph

open Relation

variable {K : Type*} {r q : K → K → Prop}

/-! ### Acyclic relations -/

/-- No node reaches itself. -/
def Acyclic (r : K → K → Prop) : Prop := ∀ x, ¬ TransGen r x x

theorem Acyclic.mono (hq : Acyclic q) (h : ∀ a b, r a b → q a b) : Acyclic r :=
  fun x hx => hq x (TransGen.mono h x x hx)

theorem acyclic_of_rank (rank : K → ℕ) (h : ∀ a b, r a b → rank a < rank b) : Acyclic r := by
  intro x hx
  have hlt : ∀ a b, TransGen r a b → rank a < rank b := by
    intro a b hab
    induction hab with
    | single hab => exact h _ _ hab
    | tail _ hbc ih => exact ih.trans (h _ _ hbc)
  exact lt_irrefl _ (hlt x x hx)

theorem not_transGen_of_acc {x : K} (hx : Acc (fun b a => r a b) x) : ¬ TransGen r x x := by
  have hacc : Acc (TransGen fun b a => r a b) x := hx.transGen
  induction hacc with
  | intro x _ ih =>
    intro h
    exact ih x (transGen_swap.mp h) hx h

/-- **A finite part of an acyclic graph has a source.** -/
theorem Acyclic.exists_source (hr : Acyclic r) {s : Finset K} (hs : s.Nonempty) :
    ∃ v ∈ s, ∀ u ∈ s, ¬ r u v := by
  let below : s → s → Prop := fun u v => TransGen r u v
  have htrans : IsTrans s below := ⟨fun _ _ _ => TransGen.trans⟩
  have hirrefl : Std.Irrefl below := ⟨fun x => hr x⟩
  have hwf : WellFounded below := Finite.wellFounded_of_trans_of_irrefl below
  obtain ⟨x, hx⟩ := hs
  obtain ⟨v, -, hv⟩ := hwf.has_min Set.univ ⟨⟨x, hx⟩, trivial⟩
  exact ⟨v, v.2, fun u hu huv => hv ⟨u, hu⟩ trivial (TransGen.single huv)⟩

/-! ### Closed walks -/

/-- A walk with at least one edge that ends where it starts. -/
def IsClosedWalk (r : K → K → Prop) (l : List K) : Prop :=
  ∃ x m, l = x :: (m ++ [x]) ∧ l.IsChain r

variable {l : List K} {a b : K}

theorem transGen_of_isChain (h : (a :: l).IsChain r) (hb : b ∈ l) :
    TransGen r a b := by
  induction l generalizing a with
  | nil => simp at hb
  | cons c l ih =>
    obtain ⟨hac, hl⟩ := List.isChain_cons_cons.mp h
    rcases List.mem_cons.mp hb with rfl | hbl
    · exact TransGen.single hac
    · exact TransGen.head hac (ih hl hbl)

theorem transGen_last_of_isChain (h : (l ++ [b]).IsChain r) (ha : a ∈ l) :
    TransGen r a b := by
  obtain ⟨s, t, rfl⟩ := List.append_of_mem ha
  rw [List.append_assoc] at h
  exact transGen_of_isChain (List.IsChain.right_of_append h) (by simp)

namespace IsClosedWalk

/-- **Any two nodes of a closed walk reach each other.** -/
theorem reaches (h : IsClosedWalk r l) (ha : a ∈ l) (hb : b ∈ l) :
    TransGen r a b := by
  obtain ⟨x, m, rfl, hchain⟩ := h
  have hfrom : TransGen r x b := by
    rcases List.mem_cons.mp hb with rfl | hb
    · exact transGen_of_isChain hchain (by simp)
    · exact transGen_of_isChain hchain hb
  have hto : TransGen r a x := by
    have hsnoc : (x :: (m ++ [x])) = (x :: m) ++ [x] := rfl
    rw [hsnoc] at ha hchain
    rcases List.mem_append.mp ha with ha | ha
    · exact transGen_last_of_isChain hchain ha
    · rw [List.mem_singleton.mp ha]
      exact transGen_last_of_isChain hchain (by simp)
  exact hto.trans hfrom

theorem imp_of_mem (h : IsClosedWalk r l) (hq : ∀ a ∈ l, ∀ b ∈ l, r a b → q a b) :
    IsClosedWalk q l := by
  obtain ⟨x, m, rfl, hchain⟩ := h
  exact ⟨x, m, rfl, hchain.imp_of_mem_imp fun _ _ ha hb => hq _ ha _ hb⟩

theorem not_acyclic (h : IsClosedWalk r l) : ¬ Acyclic r := by
  intro hr
  obtain ⟨x, m, rfl, -⟩ := id h
  exact hr x (h.reaches (by simp) (by simp))

theorem exists_edge (h : IsClosedWalk r l) : ∃ a ∈ l, ∃ b ∈ l, r a b := by
  obtain ⟨x, m, rfl, hchain⟩ := h
  cases m with
  | nil => exact ⟨x, by simp, x, by simp, (List.isChain_cons_cons.mp hchain).1⟩
  | cons b m => exact ⟨x, by simp, b, by simp, (List.isChain_cons_cons.mp hchain).1⟩

end IsClosedWalk

end CyberControl.Digraph
