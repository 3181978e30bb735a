import Mathlib.Data.Finset.Card

/-! # Sets that grow until they are closed

A step that only adds elements is repeated until it adds none. -/

namespace CyberControl.Saturation

open Relation

variable {K : Type*} [DecidableEq K]

/-- The step is repeated while it changes the set, at most `fuel` times. -/
def saturate (step : Finset K → Finset K) : ℕ → Finset K → Finset K
  | 0, s => s
  | fuel + 1, s => if step s = s then s else saturate step fuel (step s)

variable {step : Finset K → Finset K} {nodes : Finset K} {s : Finset K} {fuel : ℕ}

theorem saturate_fixed (hle : ∀ s, s ⊆ step s) (hnodes : ∀ s ⊆ nodes, step s ⊆ nodes)
    (hs : s ⊆ nodes) (hfuel : nodes.card ≤ s.card + fuel) :
    step (saturate step fuel s) = saturate step fuel s := by
  induction fuel generalizing s with
  | zero =>
    have hall : s = nodes := Finset.eq_of_subset_of_card_le hs hfuel
    exact (Finset.Subset.antisymm (hle s) (hall ▸ hnodes s hs)).symm
  | succ fuel ih =>
    rw [saturate]
    split_ifs with hfixed
    · exact hfixed
    · apply ih (hnodes s hs)
      have hgrows : s.card < (step s).card :=
        Finset.card_lt_card (Finset.ssubset_iff_subset_ne.mpr ⟨hle s, Ne.symm hfixed⟩)
      omega

theorem saturate_induction {P : Finset K → Prop} (hstep : ∀ s, P s → P (step s))
    (hs : P s) : P (saturate step fuel s) := by
  induction fuel generalizing s with
  | zero => exact hs
  | succ fuel ih =>
    rw [saturate]
    split_ifs
    · exact hs
    · exact ih (hstep s hs)

/-- **Saturation along a relation.** When each added element leads to an older one, and the step adds
whatever leads directly into the set, the last set consists of what leads into the first. -/
theorem mem_saturate_iff {r : K → K → Prop} (hle : ∀ s, s ⊆ step s)
    (hsound : ∀ s, ∀ x ∈ step s, ∃ y ∈ s, ReflTransGen r x y)
    (hcomplete : ∀ s x y, r x y → y ∈ s → x ∈ step s)
    (hfixed : step (saturate step fuel s) = saturate step fuel s) {x : K} :
    x ∈ saturate step fuel s ↔ ∃ y ∈ s, ReflTransGen r x y := by
  constructor
  · have hall : ∀ x ∈ saturate step fuel s, ∃ y ∈ s, ReflTransGen r x y := by
      refine saturate_induction (P := fun t => ∀ x ∈ t, ∃ y ∈ s, ReflTransGen r x y) ?_ ?_
      · intro t ht x hx
        obtain ⟨y, hy, hxy⟩ := hsound t x hx
        obtain ⟨z, hz, hyz⟩ := ht y hy
        exact ⟨z, hz, hxy.trans hyz⟩
      · exact fun x hx => ⟨x, hx, .refl⟩
    exact hall x
  · rintro ⟨y, hy, hxy⟩
    have hy : y ∈ saturate step fuel s :=
      saturate_induction (P := fun t => y ∈ t) (fun t ht => hle t ht) hy
    induction hxy using ReflTransGen.head_induction_on with
    | refl => exact hy
    | head hab _ ih =>
      rw [← hfixed]
      exact hcomplete _ _ _ hab ih

end CyberControl.Saturation
