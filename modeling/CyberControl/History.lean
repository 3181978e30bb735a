import Mathlib.Data.List.Basic

/-! # Properties of a history

A history is the list of what has happened, oldest first.  `AtEach P l` says that `P` holds of
every entry of `l` together with the entries before it. -/

namespace CyberControl.History

variable {α : Type*}

/-- `P` holds at each entry, given the entries before it. -/
def AtEach (P : List α → α → Prop) (l : List α) : Prop :=
  ∀ pre x post, l = pre ++ x :: post → P pre x

theorem atEach_nil (P : List α → α → Prop) : AtEach P [] := by
  intro pre x post h
  simp at h

theorem atEach_snoc {P : List α → α → Prop} {l : List α} {x : α} (hl : AtEach P l) (hx : P l x) :
    AtEach P (l ++ [x]) := by
  intro pre y post h
  rcases List.eq_nil_or_concat post with rfl | ⟨post', z, rfl⟩
  · obtain ⟨rfl, hy⟩ := List.append_inj' h rfl
    cases hy
    exact hx
  · rw [List.concat_eq_append, ← List.cons_append, ← List.append_assoc] at h
    obtain ⟨rfl, -⟩ := List.append_inj' h rfl
    exact hl pre y post' rfl

theorem AtEach.of_append {P : List α → α → Prop} {pre post : List α} (h : AtEach P (pre ++ post)) :
    AtEach P pre := by
  intro pre' x post' hl
  exact h pre' x (post' ++ post) (by rw [hl]; simp)

end CyberControl.History
