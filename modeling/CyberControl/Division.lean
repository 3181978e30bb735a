import Mathlib.Algebra.Ring.Nat
import Mathlib.Data.List.DropRight

/-! # Dividing a list greedily, and trimming it

* `Greedy weight bound l pieces`: `pieces` are the pieces one gets by cutting from `l`, again and
  again, the longest initial part whose total weight is at most `bound`.
* `trim p l`: `l` without the elements at its two ends that satisfy `p`. -/

namespace CyberControl.Division

variable {α : Type*}

/-! ### Greedy division -/

section greedy
variable (weight : α → ℕ) (bound : ℕ)

/-- The total weight of a list. -/
def total (l : List α) : ℕ := (l.map weight).sum

@[simp] theorem total_nil : total weight [] = 0 := rfl

@[simp] theorem total_cons (a : α) (l : List α) :
    total weight (a :: l) = weight a + total weight l := by
  simp [total]

@[simp] theorem total_append (l l' : List α) :
    total weight (l ++ l') = total weight l + total weight l' := by
  simp [total]

/-- `pieces` are the greedy pieces of a list: each is nonempty, weighs at most `bound`, and would
weigh more than that with the element after it. -/
inductive Greedy : List α → List (List α) → Prop
  | nil : Greedy [] []
  | cons {piece rest : List α} {pieces : List (List α)} (ne_nil : piece ≠ [])
      (total_le : total weight piece ≤ bound)
      (maximal : ∀ a ∈ rest.head?, bound < total weight piece + weight a)
      (tail : Greedy rest pieces) : Greedy (piece ++ rest) (piece :: pieces)

variable {weight bound} {l : List α} {pieces pieces' : List (List α)}

theorem Greedy.flatten_eq (h : Greedy weight bound l pieces) : pieces.flatten = l := by
  induction h with
  | nil => rfl
  | cons ne_nil total_le maximal tail ih => rw [List.flatten_cons, ih]

theorem Greedy.total_le (h : Greedy weight bound l pieces) :
    ∀ piece ∈ pieces, Division.total weight piece ≤ bound := by
  induction h with
  | nil => simp
  | cons ne_nil total_le maximal tail ih =>
    intro piece hp
    rcases List.mem_cons.mp hp with rfl | hp
    · exact total_le
    · exact ih piece hp

theorem maximal_length_le {p q r s : List α} (hl : p ++ r = q ++ s)
    (hq : total weight q ≤ bound) (hr : ∀ a ∈ r.head?, bound < total weight p + weight a) :
    q.length ≤ p.length := by
  by_contra hlt
  have hpq : p <+: q :=
    List.prefix_of_prefix_length_le ⟨r, rfl⟩ ⟨s, hl.symm⟩ (by omega)
  obtain ⟨t, rfl⟩ := hpq
  cases t with
  | nil => simp at hlt
  | cons a t =>
    have hrt : r = a :: t ++ s := by simpa using hl
    have := hr a (by simp [hrt])
    simp only [total_append, total_cons] at hq
    omega

theorem Greedy.unique (h : Greedy weight bound l pieces) (h' : Greedy weight bound l pieces') :
    pieces = pieces' := by
  induction h generalizing pieces' with
  | nil =>
    generalize hl : ([] : List α) = l' at h'
    cases h' with
    | nil => rfl
    | cons ne_nil total_le maximal tail => exact absurd (List.append_eq_nil_iff.mp hl.symm).1 ne_nil
  | @cons piece rest pieces ne_nil total_le maximal tail ih =>
    generalize hl : piece ++ rest = l' at h'
    cases h' with
    | nil => exact absurd (List.append_eq_nil_iff.mp hl).1 ne_nil
    | @cons piece' rest' pieces' ne_nil' total_le' maximal' tail' =>
      have hle := maximal_length_le hl total_le' maximal
      have hge := maximal_length_le hl.symm total_le maximal'
      obtain ⟨rfl, rfl⟩ := List.append_inj hl (by omega)
      rw [ih tail']

end greedy

/-! ### Trimming -/

section trim
variable (p : α → Bool)

/-- `l` without the elements at its two ends that satisfy `p`. -/
def trim (l : List α) : List α := (l.dropWhile p).rdropWhile p

variable {p} {l : List α}

theorem trim_sublist : (trim p l).Sublist l :=
  (List.rdropWhile_prefix p (l.dropWhile p)).sublist.trans (List.dropWhile_sublist p)

theorem length_trim_lt (h : trim p l ≠ l) : (trim p l).length < l.length := by
  refine lt_of_le_of_ne trim_sublist.length_le fun hlen => ?_
  exact h (trim_sublist.eq_of_length hlen)

theorem trim_eq_self :
    trim p l = l ↔ (∀ a ∈ l.head?, p a = false) ∧ ∀ a ∈ l.getLast?, p a = false := by
  have hdrop : l.dropWhile p = l ↔ ∀ a ∈ l.head?, p a = false := by
    cases l with
    | nil => simp
    | cons a l => simp [List.dropWhile_eq_self_iff]
  have hrdrop : l.rdropWhile p = l ↔ ∀ a ∈ l.getLast?, p a = false := by
    rw [List.rdropWhile_eq_self_iff]
    by_cases hl : l = []
    · simp [hl]
    · simp [hl, List.getLast?_eq_some_getLast hl]
  rw [← hdrop, ← hrdrop]
  constructor
  · intro h
    have hsub := (List.rdropWhile_prefix p (l.dropWhile p)).sublist
    have hd : l.dropWhile p = l := by
      refine (List.dropWhile_sublist p).eq_of_length_le ?_
      have := hsub.length_le
      rwa [show (l.dropWhile p).rdropWhile p = l from h] at this
    refine ⟨hd, ?_⟩
    rw [trim, hd] at h
    exact h
  · rintro ⟨hd, hr⟩
    rw [trim, hd, hr]

end trim

end CyberControl.Division
