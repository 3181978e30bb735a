import Mathlib.Data.List.Sort

/-! # Orders that a query leaves open

`ORDER BY key` fixes the order of rows with different keys; rows that tie may come in any order.  A
`RowOrder key` is one choice of them for every result, and what holds of a query is what holds for all. -/

namespace CyberControl

variable {α κ : Type*} [LinearOrder κ]

/-- An order of the rows of every result that respects the key. -/
structure RowOrder (key : α → κ) where
  order : List α → List α
  perm : ∀ rows, (order rows).Perm rows
  sorted : ∀ rows, (order rows).Pairwise fun a b => key a ≤ key b

namespace RowOrder

variable {key : α → κ} {rows : List α}

@[simp] theorem mem_order (o : RowOrder key) {a : α} : a ∈ o.order rows ↔ a ∈ rows :=
  (o.perm rows).mem_iff

theorem order_eq_of_length (o : RowOrder key) (h : rows.length ≤ 1) :
    o.order rows = rows := by
  have hperm := o.perm rows
  cases rows with
  | nil => exact hperm.eq_nil
  | cons a rows =>
    cases rows with
    | nil => exact List.perm_singleton.mp hperm
    | cons b rows =>
      simp only [List.length_cons] at h
      omega

section sort

variable (key)

theorem pairwise_sort (rows : List α) :
    (rows.insertionSort fun a b => key a ≤ key b).Pairwise fun a b => key a ≤ key b := by
  have : Std.Total fun a b : α => key a ≤ key b := ⟨fun a b => le_total (key a) (key b)⟩
  have : IsTrans α fun a b : α => key a ≤ key b := ⟨fun _ _ _ => le_trans⟩
  exact List.pairwise_insertionSort _ rows

/-- Rows that tie stay as they are. -/
def stable : RowOrder key where
  order rows := rows.insertionSort fun a b => key a ≤ key b
  perm rows := List.perm_insertionSort _ rows
  sorted rows := pairwise_sort key rows

/-- Rows that tie come backwards. -/
def backwards : RowOrder key where
  order rows := rows.reverse.insertionSort fun a b => key a ≤ key b
  perm rows := (List.perm_insertionSort _ _).trans (List.reverse_perm rows)
  sorted rows := pairwise_sort key rows.reverse

end sort

theorem stable_order (h : ∀ a ∈ rows, ∀ b ∈ rows, key a = key b) :
    (stable key).order rows = rows := by
  refine List.Pairwise.insertionSort_eq (List.pairwise_of_forall_mem_list fun a ha b hb => ?_)
  exact (h a ha b hb).le

theorem backwards_order (h : ∀ a ∈ rows, ∀ b ∈ rows, key a = key b) :
    (backwards key).order rows = rows.reverse := by
  refine List.Pairwise.insertionSort_eq (List.pairwise_of_forall_mem_list fun a ha b hb => ?_)
  exact (h a (List.mem_reverse.mp ha) b (List.mem_reverse.mp hb)).le

theorem length_of_reverse_eq (hnodup : rows.Nodup) (h : rows.reverse = rows) :
    rows.length ≤ 1 := by
  cases rows with
  | nil => exact Nat.zero_le 1
  | cons a rows =>
    cases hlast : rows.reverse with
    | nil =>
      rw [List.reverse_eq_nil_iff.mp hlast]
      exact le_refl 1
    | cons b rest =>
      rw [List.reverse_cons, hlast, List.cons_append, List.cons.injEq] at h
      have hmem : a ∈ rows := by
        rw [← List.mem_reverse, hlast, h.1]
        exact List.mem_cons_self
      exact absurd hmem (List.nodup_cons.mp hnodup).1

open Classical in
/-- A row with the least key, where it is, comes before all others. -/
noncomputable def first (row : α) : RowOrder key where
  order rows :=
    if row ∈ rows ∧ ∀ a ∈ rows, key row ≤ key a then
      row :: (rows.erase row).insertionSort fun a b => key a ≤ key b
    else rows.insertionSort fun a b => key a ≤ key b
  perm rows := by
    split_ifs with h
    · exact ((List.perm_insertionSort _ _).cons row).trans (List.perm_cons_erase h.1).symm
    · exact List.perm_insertionSort _ rows
  sorted rows := by
    split_ifs with h
    · rw [List.pairwise_cons]
      refine ⟨fun a ha => h.2 a ?_, pairwise_sort key _⟩
      exact List.mem_of_mem_erase ((List.mem_insertionSort _).mp ha)
    · exact pairwise_sort key rows

theorem head_first {row : α} (hrow : row ∈ rows) (hleast : ∀ a ∈ rows, key row ≤ key a) :
    ((first row : RowOrder key).order rows).head? = some row := by
  unfold first
  simp only
  rw [if_pos ⟨hrow, hleast⟩]
  rfl

/-- **A row comes first under every order exactly when its key is less than that of all others.** -/
theorem forall_head_iff {row : α} (hrow : row ∈ rows) :
    (∀ o : RowOrder key, (o.order rows).head? = some row) ↔
      ∀ other ∈ rows, other ≠ row → key row < key other := by
  constructor
  · intro h other hother hne
    by_contra hle
    rw [not_lt] at hle
    have hmin : ∀ a ∈ rows, key row ≤ key a := by
      intro a ha
      have hhead := h (stable key)
      cases horder : (stable key).order rows with
      | nil =>
        rw [horder] at hhead
        cases hhead
      | cons b rest =>
        rw [horder, List.head?_cons, Option.some.injEq] at hhead
        have hsorted := (stable key).sorted rows
        rw [horder, hhead, List.pairwise_cons] at hsorted
        rw [← mem_order (stable key), horder, hhead] at ha
        rcases List.mem_cons.mp ha with rfl | ha
        · exact le_refl _
        · exact hsorted.1 a ha
    have hother' : ∀ a ∈ rows, key other ≤ key a := fun a ha => hle.trans (hmin a ha)
    have hhead := h (first other)
    rw [head_first hother hother', Option.some.injEq] at hhead
    exact hne hhead
  · intro h o
    cases horder : o.order rows with
    | nil =>
      rw [← mem_order o, horder] at hrow
      cases hrow
    | cons a rest =>
      rw [List.head?_cons, Option.some.injEq]
      by_contra hne
      have ha : a ∈ rows := by
        rw [← mem_order o, horder]
        exact List.mem_cons_self
      have hsorted := o.sorted rows
      rw [horder, List.pairwise_cons] at hsorted
      have hrest : row ∈ rest := by
        have hmem : row ∈ a :: rest := by
          rw [← horder, mem_order]
          exact hrow
        exact (List.mem_cons.mp hmem).resolve_left (Ne.symm hne)
      exact absurd (hsorted.1 row hrest) (not_le.mpr (h a ha hne))

end RowOrder

end CyberControl
