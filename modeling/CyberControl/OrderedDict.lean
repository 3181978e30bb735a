import Mathlib.Algebra.BigOperators.Group.List.Basic
import Mathlib.Data.List.AList

/-! # Dictionaries ordered by their last use

An `AList` whose first entry is the one used last: `AList.insert` puts its entry first, as storing under a key
that was popped, or moving a key to the end, does in a dictionary ordered the other way round. -/

namespace CyberControl.OrderedDict

variable {κ β M : Type*}

theorem lookup_of_sublist [DecidableEq κ] {d d' : AList fun _ : κ => β} (h : d'.entries.Sublist d.entries) {k : κ}
    {b : β} (hk : d'.lookup k = some b) : d.lookup k = some b := by
  rw [← Option.mem_def, AList.mem_lookup_iff] at hk ⊢
  exact h.subset hk

/-! ### Taking entries away -/

def dropOldest (d : AList fun _ : κ => β) : AList fun _ : κ => β :=
  ⟨d.entries.dropLast, d.nodupKeys.sublist (List.dropLast_sublist _)⟩

/-- `popitem(last=False)`; it raises for `none`. -/
def popOldest (d : AList fun _ : κ => β) : Option ((κ × β) × AList fun _ : κ => β) :=
  d.entries.getLast?.map fun e => ((e.1, e.2), dropOldest d)

/-- `values()`: the one used longest ago first. -/
def values (d : AList fun _ : κ => β) : List β := (d.entries.map Sigma.snd).reverse

def filterValues (p : β → Bool) (d : AList fun _ : κ => β) : AList fun _ : κ => β :=
  ⟨d.entries.filter fun e => p e.2, d.nodupKeys.sublist List.filter_sublist⟩

/-- `popitem(last=False)` until `n` entries are left. -/
def keepNewest (n : ℕ) (d : AList fun _ : κ => β) : AList fun _ : κ => β :=
  ⟨d.entries.take n, d.nodupKeys.sublist (List.take_sublist n _)⟩

variable {e : Sigma fun _ : κ => β}

section pop
variable {d d' : AList fun _ : κ => β} {k : κ} {b : β}

theorem popOldest_eq_none : popOldest d = none ↔ d.entries = [] := by
  unfold popOldest
  rw [Option.map_eq_none_iff, List.getLast?_eq_none_iff]

theorem entries_of_popOldest (h : popOldest d = some ((k, b), d')) : d.entries = d'.entries ++ [⟨k, b⟩] := by
  obtain ⟨e, he, heq⟩ := Option.map_eq_some_iff.mp h
  cases heq
  exact (List.dropLast_append_getLast? e he).symm

theorem length_of_popOldest (h : popOldest d = some ((k, b), d')) :
    d.entries.length = d'.entries.length + 1 := by
  rw [entries_of_popOldest h]
  simp

theorem sublist_of_popOldest (h : popOldest d = some ((k, b), d')) : d'.entries.Sublist d.entries := by
  rw [entries_of_popOldest h]
  exact List.sublist_append_left _ _

theorem lookup_of_popOldest [DecidableEq κ] (h : popOldest d = some ((k, b), d')) : d.lookup k = some b := by
  rw [← Option.mem_def, AList.mem_lookup_iff, entries_of_popOldest h]
  simp

theorem head_of_popOldest {rest : List (Sigma fun _ : κ => β)}
    (h : popOldest d = some ((k, b), d')) (hd : d.entries = e :: rest) (hrest : rest ≠ []) :
    d'.entries = e :: rest.dropLast := by
  have hsnoc := entries_of_popOldest h
  have hdrop : d'.entries = d.entries.dropLast := by
    rw [hsnoc]
    simp
  rw [hdrop, hd]
  exact List.dropLast_cons_of_ne_nil hrest

theorem ne_of_popOldest {rest : List (Sigma fun _ : κ => β)}
    (h : popOldest d = some ((k, b), d')) (hd : d.entries = e :: rest) (hrest : rest ≠ []) : k ≠ e.1 := by
  have hnodup : (d.entries.map Sigma.fst).Nodup := d.nodupKeys
  rw [entries_of_popOldest h, head_of_popOldest h hd hrest] at hnodup
  intro heq
  simp [heq] at hnodup

end pop

/-! ### Writing under a key that is there -/

section write
variable [DecidableEq κ] {d : AList fun _ : κ => β} {k k' : κ} {b c : β}

theorem exists_of_lookup (h : d.lookup k = some b) :
    ∃ l l', k ∉ l.keys ∧ d.entries = l ++ ⟨k, b⟩ :: l' ∧ (d.erase k).entries = l ++ l' := by
  have hk : k ∈ d.keys := by
    rw [← AList.mem_keys, ← AList.lookup_isSome, h]
    rfl
  obtain ⟨b', l, l', hl, hd, herase⟩ := List.exists_of_kerase hk
  have hb : d.lookup k = some b' := by
    rw [← Option.mem_def, AList.mem_lookup_iff, hd]
    simp
  rw [h] at hb
  cases hb
  exact ⟨l, l', hl, hd, herase⟩

theorem erase_of_lookup_eq_none (h : d.lookup k = none) : d.erase k = d := by
  apply AList.ext
  exact List.kerase_of_notMem_keys (AList.lookup_eq_none.mp h)

theorem kreplace_append_cons (l l' : List (Sigma fun _ : κ => β)) (hl : k ∉ l.keys) :
    List.kreplace k c (l ++ ⟨k, b⟩ :: l') = l ++ ⟨k, c⟩ :: l' := by
  induction l with
  | nil => simp [List.kreplace, List.lookmap_cons_some]
  | cons e l ih =>
    obtain ⟨hne, hl⟩ := not_or.mp (fun h => hl (List.mem_cons.mpr h))
    have htail := ih hl
    unfold List.kreplace at htail ⊢
    rw [List.cons_append, List.lookmap_cons_none _ _ (dif_neg hne), htail]
    rfl

theorem erase_head {l : List (Sigma fun _ : κ => β)} (hd : d.entries = e :: l)
    (hne : k ≠ e.1) : ∃ l', (d.erase k).entries = e :: l' := by
  refine ⟨l.kerase k, ?_⟩
  show d.entries.kerase k = _
  rw [hd]
  exact List.kerase_cons_ne hne

theorem replace_head {l : List (Sigma fun _ : κ => β)} (hd : d.entries = e :: l)
    (hne : k ≠ e.1) : ∃ l', (d.replace k c).entries = e :: l' := by
  refine ⟨l.kreplace k c, ?_⟩
  show d.entries.kreplace k c = _
  rw [hd]
  exact List.lookmap_cons_none _ _ (dif_neg hne)

theorem replace_perm_insert (h : d.lookup k = some b) : (d.replace k c).entries.Perm (d.insert k c).entries := by
  obtain ⟨l, l', hl, hd, herase⟩ := exists_of_lookup h
  have hreplace : (d.replace k c).entries = l ++ ⟨k, c⟩ :: l' := by
    show List.kreplace k c d.entries = _
    rw [hd, kreplace_append_cons l l' hl]
  have hinsert : (d.insert k c).entries = ⟨k, c⟩ :: (l ++ l') := by
    rw [AList.entries_insert, ← herase]
    rfl
  rw [hreplace, hinsert]
  exact List.perm_middle

theorem lookup_replace (h : d.lookup k = some b) : (d.replace k c).lookup k' = (d.insert k c).lookup k' :=
  AList.perm_lookup (replace_perm_insert h)

end write

/-! ### Sums -/

section total
variable [AddCommMonoid M] (w : β → M)

/-- The sum of the weights of the values. -/
def total (d : AList fun _ : κ => β) : M := (d.entries.map fun e => w e.2).sum

variable {w} {d d' : AList fun _ : κ => β} {k : κ} {b c : β}

@[simp] theorem total_empty : total w (∅ : AList fun _ : κ => β) = 0 := rfl

theorem total_of_popOldest (h : popOldest d = some ((k, b), d')) : total w d = w b + total w d' := by
  unfold total
  rw [entries_of_popOldest h, List.map_append, List.sum_append, add_comm]
  simp

theorem total_eq_sum_values : total w d = ((values d).map w).sum := by
  unfold total values
  rw [List.map_reverse, List.sum_reverse, List.map_map]
  rfl

theorem total_filterValues (p : β → Bool) :
    total w d = (((values d).filter fun b => !p b).map w).sum + total w (filterValues p d) := by
  unfold total values filterValues
  rw [List.filter_reverse, List.map_reverse, List.sum_reverse, List.filter_map, List.map_map]
  simp only [Function.comp_def]
  induction d.entries with
  | nil => simp
  | cons e l ih =>
    cases hp : p e.2 with
    | true =>
      rw [List.filter_cons_of_neg (by simp [hp]), List.filter_cons_of_pos (by simp [hp])]
      simp only [List.map_cons, List.sum_cons, ih]
      exact add_left_comm _ _ _
    | false =>
      rw [List.filter_cons_of_pos (by simp [hp]), List.filter_cons_of_neg (by simp [hp])]
      simp only [List.map_cons, List.sum_cons, ih]
      exact (add_assoc _ _ _).symm

variable [DecidableEq κ]

theorem total_erase_of_lookup (h : d.lookup k = some b) : total w d = w b + total w (d.erase k) := by
  obtain ⟨l, l', -, hd, herase⟩ := exists_of_lookup h
  unfold total
  rw [herase, hd]
  simp only [List.map_append, List.map_cons, List.sum_append, List.sum_cons]
  exact add_left_comm _ _ _

theorem total_insert : total w (d.insert k b) = w b + total w (d.erase k) := by
  unfold total
  rw [AList.entries_insert]
  rfl

theorem total_replace (h : d.lookup k = some b) : total w (d.replace k c) = w c + total w (d.erase k) := by
  rw [← total_insert]
  exact ((replace_perm_insert h).map _).sum_eq

end total

end CyberControl.OrderedDict
