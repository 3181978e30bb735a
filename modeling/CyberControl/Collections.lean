import CyberControl.Scheduling
import Mathlib.Data.Finset.Card

/-! # Dictionaries and sets built from a list

* `latestBy`: the dictionary that a loop builds when it keeps, under each key, the element of
  greatest rank.  Under distinct ranks the order of the list does not matter.
* `sortedSet`: the sorted elements of a list without repetitions; `sorted` is the same for a
  finite set. -/

namespace CyberControl.Collections

open Scheduling

variable {α κ ρ : Type*}

/-! ### Greatest element under each key -/

variable {l : List α} {a : α} {k : κ}

section latest
variable [DecidableEq κ] [LinearOrder ρ] (key : α → κ) (rank : α → ρ)

/-- One turn of the loop: an element replaces the one under its key when it ranks higher. -/
def keepLatest (latest : κ → Option α) (a : α) : κ → Option α :=
  match latest (key a) with
  | none => Function.update latest (key a) (some a)
  | some current =>
    if rank current < rank a then Function.update latest (key a) (some a) else latest

/-- The element of greatest rank under each key. -/
def latestBy (l : List α) : κ → Option α := l.foldl (keepLatest key rank) fun _ => none

/-- `a` has the greatest rank among the elements of `l` under its key `k`. -/
structure IsLatest (l : List α) (k : κ) (a : α) : Prop where
  mem : a ∈ l
  key_eq : key a = k
  rank_le : ∀ b ∈ l, key b = k → rank b ≤ rank a

variable {key rank}

theorem keepLatest_of_ne (latest : κ → Option α) (h : key a ≠ k) :
    keepLatest key rank latest a k = latest k := by
  cases hcurrent : latest (key a) with
  | none =>
    simp only [keepLatest, hcurrent]
    exact Function.update_of_ne (Ne.symm h) _ _
  | some current =>
    simp only [keepLatest, hcurrent]
    split_ifs
    · exact Function.update_of_ne (Ne.symm h) _ _
    · rfl

/-- What the loop holds under a key: nothing when it has seen no element with that key, else one of
greatest rank. -/
theorem latestBy_cases (l : List α) (k : κ) :
    (latestBy key rank l k = none ∧ ∀ a ∈ l, key a ≠ k) ∨
      ∃ a, latestBy key rank l k = some a ∧ IsLatest key rank l k a := by
  induction l using List.reverseRecOn with
  | nil => exact .inl ⟨rfl, by simp⟩
  | append_singleton l b ih =>
    have hsnoc : latestBy key rank (l ++ [b]) = keepLatest key rank (latestBy key rank l) b := by
      simp only [latestBy, List.foldl_append, List.foldl_cons, List.foldl_nil]
    rw [hsnoc]
    by_cases hb : key b = k
    · right
      subst hb
      rcases ih with ⟨hnone, hne⟩ | ⟨a, hsome, ha⟩
      · refine ⟨b, ?_, by simp, rfl, ?_⟩
        · simp only [keepLatest, hnone, Function.update_self]
        · intro c hc hck
          rcases List.mem_append.mp hc with hc | hc
          · exact absurd hck (hne c hc)
          · rw [List.mem_singleton.mp hc]
      · by_cases hlt : rank a < rank b
        · refine ⟨b, ?_, by simp, rfl, ?_⟩
          · simp only [keepLatest, hsome, if_pos hlt, Function.update_self]
          · intro c hc hck
            rcases List.mem_append.mp hc with hc | hc
            · exact (ha.rank_le c hc hck).trans hlt.le
            · rw [List.mem_singleton.mp hc]
        · refine ⟨a, ?_, by simp [ha.mem], ha.key_eq, ?_⟩
          · simp only [keepLatest, hsome, if_neg hlt]
          · intro c hc hck
            rcases List.mem_append.mp hc with hc | hc
            · exact ha.rank_le c hc hck
            · rw [List.mem_singleton.mp hc]
              exact not_lt.mp hlt
    · rw [keepLatest_of_ne _ hb]
      rcases ih with ⟨hnone, hne⟩ | ⟨a, hsome, ha⟩
      · refine .inl ⟨hnone, ?_⟩
        intro c hc
        rcases List.mem_append.mp hc with hc | hc
        · exact hne c hc
        · rwa [List.mem_singleton.mp hc]
      · refine .inr ⟨a, hsome, by simp [ha.mem], ha.key_eq, ?_⟩
        intro c hc hck
        rcases List.mem_append.mp hc with hc | hc
        · exact ha.rank_le c hc hck
        · exact absurd (List.mem_singleton.mp hc ▸ hck) hb

theorem latestBy_eq_none :
    latestBy key rank l k = none ↔ ∀ a ∈ l, key a ≠ k := by
  rcases @latestBy_cases _ _ _ _ _ key rank l k with ⟨hnone, hne⟩ | ⟨a, hsome, ha⟩
  · exact ⟨fun _ => hne, fun _ => hnone⟩
  · constructor
    · intro h
      rw [hsome] at h
      cases h
    · intro h
      exact absurd ha.key_eq (h a ha.mem)

theorem isLatest_of_latestBy (h : latestBy key rank l k = some a) :
    IsLatest key rank l k a := by
  rcases @latestBy_cases _ _ _ _ _ key rank l k with ⟨hnone, _⟩ | ⟨b, hsome, hb⟩
  · rw [h] at hnone
    cases hnone
  · rw [h] at hsome
    cases hsome
    exact hb

theorem IsLatest.latestBy_eq (h : IsLatest key rank l k a)
    (hrank : ∀ x ∈ l, ∀ y ∈ l, rank x = rank y → x = y) : latestBy key rank l k = some a := by
  rcases @latestBy_cases _ _ _ _ _ key rank l k with ⟨_, hne⟩ | ⟨b, hsome, hb⟩
  · exact absurd h.key_eq (hne a h.mem)
  · have hle := h.rank_le b hb.mem hb.key_eq
    have hge := hb.rank_le a h.mem h.key_eq
    rw [hsome, hrank b hb.mem a h.mem (le_antisymm hle hge)]

theorem latestBy_perm {l l' : List α} (hperm : l.Perm l')
    (hrank : ∀ x ∈ l, ∀ y ∈ l, rank x = rank y → x = y) :
    latestBy key rank l = latestBy key rank l' := by
  funext k
  cases h : latestBy key rank l' k with
  | none =>
    rw [latestBy_eq_none] at h ⊢
    exact fun a ha => h a (hperm.mem_iff.mp ha)
  | some a =>
    have ha := isLatest_of_latestBy h
    have ha' : IsLatest key rank l k a :=
      ⟨hperm.mem_iff.mpr ha.mem, ha.key_eq, fun b hb => ha.rank_le b (hperm.mem_iff.mp hb)⟩
    exact ha'.latestBy_eq hrank

end latest

/-! ### Lookup by key -/

section lookup
variable [DecidableEq κ] {key : α → κ}

theorem find?_key_eq_some (h : (l.map key).Nodup) (ha : a ∈ l) :
    (l.find? fun b => key b = key a) = some a := by
  induction l with
  | nil => simp at ha
  | cons b l ih =>
    obtain ⟨hb, hl⟩ := List.nodup_cons.mp h
    rcases List.mem_cons.mp ha with rfl | hal
    · simp
    · have hne : key b ≠ key a := fun heq => hb (heq ▸ List.mem_map_of_mem hal)
      simp [hne, ih hl hal]

theorem filter_key_eq_singleton (h : (l.map key).Nodup) (ha : a ∈ l) :
    (l.filter fun b => key b = key a) = [a] := by
  induction l with
  | nil => simp at ha
  | cons b l ih =>
    obtain ⟨hb, hl⟩ := List.nodup_cons.mp h
    by_cases heq : key b = key a
    · have hnone : (l.filter fun c => key c = key a) = [] := by
        rw [List.filter_eq_nil_iff]
        intro c hc hkey
        exact hb (heq.trans (of_decide_eq_true hkey).symm ▸ List.mem_map_of_mem hc)
      have hsame : b = a := List.inj_on_of_nodup_map h List.mem_cons_self ha heq
      rw [List.filter_cons_of_pos (by simpa using heq), hnone, hsame]
    · have hal : a ∈ l := (List.mem_cons.mp ha).resolve_left fun hab => heq (hab ▸ rfl)
      rw [List.filter_cons_of_neg (by simpa using heq), ih hl hal]

theorem find?_filterMap_key {f : κ → Option α} (hf : ∀ k a, f k = some a → key a = k) {l : List κ} :
    ((l.filterMap f).find? fun a => key a = k) = if k ∈ l then f k else none := by
  induction l with
  | nil => rfl
  | cons b l ih =>
    cases hb : f b with
    | none =>
      rw [List.filterMap_cons_none hb, ih]
      by_cases hk : k = b
      · subst hk
        simp [hb]
      · simp [hk]
    | some a =>
      have hkey := hf b a hb
      rw [List.filterMap_cons_some hb]
      by_cases hk : k = b
      · subst hk
        simp [hkey, hb]
      · simp [hkey, hk, Ne.symm hk, ih]

end lookup

/-! ### Sorted sets -/

section sorted
variable [LinearOrder α] {l l' : List α}

theorem sortBy_id_eq_of_perm (h : l.Perm l') : sortBy id l = sortBy id l' := by
  have hsorted : ∀ l : List α, (sortBy id l).Pairwise (· ≤ ·) := fun l => pairwise_sortBy
  refine ((perm_sortBy.trans h).trans perm_sortBy.symm).eq_of_pairwise ?_ (hsorted l) (hsorted l')
  intro a b _ _ hab hba
  exact le_antisymm hab hba

/-- `sorted(set(l))`. -/
def sortedSet (l : List α) : List α := sortBy id l.dedup

@[simp] theorem mem_sortedSet : a ∈ sortedSet l ↔ a ∈ l := by
  simp [sortedSet]

theorem sortedSet_congr (h : ∀ a, a ∈ l ↔ a ∈ l') : sortedSet l = sortedSet l' := by
  have hperm : l.dedup.Perm l'.dedup := by
    refine (List.perm_ext_iff_of_nodup (List.nodup_dedup l) (List.nodup_dedup l')).mpr ?_
    intro a
    simp [h a]
  exact sortBy_id_eq_of_perm hperm

theorem length_sortedSet_le (h : l ⊆ l') : (sortedSet l).length ≤ l'.dedup.length := by
  have hperm : (sortedSet l).Perm l.dedup := perm_sortBy
  rw [hperm.length_eq]
  apply List.Subperm.length_le
  apply List.subperm_of_subset (List.nodup_dedup l)
  intro a ha
  exact List.mem_dedup.mpr (h (List.mem_dedup.mp ha))

/-- The elements of a finite set in increasing order. -/
def sorted (s : Finset α) : List α :=
  Quot.liftOn s.val (sortBy id) fun _ _ h => sortBy_id_eq_of_perm h

theorem sorted_eq (s : Finset α) : (sorted s : Multiset α) = s.val := by
  obtain ⟨⟨l⟩, hl⟩ := s
  exact Quot.sound perm_sortBy

@[simp] theorem mem_sorted {s : Finset α} : a ∈ sorted s ↔ a ∈ s := by
  rw [← Multiset.mem_coe, sorted_eq, Finset.mem_val]

theorem nodup_sorted (s : Finset α) : (sorted s).Nodup := by
  rw [← Multiset.coe_nodup, sorted_eq]
  exact s.nodup

theorem length_sorted (s : Finset α) : (sorted s).length = s.card := by
  rw [← Multiset.coe_card, sorted_eq, Finset.card_val]

theorem count_sorted (s : Finset α) (a : α) : (sorted s).count a = if a ∈ s then 1 else 0 := by
  rw [List.Nodup.count (nodup_sorted s)]
  simp only [mem_sorted]

theorem pairwise_sorted (s : Finset α) : (sorted s).Pairwise (· < ·) := by
  have hle : (sorted s).Pairwise (· ≤ ·) := by
    obtain ⟨⟨l⟩, hl⟩ := s
    exact pairwise_sortBy
  exact (hle.and (nodup_sorted s)).imp fun h => lt_of_le_of_ne h.1 h.2

/-- **The first elements of a sorted set** are those with few smaller ones. -/
theorem mem_take_sorted {s : Finset α} {n : ℕ} {x : α} :
    x ∈ (sorted s).take n ↔ x ∈ s ∧ (s.filter (· < x)).card < n := by
  have hcard : ((sorted s).filter (· < x)).length = (s.filter (· < x)).card := by
    rw [← Multiset.coe_card, ← Multiset.filter_coe, sorted_eq]
    rfl
  constructor
  · intro hx
    have hmem := List.mem_of_mem_take hx
    rw [← hcard]
    exact ⟨mem_sorted.mp hmem, (mem_take_of_pairwise_lt (pairwise_sorted s) hmem n).mp hx⟩
  · rintro ⟨hx, hn⟩
    rw [← hcard] at hn
    exact (mem_take_of_pairwise_lt (pairwise_sorted s) (mem_sorted.mpr hx) n).mpr hn

end sorted

end CyberControl.Collections
