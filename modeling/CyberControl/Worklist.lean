import Mathlib.Data.Finset.Card

/-! # Closure by a worklist

A queue of discovered nodes, each of which is expanded once: `next k` lists what is discovered from
`k`.  Within a finite set of nodes that `next` does not leave, the loop ends with an empty queue and has
discovered exactly the nodes reached from the first ones (`mem_loop_iff`). -/

namespace CyberControl.Worklist

open Relation

variable {K : Type*} [DecidableEq K]

/-- The nodes discovered so far and those still to be expanded. -/
structure State (K : Type*) where
  selected : Finset K
  queue : List K

def discover (s : State K) (k : K) : State K :=
  if k ∈ s.selected then s else ⟨insert k s.selected, s.queue ++ [k]⟩

/-- Expand the nodes of the queue, at most `fuel` of them. -/
def loop (next : K → List K) : ℕ → State K → State K
  | 0, s => s
  | fuel + 1, s =>
    match s.queue with
    | [] => s
    | current :: queue => loop next fuel ((next current).foldl discover { s with queue := queue })

variable {next : K → List K}

theorem foldl_discover (ks : List K) (s : State K) :
    ∃ fresh : List K, (ks.foldl discover s).queue = s.queue ++ fresh ∧
      (∀ x, x ∈ (ks.foldl discover s).selected ↔ x ∈ s.selected ∨ x ∈ ks) ∧
      (∀ x, x ∈ (ks.foldl discover s).selected ↔ x ∈ s.selected ∨ x ∈ fresh) ∧
      (ks.foldl discover s).selected.card = s.selected.card + fresh.length := by
  induction ks generalizing s with
  | nil => exact ⟨[], by simp⟩
  | cons k ks ih =>
    obtain ⟨fresh, hqueue, hks, hfresh, hcard⟩ := ih (discover s k)
    rw [List.foldl_cons]
    by_cases hk : k ∈ s.selected
    · have hsame : discover s k = s := if_pos hk
      rw [hsame] at hqueue hks hfresh hcard ⊢
      refine ⟨fresh, hqueue, fun x => ?_, hfresh, hcard⟩
      rw [hks, List.mem_cons]
      constructor
      · rintro (h | h)
        · exact .inl h
        · exact .inr (.inr h)
      · rintro (h | rfl | h)
        · exact .inl h
        · exact .inl hk
        · exact .inr h
    · have hnew : discover s k = ⟨insert k s.selected, s.queue ++ [k]⟩ := if_neg hk
      rw [hnew] at hqueue hks hfresh hcard ⊢
      refine ⟨k :: fresh, ?_, fun x => ?_, fun x => ?_, ?_⟩
      · rw [hqueue, List.append_assoc]
        rfl
      · rw [hks, Finset.mem_insert, List.mem_cons, or_assoc, or_left_comm]
      · rw [hfresh, Finset.mem_insert, List.mem_cons, or_assoc, or_left_comm]
      · rw [hcard, Finset.card_insert_of_notMem hk, List.length_cons]
        omega

variable (next) in
/-- What every turn preserves. -/
structure Inv (nodes start : Finset K) (s : State K) : Prop where
  start_subset : start ⊆ s.selected
  subset_universe : s.selected ⊆ nodes
  queue_subset : ∀ x ∈ s.queue, x ∈ s.selected
  reached : ∀ x ∈ s.selected, ∃ t ∈ start, ReflTransGen (fun a b => b ∈ next a) t x
  expanded : ∀ x ∈ s.selected, x ∉ s.queue → ∀ y ∈ next x, y ∈ s.selected

namespace Inv
variable {nodes start : Finset K} {s : State K}

theorem expand (hclosed : ∀ x ∈ nodes, ∀ y ∈ next x, y ∈ nodes)
    (hs : Inv next nodes start s) {current : K} {queue : List K}
    (hqueue : s.queue = current :: queue) :
    Inv next nodes start ((next current).foldl discover { s with queue := queue }) := by
  obtain ⟨fresh, hfreshQueue, hnext, hfresh, -⟩ := foldl_discover (next current) { s with queue := queue }
  have hcurrent : current ∈ s.selected := hs.queue_subset current (by simp [hqueue])
  refine ⟨fun x hx => ?_, fun x hx => ?_, fun x hx => ?_, fun x hx => ?_, fun x hx hnot y hy => ?_⟩
  · exact (hnext x).mpr (.inl (hs.start_subset hx))
  · rcases (hnext x).mp hx with hx | hx
    · exact hs.subset_universe hx
    · exact hclosed current (hs.subset_universe hcurrent) x hx
  · rw [hfreshQueue] at hx
    rcases List.mem_append.mp hx with hx | hx
    · exact (hfresh x).mpr (.inl (hs.queue_subset x (by simp_all)))
    · exact (hfresh x).mpr (.inr hx)
  · rcases (hnext x).mp hx with hx | hx
    · exact hs.reached x hx
    · obtain ⟨t, ht, hreach⟩ := hs.reached current hcurrent
      exact ⟨t, ht, hreach.tail hx⟩
  · rw [hfreshQueue] at hnot
    by_cases hxc : x = current
    · exact (hnext y).mpr (.inr (hxc ▸ hy))
    · rcases (hfresh x).mp hx with hx | hx
      · have hxQueue : x ∉ s.queue := by
          rw [hqueue, List.mem_cons]
          rintro (h | h)
          · exact hxc h
          · exact hnot (List.mem_append_left _ h)
        exact (hnext y).mpr (.inl (hs.expanded x hx hxQueue y hy))
      · exact absurd (List.mem_append_right _ hx) hnot

theorem loop_spec (hclosed : ∀ x ∈ nodes, ∀ y ∈ next x, y ∈ nodes) (fuel : ℕ)
    (hs : Inv next nodes start s)
    (hfuel : nodes.card + s.queue.length ≤ s.selected.card + fuel) :
    Inv next nodes start (loop next fuel s) ∧ (loop next fuel s).queue = [] := by
  induction fuel generalizing s with
  | zero =>
    have hle := Finset.card_le_card hs.subset_universe
    exact ⟨hs, List.eq_nil_of_length_eq_zero (by rw [loop]; omega)⟩
  | succ fuel ih =>
    rw [loop]
    cases hqueue : s.queue with
    | nil => exact ⟨hs, hqueue⟩
    | cons current queue =>
      refine ih (hs.expand hclosed hqueue) ?_
      obtain ⟨fresh, hfreshQueue, -, -, hcard⟩ :=
        foldl_discover (next current) { s with queue := queue }
      rw [hfreshQueue, hcard, List.length_append]
      rw [hqueue, List.length_cons] at hfuel
      show _ ≤ s.selected.card + _ + _
      simp only
      omega

omit [DecidableEq K] in
theorem mem_iff (hs : Inv next nodes start s) (hqueue : s.queue = []) (x : K) :
    x ∈ s.selected ↔ ∃ t ∈ start, ReflTransGen (fun a b => b ∈ next a) t x := by
  refine ⟨hs.reached x, ?_⟩
  rintro ⟨t, ht, hreach⟩
  induction hreach with
  | refl => exact hs.start_subset ht
  | tail _ hbc ih => exact hs.expanded _ ih (by simp [hqueue]) _ hbc

end Inv

/-- **The loop discovers what the first nodes reach.** -/
theorem mem_loop_iff {nodes start : Finset K} {queue : List K}
    (hclosed : ∀ x ∈ nodes, ∀ y ∈ next x, y ∈ nodes) (hstart : start ⊆ nodes)
    (hmem : ∀ x, x ∈ queue ↔ x ∈ start) (hlen : queue.length = start.card) (x : K) :
    x ∈ (loop next nodes.card ⟨start, queue⟩).selected ↔
      ∃ t ∈ start, ReflTransGen (fun a b => b ∈ next a) t x := by
  have hinv : Inv next nodes start ⟨start, queue⟩ :=
    ⟨fun x hx => hx, hstart, fun x => (hmem x).mp, fun x hx => ⟨x, hx, .refl⟩,
      fun x hx hnot => absurd ((hmem x).mpr hx) hnot⟩
  obtain ⟨hend, hempty⟩ := hinv.loop_spec hclosed nodes.card (by simp [hlen, Nat.add_comm])
  exact hend.mem_iff hempty x

end CyberControl.Worklist
