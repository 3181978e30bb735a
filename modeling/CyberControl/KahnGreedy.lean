import CyberControl.Kahn
import Mathlib.Data.Set.Card
import Mathlib.Data.Set.Finite.Lemmas

/-! # What a heap puts first

A topological order in which each node has the least key of those that could have stood in its place. -/

namespace CyberControl.Kahn

open Relation

variable {K κ : Type*} [LinearOrder κ]

/-! ### The order of the loop -/

section loop
variable [DecidableEq K] {successors : K → List K} {key : K → κ} {nodes : Finset K} {s t : State K}

/-- Of the nodes whose predecessors stand before `c`, none that stands after `c` has a smaller key. -/
def Least (successors : K → List K) (key : K → κ) (nodes : Finset K) (order : List K) : Prop :=
  ∀ c ∈ order, ∀ z ∈ nodes, order.idxOf c < order.idxOf z →
    (∀ u ∈ nodes, z ∈ successors u → order.idxOf u < order.idxOf c) → key c ≤ key z

theorem popLeast_le {l rest : List K} {c : K} (h : popLeast key l = some (c, rest)) {z : K} (hz : z ∈ l) :
    key c ≤ key z := by
  obtain ⟨a, ha, heq⟩ := Option.map_eq_some_iff.mp h
  cases heq
  exact List.le_of_mem_argmin hz ha

theorem Least.append (hs : Inv successors nodes s) (h : Least successors key nodes s.order) {c : K}
    (hc : c ∈ s.ready) (hleast : ∀ z ∈ s.ready, key c ≤ key z) :
    Least successors key nodes (s.order ++ [c]) := by
  have hcnew : c ∉ s.order := fun hmem => (List.nodup_append.mp hs.nodup).2.2 c hmem c hc rfl
  intro d hd z hz hlt hbefore
  by_cases hdold : d ∈ s.order
  · have hposition : (s.order ++ [c]).idxOf d = s.order.idxOf d := List.idxOf_append_of_mem hdold
    have hlength := List.idxOf_lt_length_of_mem hdold
    rw [hposition] at hlt hbefore
    refine h d hdold z hz ?_ fun u hu huz => ?_
    · by_cases hzold : z ∈ s.order
      · rwa [List.idxOf_append_of_mem hzold] at hlt
      · rw [List.idxOf_eq_length hzold]
        exact hlength
    · have hless := hbefore u hu huz
      by_cases huold : u ∈ s.order
      · rwa [List.idxOf_append_of_mem huold] at hless
      · rw [List.idxOf_append_of_notMem huold] at hless
        omega
  · have hdc : d = c := by simpa [hdold] using hd
    rw [hdc, List.idxOf_append_of_notMem hcnew, List.idxOf_cons_self, Nat.add_zero] at hlt hbefore
    rw [hdc]
    have hznew : z ∉ s.order := by
      intro hzold
      rw [List.idxOf_append_of_mem hzold] at hlt
      have hlength := List.idxOf_lt_length_of_mem hzold
      omega
    have hzero : edgesInto successors (nodes \ s.order.toFinset) z = 0 := by
      refine edgesInto_eq_zero.mpr fun u hu huz => ?_
      obtain ⟨hu, hunew⟩ := Finset.mem_sdiff.mp hu
      have hless := hbefore u hu huz
      rw [List.idxOf_append_of_notMem fun huold => hunew (List.mem_toFinset.mpr huold)] at hless
      omega
    have hready : z ∈ s.order ++ s.ready := by
      refine (hs.mem z).mpr ⟨hz, ?_⟩
      rw [hs.indegree z, hzero]
      rfl
    exact hleast z ((List.mem_append.mp hready).resolve_left hznew)

/-- **The loop with a heap** puts the least ready node first. -/
theorem least_loop (hclosed : ∀ u ∈ nodes, ∀ v ∈ successors u, v ∈ nodes) (fuel : ℕ)
    (hs : Inv successors nodes s) (h : Least successors key nodes s.order) :
    Least successors key nodes (loop successors (popLeast key) fuel s).order := by
  induction fuel generalizing s with
  | zero => exact h
  | succ fuel ih =>
    rw [loop]
    cases hstep : Kahn.step successors (popLeast key) s with
    | none => exact h
    | some t =>
      obtain ⟨ht, -⟩ := hs.step (pops_popLeast key) hclosed hstep
      apply ih ht
      obtain ⟨⟨c, rest⟩, hpop, rfl⟩ := Option.map_eq_some_iff.mp hstep
      have hc : c ∈ s.ready := ((pops_popLeast key).perm _ _ _ hpop).mem_iff.mpr List.mem_cons_self
      rw [foldl_release_order]
      exact h.append hs hc fun z hz => popLeast_le hpop hz

end loop

/-! ### Greedy orders -/

/-- Positions in a topological order in which each node has the least key of those that could stand there. -/
structure Greedy (r : K → K → Prop) (key : K → κ) (nodes : Set K) (position : K → ℕ) : Prop where
  ends : ∀ u v, r u v → u ∈ nodes ∧ v ∈ nodes
  apart : ∀ u ∈ nodes, ∀ v ∈ nodes, position u = position v → u = v
  forward : ∀ u v, r u v → position u < position v
  least : ∀ c ∈ nodes, ∀ z ∈ nodes, position c < position z → (∀ u, r u z → position u < position c) →
    key c ≤ key z

/-- The bottlenecks of a set: an element of the greatest key, and the bottlenecks of what it leads to. -/
inductive Bottlenecks (r : K → K → Prop) (key : K → κ) : Set K → List K → Prop
  | nil : Bottlenecks r key ∅ []
  | cons {s : Set K} {b : K} {l : List K} (hb : b ∈ s) (hmax : ∀ w ∈ s, key w ≤ key b)
      (hrest : Bottlenecks r key {w | w ∈ s ∧ TransGen r b w} l) : Bottlenecks r key s (b :: l)

/-- The nodes that lead to `x`, apart from the favoured ones, from a position on. -/
def Waiting (r : K → K → Prop) (favoured : K → Prop) (position : K → ℕ) (start : ℕ) (x : K) : Set K :=
  {w | ¬ favoured w ∧ TransGen r w x ∧ start ≤ position w}

variable {r : K → K → Prop} {key : K → κ} {nodes : Set K} {position : K → ℕ} {favoured : K → Prop} {s : Set K}

theorem Bottlenecks.of_nil (h : Bottlenecks r key s []) : s = ∅ := by
  cases h
  rfl

theorem Bottlenecks.of_cons {b : K} {l : List K} (h : Bottlenecks r key s (b :: l)) :
    b ∈ s ∧ (∀ w ∈ s, key w ≤ key b) ∧ Bottlenecks r key {w | w ∈ s ∧ TransGen r b w} l := by
  cases h with
  | cons hb hmax hrest => exact ⟨hb, hmax, hrest⟩

theorem exists_bottlenecks (hacyclic : Digraph.Acyclic r) (hs : s.Finite) :
    ∃ l, Bottlenecks r key s l := by
  induction hn : s.ncard using Nat.strong_induction_on generalizing s with
  | _ n ih =>
    by_cases hempty : s = ∅
    · exact ⟨[], hempty ▸ .nil⟩
    · obtain ⟨b, hb, hmax⟩ := Set.exists_max_image s key hs (Set.nonempty_iff_ne_empty.mpr hempty)
      have hsub : {w | w ∈ s ∧ TransGen r b w} ⊂ s := by
        refine ⟨fun w hw => hw.1, fun hall => hacyclic b (hall hb).2⟩
      obtain ⟨l, hl⟩ := ih _ (hn ▸ Set.ncard_lt_ncard hsub hs) (hs.subset hsub.subset) rfl
      exact ⟨b :: l, .cons hb hmax hl⟩

namespace Greedy

theorem forward_of_transGen (h : Greedy r key nodes position) {u v : K} (huv : TransGen r u v) :
    position u < position v := by
  induction huv with
  | single huv => exact h.forward _ _ huv
  | tail _ hvw ih => exact ih.trans (h.forward _ _ hvw)

theorem mem_nodes (h : Greedy r key nodes position) {u v : K} (huv : TransGen r u v) :
    u ∈ nodes ∧ v ∈ nodes := by
  obtain ⟨w, huw, -⟩ := TransGen.head'_iff.mp huv
  obtain ⟨w', -, hwv⟩ := TransGen.tail'_iff.mp huv
  exact ⟨(h.ends u w huw).1, (h.ends w' v hwv).2⟩

/-- Something that leads to `x` could have stood in the place of `c`. -/
theorem exists_later (h : Greedy r key nodes position) {c x : K} (hc : c ∈ nodes) (hx : x ∈ nodes)
    (hlt : position c < position x) (hapart : ¬ TransGen r c x) :
    ∃ z, (z = x ∨ TransGen r z x) ∧ position c < position z ∧ key c ≤ key z := by
  induction hn : position x using Nat.strong_induction_on generalizing x with
  | _ n ih =>
    by_cases hready : ∀ u, r u x → position u < position c
    · exact ⟨x, .inl rfl, hlt, h.least c hc x hx hlt hready⟩
    · push Not at hready
      obtain ⟨u, hux, hcu⟩ := hready
      have hu := (h.ends u x hux).1
      have hne : position c ≠ position u := by
        intro heq
        rw [h.apart c hc u hu heq] at hapart
        exact hapart (.single hux)
      obtain ⟨z, hzu, hcz, hkey⟩ := ih _ (hn ▸ h.forward u x hux) hu (by omega)
        (fun hcu => hapart (hcu.tail hux)) rfl
      refine ⟨z, .inr ?_, hcz, hkey⟩
      cases hzu with
      | inl heq => exact heq ▸ .single hux
      | inr hzu => exact hzu.tail hux

variable (hfavoured : ∀ a b, favoured a → ¬ favoured b → key a < key b)

include hfavoured

variable {start : ℕ}

theorem waiting_after (h : Greedy r key nodes position) (hkey : Function.Injective key) {x b : K}
    (hb : b ∈ Waiting r favoured position start x) (hmax : ∀ w ∈ Waiting r favoured position start x,
    key w ≤ key b) :
    {w | w ∈ Waiting r favoured position start x ∧ TransGen r b w}
      = Waiting r favoured position (position b + 1) x := by
  obtain ⟨hbother, hbx, hbstart⟩ := hb
  ext w
  constructor
  · rintro ⟨⟨hwother, hwx, -⟩, hbw⟩
    exact ⟨hwother, hwx, h.forward_of_transGen hbw⟩
  · rintro ⟨hwother, hwx, hbw⟩
    refine ⟨⟨hwother, hwx, by omega⟩, ?_⟩
    by_contra hapart
    obtain ⟨z, hzw, hbz, hle⟩ := h.exists_later (h.mem_nodes hbx).1 (h.mem_nodes hwx).1 (by omega) hapart
    have hzx : TransGen r z x := by
      cases hzw with
      | inl heq => exact heq ▸ hwx
      | inr hzw => exact hzw.trans hwx
    have hzother : ¬ favoured z := fun hz => absurd (hfavoured z b hz hbother) (not_lt.mpr hle)
    have hzb := hmax z ⟨hzother, hzx, by omega⟩
    have hsame : z = b := hkey (le_antisymm hzb hle)
    rw [hsame] at hbz
    exact lt_irrefl _ hbz

/-- A favoured node comes before a node that is greater than all that is waiting for it. -/
theorem before_of_key_lt (h : Greedy r key nodes position) {x b : K} (hx : x ∈ nodes)
    (hxfavoured : favoured x) (hb : b ∈ nodes) (hbother : ¬ favoured b) (hstart : start ≤ position b)
    (hless : ∀ w ∈ Waiting r favoured position start x, key w < key b) : position x < position b := by
  by_contra hnot
  have hne : position b ≠ position x := by
    intro heq
    exact hbother (h.apart b hb x hx heq ▸ hxfavoured)
  have hapart : ¬ TransGen r b x := fun hbx => lt_irrefl _ (hless b ⟨hbother, hbx, hstart⟩)
  obtain ⟨z, hzx, hbz, hle⟩ := h.exists_later hb hx (by omega) hapart
  have hzother : ¬ favoured z := fun hz => absurd (hfavoured z b hz hbother) (not_lt.mpr hle)
  cases hzx with
  | inl heq => exact hzother (heq ▸ hxfavoured)
  | inr hzx => exact absurd (hless z ⟨hzother, hzx, by omega⟩) (not_lt.mpr hle)

/-- **Smaller bottlenecks come first.** -/
theorem before_of_lt (h : Greedy r key nodes position) (hkey : Function.Injective key) {x y : K}
    (hx : x ∈ nodes) (hxfavoured : favoured x) {lx ly : List K}
    (hlx : Bottlenecks r key (Waiting r favoured position start x) lx)
    (hly : Bottlenecks r key (Waiting r favoured position start y) ly)
    (hlt : lx.map key < ly.map key) : position x < position y := by
  induction lx generalizing start ly with
  | nil =>
    have hnone := hlx.of_nil
    cases ly with
    | nil => exact absurd hlt (lt_irrefl _)
    | cons b ly =>
      obtain ⟨⟨hbother, hby, hbstart⟩, -, -⟩ := hly.of_cons
      refine lt_trans ?_ (h.forward_of_transGen hby)
      refine h.before_of_key_lt hfavoured hx hxfavoured (h.mem_nodes hby).1 hbother hbstart fun w hw => ?_
      rw [hnone] at hw
      exact absurd hw (Set.notMem_empty w)
  | cons a lx ih =>
    obtain ⟨ha, hamax, harest⟩ := hlx.of_cons
    cases ly with
    | nil => exact absurd hlt (List.not_lt_nil _)
    | cons b ly =>
      obtain ⟨hb, hbmax, hbrest⟩ := hly.of_cons
      cases List.cons_lt_cons_iff.mp hlt with
      | inl hless =>
        refine lt_trans ?_ (h.forward_of_transGen hb.2.1)
        refine h.before_of_key_lt hfavoured hx hxfavoured (h.mem_nodes hb.2.1).1 hb.1 hb.2.2 ?_
        exact fun w hw => lt_of_le_of_lt (hamax w hw) hless
      | inr hrest =>
        obtain ⟨heq, hrest⟩ := hrest
        have hab := hkey heq
        rw [hab] at ha hamax harest
        rw [h.waiting_after hfavoured hkey ha hamax] at harest
        rw [h.waiting_after hfavoured hkey hb hbmax] at hbrest
        exact ih harest hbrest hrest

/-- **Of the same bottlenecks, the favoured node with the smaller key comes first.** -/
theorem before_of_not_lt (h : Greedy r key nodes position) (hkey : Function.Injective key) {x y : K}
    (hx : x ∈ nodes) (hxfavoured : favoured x) (hy : y ∈ nodes) (hxy : key x < key y)
    (hbefore : ∀ z, favoured z → TransGen r z x → key z ≤ key x) (hapart : ¬ TransGen r y x)
    (hstart : start ≤ position y) {lx ly : List K}
    (hlx : Bottlenecks r key (Waiting r favoured position start x) lx)
    (hly : Bottlenecks r key (Waiting r favoured position start y) ly)
    (hlt : ¬ ly.map key < lx.map key) : position x < position y := by
  induction lx generalizing start ly with
  | nil =>
    have hnone := hlx.of_nil
    cases ly with
    | nil =>
      by_contra hnot
      have hne : position y ≠ position x := by
        intro heq
        rw [h.apart y hy x hx heq] at hxy
        exact lt_irrefl _ hxy
      obtain ⟨z, hzx, hyz, hle⟩ := h.exists_later hy hx (by omega) hapart
      cases hzx with
      | inl heq => exact absurd hxy (not_lt.mpr (heq ▸ hle))
      | inr hzx =>
        by_cases hz : favoured z
        · exact absurd hxy (not_lt.mpr (hle.trans (hbefore z hz hzx)))
        · have hmem : z ∈ Waiting r favoured position start x := ⟨hz, hzx, by omega⟩
          rw [hnone] at hmem
          exact absurd hmem (Set.notMem_empty z)
    | cons b ly => exact h.before_of_lt hfavoured hkey hx hxfavoured hlx hly (List.nil_lt_cons _ _)
  | cons a lx ih =>
    obtain ⟨ha, hamax, harest⟩ := hlx.of_cons
    cases ly with
    | nil => exact absurd (List.nil_lt_cons _ _) hlt
    | cons b ly =>
      obtain ⟨hb, hbmax, hbrest⟩ := hly.of_cons
      simp only [List.map_cons, List.cons_lt_cons_iff, not_or, not_and] at hlt
      cases lt_or_eq_of_le (not_lt.mp hlt.1) with
      | inl hless =>
        exact h.before_of_lt hfavoured hkey hx hxfavoured hlx hly
          (List.cons_lt_cons_iff.mpr (.inl hless))
      | inr heq =>
        have hab := hkey heq
        rw [hab] at ha hamax harest
        rw [h.waiting_after hfavoured hkey ha hamax] at harest
        rw [h.waiting_after hfavoured hkey hb hbmax] at hbrest
        exact ih (h.forward_of_transGen hb.2.1) harest hbrest (hlt.2 heq.symm)

end Greedy

end CyberControl.Kahn
