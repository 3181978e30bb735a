import Mathlib.Data.List.Dedup
import Mathlib.Data.List.Sort

/-! # Ordered windows, groups and round robin

Three list algorithms of dispatchers that pick work out of many queues. -/

namespace CyberControl.Scheduling

variable {α κ : Type*}

/-! ### Windows of a sorted list -/

variable {a : α}

section window
variable [LinearOrder κ] (key : α → κ)

/-- Stable sort by a key. -/
def sortBy (l : List α) : List α := l.insertionSort fun a b => key a ≤ key b

variable {key} {l : List α}

@[simp] theorem mem_sortBy : a ∈ sortBy key l ↔ a ∈ l := List.mem_insertionSort _

theorem perm_sortBy : (sortBy key l).Perm l := List.perm_insertionSort _ l

theorem pairwise_sortBy : (sortBy key l).Pairwise fun a b => key a ≤ key b := by
  have : Std.Total fun a b => key a ≤ key b := ⟨fun a b => le_total (key a) (key b)⟩
  have : IsTrans α fun a b => key a ≤ key b := ⟨fun _ _ _ => le_trans⟩
  exact List.pairwise_insertionSort _ l

theorem pairwise_lt_sortBy (h : (l.map key).Nodup) :
    (sortBy key l).Pairwise fun a b => key a < key b := by
  have hnodup : ((sortBy key l).map key).Nodup := (perm_sortBy.map key).nodup_iff.mpr h
  have hne : (sortBy key l).Pairwise fun a b => key a ≠ key b := List.pairwise_map.mp hnodup
  exact pairwise_sortBy.imp₂ (fun _ _ hle hne => lt_of_le_of_ne hle hne) hne

theorem sortBy_eq_of_perm {l' : List α} (hperm : l.Perm l') (h : (l.map key).Nodup) :
    sortBy key l = sortBy key l' := by
  have hl' : (l'.map key).Nodup := (hperm.map key).nodup_iff.mp h
  refine ((perm_sortBy.trans hperm).trans perm_sortBy.symm).eq_of_pairwise ?_
    (pairwise_lt_sortBy h) (pairwise_lt_sortBy hl')
  intro a b _ _ hab hba
  exact absurd hab hba.asymm

/-- Sorting by the position of the key in a list puts the keys in the order of that list. -/
theorem map_sortBy_idxOf {γ : Type*} [DecidableEq γ] (label : α → γ) {labels : List γ} (h : labels.Nodup)
    (hperm : (l.map label).Perm labels) :
    (sortBy (fun a => labels.idxOf (label a)) l).map label = labels := by
  have hnodup : (l.map label).Nodup := hperm.nodup_iff.mpr h
  have hkeys : (l.map fun a => labels.idxOf (label a)).Nodup := by
    refine (List.Nodup.of_map label hnodup).map_on fun a ha b hb hab => ?_
    have hmem : label a ∈ labels := hperm.mem_iff.mp (List.mem_map_of_mem ha)
    exact List.inj_on_of_nodup_map hnodup ha hb ((List.idxOf_inj hmem).mp hab)
  have hsorted : ((sortBy (fun a => labels.idxOf (label a)) l).map label).Pairwise
      fun a b => labels.idxOf a < labels.idxOf b := List.pairwise_map.mpr (pairwise_lt_sortBy hkeys)
  have hlabels : labels.Pairwise fun a b => labels.idxOf a < labels.idxOf b := by
    rw [List.pairwise_iff_getElem]
    intro i j hi hj hij
    rwa [h.idxOf_getElem i hi, h.idxOf_getElem j hj]
  refine ((perm_sortBy.map label).trans hperm).eq_of_pairwise ?_ hsorted hlabels
  intro a b _ _ hab hba
  exact absurd hab hba.asymm

theorem mem_take_of_pairwise_lt (h : l.Pairwise fun a b => key a < key b) (ha : a ∈ l)
    (n : ℕ) : a ∈ l.take n ↔ (l.filter fun b => key b < key a).length < n := by
  induction l generalizing n with
  | nil => simp at ha
  | cons b l ih =>
    obtain ⟨hb, hl⟩ := List.pairwise_cons.mp h
    cases n with
    | zero => simp
    | succ n =>
      rcases List.mem_cons.mp ha with rfl | hal
      · have hnone : (l.filter fun b => key b < key a) = [] := by
          rw [List.filter_eq_nil_iff]
          intro x hx
          simpa using (hb x hx).le
        simp [hnone]
      · have hlt := hb a hal
        have hne : a ≠ b := by
          rintro rfl
          exact lt_irrefl _ hlt
        simp [hlt, hne, ih hl hal n]

theorem mem_take_sortBy (h : (l.map key).Nodup) (ha : a ∈ l) (n : ℕ) :
    a ∈ (sortBy key l).take n ↔ (l.filter fun b => key b < key a).length < n := by
  rw [mem_take_of_pairwise_lt (pairwise_lt_sortBy h) (mem_sortBy.mpr ha)]
  have hperm : (sortBy key l).Perm l := perm_sortBy
  rw [(hperm.filter _).length_eq]

end window

/-! ### Groups -/

section groups
variable [DecidableEq κ] (key : α → κ)

/-- The groups of `l` by `key`, in the order in which the keys first appear in `l`. -/
def groupBy (l : List α) : List (κ × List α) :=
  (l.map key).reverse.dedup.reverse.map fun k => (k, l.filter fun a => key a = k)

variable {key} {l : List α}

theorem mem_groupBy {k : κ} {g : List α} :
    (k, g) ∈ groupBy key l ↔ k ∈ l.map key ∧ g = l.filter fun a => key a = k := by
  simp only [groupBy, List.mem_map, List.mem_reverse, List.mem_dedup, Prod.mk.injEq]
  constructor
  · rintro ⟨k', hk', rfl, rfl⟩
    exact ⟨hk', rfl⟩
  · rintro ⟨hk, rfl⟩
    exact ⟨k, hk, rfl, rfl⟩

theorem groupBy_keys_nodup : ((groupBy key l).map Prod.fst).Nodup := by
  have hfst : (groupBy key l).map Prod.fst = (l.map key).reverse.dedup.reverse := by
    simp [groupBy, List.map_map, Function.comp_def]
  rw [hfst, List.nodup_reverse]
  exact List.nodup_dedup _

end groups

/-! ### Round robin -/

section roundRobin

/-- One pass over the queues: the first element of each, up to `n`, and what is left. -/
def robinPass : ℕ → List (List α) → List α × List (List α)
  | _, [] => ([], [])
  | 0, qs => ([], qs)
  | n + 1, [] :: qs => ((robinPass (n + 1) qs).1, [] :: (robinPass (n + 1) qs).2)
  | n + 1, (a :: q) :: qs => (a :: (robinPass n qs).1, q :: (robinPass n qs).2)

/-- Passes until `n` elements are taken or a pass takes none, at most `fuel` of them. -/
def robinPasses : ℕ → ℕ → List (List α) → List α
  | 0, _, _ => []
  | fuel + 1, n, qs =>
    if n = 0 ∨ (robinPass n qs).1 = [] then []
    else (robinPass n qs).1 ++ robinPasses fuel (n - (robinPass n qs).1.length) (robinPass n qs).2

/-- Up to `n` elements in turn from the queues.  Every pass but the last takes an element, so `n`
passes are enough (`robinPasses_of_le`). -/
def roundRobin (n : ℕ) (qs : List (List α)) : List α := robinPasses n n qs

variable {qs : List (List α)} {n : ℕ}

theorem robinPass_eq_nil (hn : n ≠ 0)
    (h : (robinPass n qs).1 = []) : ∀ q ∈ qs, q = [] := by
  fun_induction robinPass n qs with
  | case1 n => simp
  | case2 qs => exact absurd rfl hn
  | case3 n qs ih =>
    intro q hq
    rcases List.mem_cons.mp hq with rfl | hq
    · rfl
    · exact ih hn h q hq
  | case4 n a q qs ih => simp at h

theorem robinPass_length (n : ℕ) (qs : List (List α)) :
    (robinPass n qs).1.length ≤ n ∧
      qs.flatten.length = (robinPass n qs).1.length + (robinPass n qs).2.flatten.length := by
  fun_induction robinPass n qs with
  | case1 n => simp
  | case2 qs => simp
  | case3 n qs ih => simpa using ih
  | case4 n a q qs ih =>
    simp only [List.flatten_cons, List.length_append, List.length_cons]
    omega

theorem robinPasses_of_le {fuel n : ℕ} (h : n ≤ fuel) :
    robinPasses fuel n qs = roundRobin n qs := by
  unfold roundRobin
  induction fuel using Nat.strong_induction_on generalizing n qs with
  | _ fuel ih =>
    cases fuel with
    | zero => rw [Nat.le_zero.mp h]
    | succ fuel =>
      cases n with
      | zero => simp [robinPasses]
      | succ n =>
        unfold robinPasses
        split
        · rfl
        · rename_i hgo
          rw [not_or, ← List.length_eq_zero_iff] at hgo
          rw [ih fuel (by omega) (by omega), ← ih n (by omega) (by omega)]

/-- **Round robin stops when it has enough or nothing is left.** -/
theorem roundRobin_length (n : ℕ) (qs : List (List α)) :
    (roundRobin n qs).length = min n qs.flatten.length := by
  induction n using Nat.strong_induction_on generalizing qs with
  | _ n ih =>
    obtain ⟨hle, hlen⟩ := robinPass_length n qs
    cases n with
    | zero => simp [roundRobin, robinPasses]
    | succ n =>
      unfold roundRobin robinPasses
      split
      · rename_i hstop
        have hnil := robinPass_eq_nil (by omega) (hstop.resolve_left (by omega))
        have hflat : qs.flatten = [] := by simpa using hnil
        simp [hflat]
      · rename_i hgo
        rw [not_or, ← List.length_eq_zero_iff] at hgo
        rw [robinPasses_of_le (by omega), List.length_append, ih _ (by omega)]
        omega

theorem roundRobin_eq_nil (hn : n ≠ 0) :
    roundRobin n qs = [] ↔ ∀ q ∈ qs, q = [] := by
  obtain ⟨m, rfl⟩ := Nat.exists_eq_succ_of_ne_zero hn
  unfold roundRobin robinPasses
  constructor
  · intro h
    split at h
    · rename_i hc
      exact robinPass_eq_nil hn (hc.resolve_left hn)
    · rename_i hc
      rw [not_or] at hc
      simp [hc.2] at h
  · intro h
    have hpass : (robinPass (m + 1) qs).1 = [] := by
      clear hn
      induction qs with
      | nil => rfl
      | cons q qs ih =>
        obtain rfl : q = [] := h q (by simp)
        exact ih fun q' hq' => h q' (by simp [hq'])
    simp [hpass]

variable {label : α → κ}

/-- Every queue has one label, and no two queues share one. -/
structure Labelled (label : α → κ) (qs : List (List α)) : Prop where
  same : ∀ q ∈ qs, ∀ a ∈ q, ∀ b ∈ q, label a = label b
  apart : qs.Pairwise fun q q' => ∀ a ∈ q, ∀ b ∈ q', label a ≠ label b

variable {q : List α}

theorem Labelled.tail (h : Labelled label (q :: qs)) :
    Labelled label qs :=
  ⟨fun q' hq' => h.same q' (List.mem_cons_of_mem _ hq'), (List.pairwise_cons.mp h.apart).2⟩

theorem Labelled.of_sublists {qs qs' : List (List α)} (h : Labelled label qs)
    (hs : List.Forall₂ (fun q' q => ∀ a ∈ q', a ∈ q) qs' qs) : Labelled label qs' := by
  induction hs with
  | nil => exact h
  | @cons q' q qs' qs hq hqs ih =>
    have ih' := ih h.tail
    refine ⟨fun r hr a ha b hb => ?_, List.pairwise_cons.mpr ⟨fun r hr a ha b hb => ?_, ih'.apart⟩⟩
    · rcases List.mem_cons.mp hr with rfl | hr
      · exact h.same q (by simp) a (hq a ha) b (hq b hb)
      · exact ih'.same r hr a ha b hb
    · obtain ⟨r₀, hr₀, hsub⟩ : ∃ r₀ ∈ qs, ∀ x ∈ r, x ∈ r₀ := by
        clear ih ih' h hb
        induction hqs with
        | nil => simp at hr
        | cons hq' hqs' ih =>
          rcases List.mem_cons.mp hr with rfl | hr
          · exact ⟨_, List.mem_cons_self, hq'⟩
          · obtain ⟨r₀, hr₀, hsub⟩ := ih hr
            exact ⟨r₀, List.mem_cons_of_mem _ hr₀, hsub⟩
      exact (List.pairwise_cons.mp h.apart).1 r₀ hr₀ a (hq a ha) b (hsub b hb)

theorem robinPass_forall₂ (n : ℕ) (qs : List (List α)) :
    List.Forall₂ (fun q' q => ∀ a ∈ q', a ∈ q) (robinPass n qs).2 qs := by
  fun_induction robinPass n qs with
  | case1 n => exact .nil
  | case2 qs => exact List.forall₂_same.mpr fun q _ a ha => ha
  | case3 n qs ih => exact .cons (fun a ha => ha) ih
  | case4 n a q qs ih => exact .cons (fun b hb => List.mem_cons_of_mem _ hb) ih

variable [DecidableEq κ]

theorem Labelled.filter_rest (h : Labelled label ((a :: q) :: qs)) {k : κ} (hk : label a = k) :
    qs.flatten.filter (fun b => label b = k) = [] := by
  rw [List.filter_eq_nil_iff]
  intro b hb
  obtain ⟨q', hq', hbq⟩ := List.mem_flatten.mp hb
  have hne := (List.pairwise_cons.mp h.apart).1 q' hq' a List.mem_cons_self b hbq
  simpa using fun hbk => hne (hk.trans hbk.symm)

theorem Labelled.filter_queue (h : Labelled label ((a :: q) :: qs)) {k : κ} (hk : label a ≠ k) :
    q.filter (fun b => label b = k) = [] := by
  rw [List.filter_eq_nil_iff]
  intro b hb
  have heq := h.same _ List.mem_cons_self a List.mem_cons_self b (List.mem_cons_of_mem _ hb)
  simpa using fun hbk => hk (heq.trans hbk)

theorem robinPass_filter (h : Labelled label qs) (n : ℕ) (k : κ) :
    qs.flatten.filter (fun a => label a = k) =
      (robinPass n qs).1.filter (fun a => label a = k) ++
        (robinPass n qs).2.flatten.filter fun a => label a = k := by
  fun_induction robinPass n qs with
  | case1 n => rfl
  | case2 qs => rfl
  | case3 n qs ih => exact ih h.tail
  | case4 n a q qs ih =>
    have ih := ih h.tail
    simp only [List.flatten_cons, List.filter_append, ih]
    by_cases hk : label a = k
    · have hrest := h.filter_rest hk
      obtain ⟨ht, hr⟩ := List.append_eq_nil_iff.mp (ih.symm.trans hrest)
      simp [hk, ht, hr]
    · have hq := h.filter_queue hk
      simp [hk, hq]

theorem robinPasses_filter_isPrefix (fuel n : ℕ) (h : Labelled label qs) (k : κ) :
    (robinPasses fuel n qs).filter (fun a => label a = k) <+:
      qs.flatten.filter fun a => label a = k := by
  induction fuel generalizing n qs with
  | zero => simp [robinPasses]
  | succ fuel ih =>
    unfold robinPasses
    split
    · simp
    · rw [robinPass_filter h n k, List.filter_append]
      exact (List.prefix_append_right_inj _).mpr (ih _ (h.of_sublists (robinPass_forall₂ n qs)))

/-- **Round robin takes from each queue an initial part**, in the order of the queue. -/
theorem roundRobin_filter_isPrefix (n : ℕ) (h : Labelled label qs) (k : κ) :
    (roundRobin n qs).filter (fun a => label a = k) <+:
      qs.flatten.filter fun a => label a = k :=
  robinPasses_filter_isPrefix n n h k

/-- A pass takes one element of each queue at most, and takes one of each that has one unless it
has enough. -/
theorem robinPass_filter_length (h : Labelled label qs) (n : ℕ) (k : κ) :
    ((robinPass n qs).1.filter fun a => label a = k).length ≤ 1 ∧
      ((robinPass n qs).1.length < n → (qs.flatten.filter fun a => label a = k) ≠ [] →
        ((robinPass n qs).1.filter fun a => label a = k) ≠ []) := by
  fun_induction robinPass n qs with
  | case1 n => simp
  | case2 qs => simp
  | case3 n qs ih => simpa using ih h.tail
  | case4 n a q qs ih =>
    have ih := ih h.tail
    by_cases hk : label a = k
    · have hrest := h.filter_rest hk
      rw [robinPass_filter h.tail n k] at hrest
      simp [hk, (List.append_eq_nil_iff.mp hrest).1]
    · have hq := h.filter_queue hk
      simpa [hk, hq] using ih

theorem robinPasses_fair (fuel n : ℕ) (h : Labelled label qs)
    {done rest : List α} (hrun : robinPasses fuel n qs = done ++ a :: rest) (k : κ) :
    min (done.countP fun b => label b = label a) (qs.flatten.countP fun b => label b = k) ≤
      done.countP fun b => label b = k := by
  induction fuel generalizing n qs done with
  | zero => simp [robinPasses] at hrun
  | succ fuel ih =>
    obtain ⟨hone, -⟩ := robinPass_filter_length h n (label a)
    have hfull := (robinPass_filter_length h n k).2
    have hsplit := congrArg List.length (robinPass_filter h n k)
    unfold robinPasses at hrun
    split at hrun
    · simp at hrun
    · have hlater : ∀ done', done = (robinPass n qs).1 ++ done' →
          robinPasses fuel (n - (robinPass n qs).1.length) (robinPass n qs).2 = done' ++ a :: rest →
          min (done.countP fun b => label b = label a) (qs.flatten.countP fun b => label b = k) ≤
            done.countP fun b => label b = k := by
        rintro done' rfl hdone'
        have hlen : (robinPass n qs).1.length < n := by
          by_contra hge
          rw [Nat.sub_eq_zero_of_le (by omega)] at hdone'
          cases fuel <;> simp [robinPasses] at hdone'
        have ih := ih _ (h.of_sublists (robinPass_forall₂ n qs)) hdone'
        have hfull := hfull hlen
        simp only [List.countP_eq_length_filter, List.filter_append, List.length_append,
          ← List.length_pos_iff] at *
        omega
      rcases List.append_eq_append_iff.mp hrun with ⟨done', hdone, hdone'⟩ | ⟨first, hfirst, hrest⟩
      · exact hlater done' hdone hdone'
      · cases first with
        | nil => exact hlater [] (by simp [hfirst]) hrest.symm
        | cons b first =>
          obtain rfl : a = b := (List.cons.inj hrest).1
          have hnone : (done.filter fun b => label b = label a).length = 0 := by
            rw [hfirst, List.filter_append, List.length_append] at hone
            simp at hone
            omega
          rw [List.countP_eq_length_filter, hnone]
          omega

/-- **Round robin is fair**: when a queue is given its next element, every other queue has been
given as many as that queue had before, or all of its own. -/
theorem roundRobin_fair (h : Labelled label qs)
    {done rest : List α} (hrun : roundRobin n qs = done ++ a :: rest) (k : κ) :
    min (done.countP fun b => label b = label a) (qs.flatten.countP fun b => label b = k) ≤
      done.countP fun b => label b = k :=
  robinPasses_fair n n h hrun k
theorem mem_of_mem_roundRobin (h : Labelled label qs)
    (ha : a ∈ roundRobin n qs) : ∃ q ∈ qs, a ∈ q := by
  have hmem : a ∈ (roundRobin n qs).filter fun b => label b = label a := by simp [ha]
  have hflat := (roundRobin_filter_isPrefix n h (label a)).subset hmem
  exact List.mem_flatten.mp (List.mem_filter.mp hflat).1

theorem Labelled.flatten_filter (h : Labelled label qs)
    (hq : q ∈ qs) (ha : a ∈ q) : qs.flatten.filter (fun b => label b = label a) = q := by
  induction qs with
  | nil => simp at hq
  | cons q' qs ih =>
    have hapart := List.pairwise_cons.mp h.apart
    rw [List.flatten_cons, List.filter_append]
    rcases List.mem_cons.mp hq with rfl | hq
    · have hself : q.filter (fun b => label b = label a) = q := by
        rw [List.filter_eq_self]
        intro b hb
        simpa using h.same q (by simp) b hb a ha
      have hrest : qs.flatten.filter (fun b => label b = label a) = [] := by
        rw [List.filter_eq_nil_iff]
        intro b hb
        obtain ⟨r, hr, hbr⟩ := List.mem_flatten.mp hb
        simpa using fun he => hapart.1 r hr a ha b hbr he.symm
      rw [hself, hrest, List.append_nil]
    · have hnone : q'.filter (fun b => label b = label a) = [] := by
        rw [List.filter_eq_nil_iff]
        intro b hb
        simpa using hapart.1 q hq b hb a ha
      rw [hnone, List.nil_append, ih h.tail hq]

end roundRobin

/-! ### Consecutive runs -/

section runs
variable (number : α → ℕ)

/-- The elements numbered `n, n + 1, …` at the start of a list, smaller numbers skipped. -/
def takeRun : ℕ → List α → List α
  | _, [] => []
  | n, a :: l =>
    if number a < n then takeRun n l
    else if number a ≠ n then []
    else a :: takeRun (n + 1) l

variable {number} {l : List α}

theorem takeRun_subset (n : ℕ) (l : List α) : ∀ a ∈ takeRun number n l, a ∈ l := by
  fun_induction takeRun number n l with
  | case1 n => simp
  | case2 n a l hlt ih => exact fun b hb => List.mem_cons_of_mem _ (ih b hb)
  | case3 n a l hlt hne => simp
  | case4 n a l hlt heq ih =>
    intro b hb
    rcases List.mem_cons.mp hb with rfl | hb
    · exact List.mem_cons_self
    · exact List.mem_cons_of_mem _ (ih b hb)

theorem map_takeRun (n : ℕ) (l : List α) :
    (takeRun number n l).map number = List.range' n (takeRun number n l).length := by
  fun_induction takeRun number n l with
  | case1 n => rfl
  | case2 n a l hlt ih => exact ih
  | case3 n a l hlt hne => rfl
  | case4 n a l hlt heq ih =>
    rw [not_not] at heq
    simp [heq, ih, List.range'_succ]

theorem eq_range'_of_isPrefix {m n : ℕ} {l : List ℕ} (h : l <+: List.range' m n) :
    l = List.range' m l.length := by
  induction l generalizing m n with
  | nil => rfl
  | cons a l ih =>
    cases n with
    | zero => simp at h
    | succ n =>
      rw [List.range'_succ, List.cons_prefix_cons] at h
      rw [List.length_cons, List.range'_succ, h.1, ← ih h.2]

theorem takeRun_eq_nil (n : ℕ) (h : l.Pairwise fun a b => number a ≤ number b) :
    takeRun number n l = [] ↔ ∀ a ∈ l, number a ≠ n := by
  induction l with
  | nil => simp [takeRun]
  | cons b l ih =>
    obtain ⟨hb, hl⟩ := List.pairwise_cons.mp h
    unfold takeRun
    split
    · rename_i hlt
      rw [ih hl]
      simp only [List.mem_cons, forall_eq_or_imp, iff_and_self]
      intro _
      omega
    · rename_i hge
      split
      · rename_i hne
        simp only [List.mem_cons, forall_eq_or_imp, true_iff]
        refine ⟨hne, fun a ha => ?_⟩
        have := hb a ha
        omega
      · rename_i heq
        rw [not_not] at heq
        simp [heq]

end runs

end CyberControl.Scheduling
