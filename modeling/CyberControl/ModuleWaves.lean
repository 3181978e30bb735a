import CyberControl.Layers
import CyberControl.ModuleDispatch

/-! # The waves of a dispatch plan

`ModuleDispatchPlanner.execution_waves` of `verification/dispatch.py` on any list of items. -/

namespace CyberControl.Verification

open Collections CyberControl.Digraph Scheduling

/-- The item `b` waits for the item `a`. -/
def Depends (items : List DispatchItem) (a b : ℕ) : Prop :=
  ∃ item ∈ items, item.dispatchItemId = b ∧ a ∈ item.dependencyItemIds

/-- The item with this id is in wave `n`. -/
def InWave (waves : List (List DispatchItem)) (id n : ℕ) : Prop :=
  ∃ wave, waves[n]? = some wave ∧ id ∈ wave.map (·.dispatchItemId)

/-! ### What the loop does -/

variable {completed : List ℕ} {item : DispatchItem}

theorem isReady_iff :
    isReady completed item = true ↔ ∀ dependency ∈ item.dependencyItemIds, dependency ∈ completed :=
  decide_eq_true_iff

variable {remaining : List DispatchItem} {fuel : ℕ}

theorem wavesFrom_succ (hne : remaining ≠ []) (hready : ∃ item ∈ remaining, isReady completed item) :
    wavesFrom (fuel + 1) remaining completed
      = (wavesFrom fuel (remaining.filter fun item => !isReady completed item)
          (completed ++ (sortBy (·.dispatchItemId) (remaining.filter (isReady completed))).map
            (·.dispatchItemId))).map
        (sortBy (·.dispatchItemId) (remaining.filter (isReady completed)) :: ·) := by
  obtain ⟨item, hitem, hitemReady⟩ := hready
  have hsorted : ¬ (sortBy (·.dispatchItemId) (remaining.filter (isReady completed))).isEmpty := by
    rw [List.isEmpty_iff]
    apply List.ne_nil_of_mem (a := item)
    rw [mem_sortBy, List.mem_filter]
    exact ⟨hitem, hitemReady⟩
  rw [wavesFrom, if_neg (by simpa using hne)]
  dsimp only
  rw [if_neg hsorted]
  rfl

theorem wavesFrom_blocked (hne : remaining ≠ []) (hready : ¬ ∃ item ∈ remaining, isReady completed item) :
    wavesFrom (fuel + 1) remaining completed
      = .error (dispatchPlanError "dispatch plan contains a dependency cycle") := by
  have hnone : remaining.filter (isReady completed) = [] := by
    rw [List.filter_eq_nil_iff]
    intro item hitem hitemReady
    exact hready ⟨item, hitem, hitemReady⟩
  have hsorted : sortBy (·.dispatchItemId) (remaining.filter (isReady completed)) = [] := by
    rw [hnone]
    rfl
  rw [wavesFrom, if_neg (by simpa using hne)]
  dsimp only
  rw [hsorted]
  rfl

theorem length_filter_not_lt (hready : ∃ item ∈ remaining, isReady completed item) :
    (remaining.filter fun item => !isReady completed item).length < remaining.length := by
  obtain ⟨item, hitem, hitemReady⟩ := hready
  have hpos : 0 < (remaining.filter (isReady completed)).length :=
    List.length_pos_of_mem (List.mem_filter.mpr ⟨hitem, hitemReady⟩)
  have hsplit := List.length_eq_length_filter_add (l := remaining) (isReady completed)
  omega

/-- **The loop ends**: more rounds than items change nothing. -/
theorem wavesFrom_of_le {fuel fuel' : ℕ}
    (h : remaining.length ≤ fuel) (h' : remaining.length ≤ fuel') :
    wavesFrom fuel remaining completed = wavesFrom fuel' remaining completed := by
  induction fuel generalizing fuel' remaining completed with
  | zero =>
    obtain rfl : remaining = [] := List.eq_nil_of_length_eq_zero (Nat.le_zero.mp h)
    cases fuel' with
    | zero => rfl
    | succ fuel' => rfl
  | succ fuel ih =>
    by_cases hne : remaining = []
    · subst hne
      cases fuel' with
      | zero => rfl
      | succ fuel' => rfl
    · obtain ⟨fuel', rfl⟩ : ∃ n, fuel' = n + 1 := by
        have hpos := List.length_pos_of_ne_nil hne
        exact ⟨fuel' - 1, by omega⟩
      by_cases hready : ∃ item ∈ remaining, isReady completed item
      · have hlt := length_filter_not_lt hready
        rw [wavesFrom_succ hne hready, wavesFrom_succ hne hready]
        refine congrArg (Except.map _) (ih ?_ ?_)
        · omega
        · omega
      · rw [wavesFrom_blocked hne hready, wavesFrom_blocked hne hready]

/-- **The order of the items does not matter.** -/
theorem wavesFrom_perm_eq (fuel : ℕ) {remaining remaining' : List DispatchItem}
    (hperm : remaining.Perm remaining') (hids : (remaining.map (·.dispatchItemId)).Nodup) :
    wavesFrom fuel remaining completed = wavesFrom fuel remaining' completed := by
  induction fuel generalizing remaining remaining' completed with
  | zero => rfl
  | succ fuel ih =>
    by_cases hne : remaining = []
    · subst hne
      rw [List.nil_perm.mp hperm]
    · have hne' : remaining' ≠ [] := fun hnil => hne (List.perm_nil.mp (hnil ▸ hperm))
      by_cases hready : ∃ item ∈ remaining, isReady completed item
      · have hready' : ∃ item ∈ remaining', isReady completed item := by
          obtain ⟨item, hitem, hitemReady⟩ := hready
          exact ⟨item, hperm.mem_iff.mp hitem, hitemReady⟩
        have hsub : ∀ p : DispatchItem → Bool, ((remaining.filter p).map (·.dispatchItemId)).Nodup :=
          fun p => hids.sublist (List.filter_sublist.map _)
        rw [wavesFrom_succ hne hready, wavesFrom_succ hne' hready',
          sortBy_eq_of_perm (hperm.filter _) (hsub _), ih (hperm.filter _) (hsub _)]
      · have hready' : ¬ ∃ item ∈ remaining', isReady completed item := by
          rintro ⟨item, hitem, hitemReady⟩
          exact hready ⟨item, hperm.mem_iff.mpr hitem, hitemReady⟩
        rw [wavesFrom_blocked hne hready, wavesFrom_blocked hne' hready']

/-! ### The waves as they leave the loop -/

/-- The dependencies of a wave are complete, and each later item waits for one that is not. -/
def Earliest : List ℕ → List (List DispatchItem) → Prop
  | _, [] => True
  | completed, wave :: waves =>
    (∀ item ∈ wave, ∀ dependency ∈ item.dependencyItemIds, dependency ∈ completed) ∧
      (∀ item ∈ waves.flatten, ∃ dependency ∈ item.dependencyItemIds, dependency ∉ completed) ∧
      Earliest (completed ++ wave.map (·.dispatchItemId)) waves

variable {waves : List (List DispatchItem)}

theorem earliest_wavesFrom (hfuel : remaining.length ≤ fuel)
    (h : wavesFrom fuel remaining completed = .ok waves) : Earliest completed waves := by
  induction fuel generalizing remaining completed waves with
  | zero =>
    cases h
    trivial
  | succ fuel ih =>
    by_cases hne : remaining = []
    · subst hne
      cases h
      trivial
    · by_cases hready : ∃ item ∈ remaining, isReady completed item
      · have hlt := length_filter_not_lt hready
        rw [wavesFrom_succ hne hready] at h
        cases hrest : wavesFrom fuel (remaining.filter fun item => !isReady completed item)
            (completed ++ (sortBy (·.dispatchItemId) (remaining.filter (isReady completed))).map
              (·.dispatchItemId)) with
        | error error =>
          rw [hrest] at h
          cases h
        | ok rest =>
          rw [hrest] at h
          cases h
          refine ⟨fun item hitem => ?_, fun item hitem => ?_, ih (by omega) hrest⟩
          · exact isReady_iff.mp (List.mem_filter.mp (mem_sortBy.mp hitem)).2
          · have hmem := (wavesFrom_perm (by omega) hrest).mem_iff.mp hitem
            have hnot := (List.mem_filter.mp hmem).2
            by_contra hall
            push Not at hall
            rw [isReady_iff.mpr hall] at hnot
            simp at hnot
      · rw [wavesFrom_blocked hne hready] at h
        cases h

namespace Earliest
variable {completed : List ℕ} {waves : List (List DispatchItem)}

theorem dependency (h : Earliest completed waves) {n : ℕ} {wave : List DispatchItem}
    (hwave : waves[n]? = some wave) (hitem : item ∈ wave) {a : ℕ}
    (ha : a ∈ item.dependencyItemIds) : a ∈ completed ∨ ∃ m < n, InWave waves a m := by
  induction waves generalizing completed n with
  | nil => simp at hwave
  | cons first waves ih =>
    obtain ⟨hdone, -, hrest⟩ := h
    cases n with
    | zero =>
      obtain rfl : first = wave := by simpa using hwave
      exact .inl (hdone item hitem a ha)
    | succ n =>
      rw [List.getElem?_cons_succ] at hwave
      rcases ih hrest hwave with hcompleted | ⟨m, hm, hin⟩
      · rcases List.mem_append.mp hcompleted with hcompleted | hfirst
        · exact .inl hcompleted
        · exact .inr ⟨0, by omega, first, rfl, hfirst⟩
      · exact .inr ⟨m + 1, by omega, hin⟩

theorem previous (h : Earliest completed waves) {n : ℕ} {wave : List DispatchItem}
    (hwave : waves[n + 1]? = some wave) (hitem : item ∈ wave) :
    ∃ a ∈ item.dependencyItemIds, InWave waves a n := by
  induction waves generalizing completed n with
  | nil => simp at hwave
  | cons first waves ih =>
    obtain ⟨-, hlater, hrest⟩ := h
    rw [List.getElem?_cons_succ] at hwave
    cases n with
    | zero =>
      obtain ⟨a, ha, hnot⟩ := hlater item
        (List.mem_flatten.mpr ⟨wave, List.mem_of_getElem? hwave, hitem⟩)
      rcases hrest.dependency hwave hitem ha with hcompleted | ⟨m, hm, -⟩
      · exact ⟨a, ha, first, rfl, (List.mem_append.mp hcompleted).resolve_left hnot⟩
      · omega
    | succ n =>
      obtain ⟨a, ha, hin⟩ := ih hrest hwave
      exact ⟨a, ha, hin⟩

end Earliest

section layers
variable {items : List DispatchItem} {waves : List (List DispatchItem)}

theorem inWave_of_mem (hperm : waves.flatten.Perm items) (hitem : item ∈ items) :
    ∃ n, InWave waves item.dispatchItemId n := by
  obtain ⟨wave, hwave, hin⟩ := List.mem_flatten.mp (hperm.mem_iff.mpr hitem)
  obtain ⟨n, hn⟩ := List.getElem?_of_mem hwave
  exact ⟨n, wave, hn, List.mem_map_of_mem hin⟩

/-- **The waves are layers of the dependency graph.** -/
theorem layers_of_earliest (hids : (items.map (·.dispatchItemId)).Nodup)
    (hperm : waves.flatten.Perm items) (h : Earliest [] waves) :
    Layers (Depends items) (InWave waves) where
  earlier := by
    rintro a b n ⟨item, hitem, rfl, ha⟩ ⟨wave, hwave, hin⟩
    obtain ⟨item', hitem', hsame⟩ := List.mem_map.mp hin
    have hmem : item' ∈ items :=
      hperm.mem_iff.mp (List.mem_flatten.mpr ⟨wave, List.mem_of_getElem? hwave, hitem'⟩)
    obtain rfl : item' = item := List.inj_on_of_nodup_map hids hmem hitem hsame
    rcases h.dependency hwave hitem' ha with hnone | hfound
    · simp at hnone
    · exact hfound
  previous := by
    rintro b n ⟨wave, hwave, hin⟩
    obtain ⟨item, hitem, rfl⟩ := List.mem_map.mp hin
    obtain ⟨a, ha, hbefore⟩ := h.previous hwave hitem
    exact ⟨a, ⟨item, hperm.mem_iff.mp (List.mem_flatten.mpr ⟨wave, List.mem_of_getElem? hwave, hitem⟩),
      rfl, ha⟩, hbefore⟩

/-- Every dependency is an item. -/
def KnownDependencies (items : List DispatchItem) : Prop :=
  ∀ item ∈ items, ∀ dependency ∈ item.dependencyItemIds, dependency ∈ items.map (·.dispatchItemId)

/-- **On an acyclic graph every round finds an item.** -/
theorem wavesFrom_ok (hknown : KnownDependencies items) (hacyclic : Acyclic (Depends items)) (fuel : ℕ)
    (hsub : ∀ item ∈ remaining, item ∈ items)
    (hall : ∀ item ∈ items, item.dispatchItemId ∈ completed ∨ item ∈ remaining) :
    ∃ waves, wavesFrom fuel remaining completed = .ok waves := by
  induction fuel generalizing remaining completed with
  | zero => exact ⟨[], rfl⟩
  | succ fuel ih =>
    by_cases hne : remaining = []
    · subst hne
      exact ⟨[], rfl⟩
    · by_cases hready : ∃ item ∈ remaining, isReady completed item
      · have hsub' : ∀ item ∈ remaining.filter fun item => !isReady completed item, item ∈ items :=
          fun item hitem => hsub item (List.mem_filter.mp hitem).1
        have hall' : ∀ item ∈ items,
            item.dispatchItemId ∈ completed ++ (sortBy (·.dispatchItemId)
              (remaining.filter (isReady completed))).map (·.dispatchItemId) ∨
            item ∈ remaining.filter fun item => !isReady completed item := by
          intro item hitem
          rcases hall item hitem with hdone | hin
          · exact .inl (List.mem_append_left _ hdone)
          · cases hitemReady : isReady completed item with
            | true =>
              refine .inl (List.mem_append_right _ (List.mem_map_of_mem (mem_sortBy.mpr ?_)))
              exact List.mem_filter.mpr ⟨hin, hitemReady⟩
            | false => exact .inr (List.mem_filter.mpr ⟨hin, by simp [hitemReady]⟩)
        obtain ⟨waves, hwaves⟩ := ih hsub' hall'
        exact ⟨_, by rw [wavesFrom_succ hne hready, hwaves]; rfl⟩
      · -- a source of the remaining items would be ready
        have hnonempty : (remaining.map (·.dispatchItemId)).toFinset.Nonempty := by
          obtain ⟨item, hitem⟩ := List.exists_mem_of_ne_nil remaining hne
          exact ⟨item.dispatchItemId, List.mem_toFinset.mpr (List.mem_map_of_mem hitem)⟩
        obtain ⟨b, hb, hsource⟩ := hacyclic.exists_source hnonempty
        obtain ⟨item, hitem, rfl⟩ := List.mem_map.mp (List.mem_toFinset.mp hb)
        refine absurd ⟨item, hitem, isReady_iff.mpr fun a ha => ?_⟩ hready
        by_contra hnot
        obtain ⟨before, hbefore, rfl⟩ := List.mem_map.mp (hknown item (hsub item hitem) a ha)
        have hin : before ∈ remaining := (hall before hbefore).resolve_left hnot
        exact hsource _ (List.mem_toFinset.mpr (List.mem_map_of_mem hin))
          ⟨item, hsub item hitem, rfl, ha⟩

end layers

/-! ### `execution_waves` -/

section waves
variable {items : List DispatchItem}

/-- The lists of items that can be put in waves. -/
structure Layerable (items : List DispatchItem) : Prop where
  nodup : (items.map (·.dispatchItemId)).Nodup
  known : KnownDependencies items
  acyclic : Acyclic (Depends items)

theorem executionWaves_eq (hnodup : (items.map (·.dispatchItemId)).Nodup) (hknown : KnownDependencies items) :
    executionWaves items = wavesFrom items.length items [] := by
  unfold KnownDependencies at hknown
  unfold executionWaves
  rw [if_neg (not_not_intro hnodup), if_neg (not_not_intro hknown)]

/-- The waves partition the items, and the wave of an item is its depth in the dependency graph. -/
structure Layered (items : List DispatchItem) (waves : List (List DispatchItem)) : Prop where
  partition : waves.flatten.Perm items
  earlier : ∀ item ∈ items, ∀ dependency ∈ item.dependencyItemIds, ∀ m n,
    InWave waves dependency m → InWave waves item.dispatchItemId n → m < n
  depth : ∀ item ∈ items, ∃ n, InWave waves item.dispatchItemId n ∧
    IsDepth (Depends items) item.dispatchItemId n

theorem executionWaves_run (h : executionWaves items = .ok waves) :
    (items.map (·.dispatchItemId)).Nodup ∧ KnownDependencies items ∧
      wavesFrom items.length items [] = .ok waves := by
  have hnodup : (items.map (·.dispatchItemId)).Nodup := by
    by_contra hrepeat
    rw [executionWaves, if_pos hrepeat] at h
    cases h
  have hknown : KnownDependencies items := by
    by_contra hunknown
    unfold KnownDependencies at hunknown
    rw [executionWaves, if_neg (not_not_intro hnodup), if_pos hunknown] at h
    cases h
  rw [executionWaves_eq hnodup hknown] at h
  exact ⟨hnodup, hknown, h⟩

theorem executionWaves_layered (h : executionWaves items = .ok waves) :
    Layerable items ∧ Layered items waves := by
  obtain ⟨hnodup, hknown, hrun⟩ := executionWaves_run h
  have hperm := wavesFrom_perm (le_refl _) hrun
  have hlayers := layers_of_earliest hnodup hperm (earliest_wavesFrom (le_refl _) hrun)
  refine ⟨⟨hnodup, hknown, hlayers.acyclic ?_⟩, hperm, ?_, ?_⟩
  · rintro a b ⟨item, hitem, rfl, -⟩
    exact inWave_of_mem hperm hitem
  · intro item hitem a ha m n hm hn
    obtain ⟨k, hk, hak⟩ := hlayers.earlier ⟨item, hitem, rfl, ha⟩ hn
    rwa [(hlayers.isDepth hm).unique (hlayers.isDepth hak)]
  · intro item hitem
    obtain ⟨n, hn⟩ := inWave_of_mem hperm hitem
    exact ⟨n, hn, hlayers.isDepth hn⟩

theorem executionWaves_ok (h : Layerable items) : ∃ waves, executionWaves items = .ok waves := by
  rw [executionWaves_eq h.nodup h.known]
  exact wavesFrom_ok h.known h.acyclic _ (fun _ hitem => hitem) fun _ hitem => .inr hitem

theorem wavesFrom_error {error : Exn}
    (h : wavesFrom fuel remaining completed = .error error) : ∃ text, error = dispatchPlanError text := by
  induction fuel generalizing remaining completed with
  | zero => cases h
  | succ fuel ih =>
    by_cases hne : remaining = []
    · subst hne
      cases h
    · by_cases hready : ∃ item ∈ remaining, isReady completed item
      · rw [wavesFrom_succ hne hready] at h
        cases hrest : wavesFrom fuel (remaining.filter fun item => !isReady completed item)
            (completed ++ (sortBy (·.dispatchItemId) (remaining.filter (isReady completed))).map
              (·.dispatchItemId)) with
        | error error' =>
          rw [hrest] at h
          cases h
          exact ih hrest
        | ok rest =>
          rw [hrest] at h
          cases h
      · rw [wavesFrom_blocked hne hready] at h
        cases h
        exact ⟨_, rfl⟩

theorem executionWaves_error {error : Exn} (h : executionWaves items = .error error) :
    ∃ text, error = dispatchPlanError text := by
  unfold executionWaves at h
  dsimp only at h
  split_ifs at h
  · exact wavesFrom_error h
  · cases h
    exact ⟨_, rfl⟩
  · cases h
    exact ⟨_, rfl⟩

theorem executionWaves_perm {items' : List DispatchItem} (hperm : items.Perm items') :
    executionWaves items' = executionWaves items := by
  have hids := hperm.map (·.dispatchItemId)
  have hknown : KnownDependencies items ↔ KnownDependencies items' := by
    unfold KnownDependencies
    simp only [hperm.mem_iff, hids.mem_iff]
  unfold KnownDependencies at hknown
  unfold executionWaves
  dsimp only
  by_cases hnodup : (items.map (·.dispatchItemId)).Nodup
  · rw [if_neg (not_not_intro hnodup), if_neg (not_not_intro (hids.nodup_iff.mp hnodup)),
      wavesFrom_perm_eq items.length hperm hnodup, hperm.length_eq]
    exact if_congr (not_congr hknown.symm) rfl rfl
  · rw [if_pos hnodup, if_pos fun h => hnodup (hids.nodup_iff.mpr h)]

/-- **`execution_waves` is the earliest layering**: it raises exactly when ids repeat, a dependency is unknown
or the dependency graph has a cycle; otherwise its waves partition the items, each item is in the wave that is
its depth, and the order of the list does not matter. -/
theorem execution_waves_correct (items : List DispatchItem) :
    ((∃ text, executionWaves items = .error (dispatchPlanError text)) ↔
        ¬ (items.map (·.dispatchItemId)).Nodup ∨ ¬ KnownDependencies items ∨ ¬ Acyclic (Depends items)) ∧
      (∀ waves, executionWaves items = .ok waves → Layered items waves) ∧
      ((∃ waves, executionWaves items = .ok waves) ∨
        ∃ text, executionWaves items = .error (dispatchPlanError text)) ∧
      (∀ fuel ≥ items.length, wavesFrom fuel items [] = wavesFrom items.length items []) ∧
      ∀ items', items.Perm items' → executionWaves items' = executionWaves items := by
  have hends : (∃ waves, executionWaves items = .ok waves) ∨
      ∃ text, executionWaves items = .error (dispatchPlanError text) := by
    cases h : executionWaves items with
    | ok waves => exact .inl ⟨waves, rfl⟩
    | error error =>
      obtain ⟨text, rfl⟩ := executionWaves_error h
      exact .inr ⟨text, rfl⟩
  refine ⟨⟨?_, fun hbad => ?_⟩, fun waves h => (executionWaves_layered h).2, hends,
    fun fuel hfuel => wavesFrom_of_le hfuel (le_refl _), fun items' => executionWaves_perm⟩
  · rintro ⟨text, herror⟩
    by_contra hgood
    push Not at hgood
    obtain ⟨waves, hwaves⟩ := executionWaves_ok ⟨hgood.1, hgood.2.1, hgood.2.2⟩
    rw [herror] at hwaves
    cases hwaves
  · refine hends.resolve_left ?_
    rintro ⟨waves, hwaves⟩
    have hgood := (executionWaves_layered hwaves).1
    rcases hbad with hbad | hbad | hbad
    · exact hbad hgood.nodup
    · exact hbad hgood.known
    · exact hbad hgood.acyclic

end waves

end CyberControl.Verification
