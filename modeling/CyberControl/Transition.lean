import Mathlib.Data.List.Basic
import Mathlib.Data.Option.Basic

/-! # Runs of a partial transition function

A system is given by a function `step : σ → α → Option σ`: `step s a` is the state after
action `a`, or `none` when `a` is not enabled in `s`.  Everything nondeterministic (which task
runs next, what a clock or a callee answers) is part of the action, so a run is a list of
actions (`run`) and a statement about all interleavings quantifies over that list. -/

namespace CyberControl.Transition

variable {σ α : Type*} (step : σ → α → Option σ)

/-- Execute the actions from left to right, stopping at the first one that is not enabled. -/
def run : σ → List α → Option σ
  | s, [] => some s
  | s, a :: as => (step s a).bind fun s' => run s' as

/-- `C` holds at every step of the run of `as` from `s`. -/
def AllSteps (C : σ → α → Prop) : σ → List α → Prop
  | _, [] => True
  | s, a :: as => C s a ∧ ∀ s', step s a = some s' → AllSteps C s' as

variable {step} {s s' : σ} {as : List α}

theorem run_cons_eq_some {a : α} :
    run step s (a :: as) = some s' ↔ ∃ t, step s a = some t ∧ run step t as = some s' := by
  simp only [run, Option.bind_eq_some_iff]

theorem guarded_eq_some {c : Prop} [Decidable c] :
    (if c then some s else none) = some s' ↔ c ∧ s = s' := by
  rw [Option.ite_none_right_eq_some, Option.some.injEq]

variable {C : σ → α → Prop} {I : σ → Prop}

/-- **Invariant rule for guarded runs**: `I` is preserved by every step that meets `C`. -/
theorem run_invariant_of (hstep : ∀ s a s', I s → C s a → step s a = some s' → I s')
    (hs : I s) (hC : AllSteps step C s as)
    (h : run step s as = some s') : I s' := by
  induction as generalizing s with
  | nil =>
    cases h
    exact hs
  | cons a as ih =>
    obtain ⟨t, ht, hr⟩ := run_cons_eq_some.mp h
    exact ih (hstep s a t hs hC.1 ht) (hC.2 t ht) hr

/-- Whether every step of a run meets a decidable condition can be computed. -/
def decideAllSteps (C : σ → α → Prop) [∀ s, DecidablePred (C s)] :
    ∀ (s : σ) (as : List α), Decidable (AllSteps step C s as)
  | _, [] => isTrue trivial
  | s, a :: as =>
    match h : step s a with
    | none => decidable_of_iff (C s a) (by simp [AllSteps, h])
    | some t =>
      have := decideAllSteps C t as
      decidable_of_iff (C s a ∧ AllSteps step C t as) (by simp [AllSteps, h])

instance (C : σ → α → Prop) [∀ s, DecidablePred (C s)] (s : σ) (as : List α) :
    Decidable (AllSteps step C s as) :=
  decideAllSteps C s as

theorem allSteps_of_forall (h : ∀ s a, C s a) (s : σ) (as : List α) :
    AllSteps step C s as := by
  induction as generalizing s with
  | nil => trivial
  | cons a as ih => exact ⟨h s a, fun t _ => ih t⟩

/-- **Invariant rule.** -/
theorem run_invariant (hstep : ∀ s a s', I s → step s a = some s' → I s')
    (hs : I s) (h : run step s as = some s') : I s' :=
  run_invariant_of (C := fun _ _ => True) (fun s a s' hI _ => hstep s a s' hI) hs
    (allSteps_of_forall (fun _ _ => trivial) s as) h

theorem run_append_eq_some {as bs : List α} :
    run step s (as ++ bs) = some s' ↔ ∃ t, run step s as = some t ∧ run step t bs = some s' := by
  induction as generalizing s with
  | nil => simp [run]
  | cons a as ih =>
    simp only [List.cons_append, run_cons_eq_some, ih]
    constructor
    · rintro ⟨u, hu, t, ht, hr⟩
      exact ⟨t, ⟨u, hu, ht⟩, hr⟩
    · rintro ⟨t, ⟨u, hu, ht⟩, hr⟩
      exact ⟨u, hu, t, ht, hr⟩

/-- **Invariant rule with the past**: the invariant may speak of the actions taken so far. -/
theorem run_invariant_past {I : List α → σ → Prop}
    (hstep : ∀ past s a s', I past s → step s a = some s' → I (past ++ [a]) s')
    {past : List α} (hs : I past s) (h : run step s as = some s') :
    I (past ++ as) s' := by
  induction as generalizing past s with
  | nil =>
    cases h
    rwa [List.append_nil]
  | cons a as ih =>
    obtain ⟨t, ht, hr⟩ := run_cons_eq_some.mp h
    rw [List.append_cons]
    exact ih (hstep past s a t hs ht) hr

theorem allSteps_congr {C D : σ → α → Prop}
    (hstep : ∀ s a s', I s → step s a = some s' → I s' ∧ (C s a ↔ D s a))
    (hs : I s) (h : run step s as = some s') :
    AllSteps step C s as ↔ AllSteps step D s as := by
  induction as generalizing s with
  | nil => exact Iff.rfl
  | cons a as ih =>
    obtain ⟨t, ht, hr⟩ := run_cons_eq_some.mp h
    obtain ⟨hI, hiff⟩ := hstep s a t hs ht
    refine and_congr hiff (forall_congr' fun u => ?_)
    refine forall_congr' fun hu => ?_
    rw [← Option.some.inj (ht.symm.trans hu)]
    exact ih hI hr

/-- **Exactness rule**: when each step from a state with `I` keeps `P` exactly if it meets `C`, a run keeps `P`
exactly if all its steps meet `C`. -/
theorem run_iff_allSteps {I P : σ → Prop}
    (hstep : ∀ s a s', I s → step s a = some s' → I s' ∧ (P s' ↔ P s ∧ C s a))
    (hs : I s) (h : run step s as = some s') :
    P s' ↔ P s ∧ AllSteps step C s as := by
  induction as generalizing s with
  | nil =>
    cases h
    exact (and_iff_left trivial).symm
  | cons a as ih =>
    obtain ⟨t, ht, hr⟩ := run_cons_eq_some.mp h
    obtain ⟨hI, hkeeps⟩ := hstep s a t hs ht
    rw [ih hI hr, hkeeps, and_assoc]
    refine and_congr_right fun _ => and_congr_right fun _ => ?_
    refine ⟨fun hrest u hu => ?_, fun hrest => hrest t ht⟩
    rw [← Option.some.inj (ht.symm.trans hu)]
    exact hrest

/-- **Exactness rule for all states of a run**: when each step from a state with `P` leads to one with `P` exactly
if it meets `C`, all states of a run have `P` exactly if all its steps meet `C`. -/
theorem forall_prefix_iff_allSteps {P : σ → Prop}
    (hstep : ∀ s a s', P s → step s a = some s' → (P s' ↔ C s a))
    (hs : P s) (h : run step s as = some s') :
    (∀ pre t, pre <+: as → run step s pre = some t → P t) ↔ AllSteps step C s as := by
  induction as generalizing s with
  | nil =>
    refine ⟨fun _ => trivial, fun _ pre t hpre ht => ?_⟩
    rw [List.prefix_nil.mp hpre] at ht
    cases ht
    exact hs
  | cons a as ih =>
    obtain ⟨u, hu, hrest⟩ := run_cons_eq_some.mp h
    have hfirst := hstep s a u hs hu
    constructor
    · intro hall
      have hP : P u := by
        refine hall [a] u (List.prefix_append [a] as) ?_
        rw [run_cons_eq_some]
        exact ⟨u, hu, rfl⟩
      refine ⟨hfirst.mp hP, fun v hv => ?_⟩
      obtain rfl : u = v := Option.some.inj (hu.symm.trans hv)
      refine (ih hP hrest).mp fun pre t hpre ht => ?_
      exact hall (a :: pre) t (List.cons_prefix_cons.mpr ⟨rfl, hpre⟩) (run_cons_eq_some.mpr ⟨u, hu, ht⟩)
    · rintro ⟨hC, hlater⟩ pre t hpre ht
      cases pre with
      | nil =>
        cases ht
        exact hs
      | cons b pre =>
        obtain ⟨rfl, htail⟩ := List.cons_prefix_cons.mp hpre
        obtain ⟨v, hv, ht⟩ := run_cons_eq_some.mp ht
        obtain rfl : u = v := Option.some.inj (hu.symm.trans hv)
        exact (ih (hfirst.mpr hC) hrest).mpr (hlater u hu) pre t htail ht

end CyberControl.Transition
