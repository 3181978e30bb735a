import CyberControl.TaskQueue

/-! # Overlapping calls of a circuit breaker

`CircuitBreaker.execute` of `infrastructure/resilience.py` as a system of calls that overlap: an operation runs
between the two locked sections of its call, and other calls come and go in the meantime.  A locked section is
never held across a wait, so it is one action; the clock is monotonic. -/

namespace CyberControl.CircuitBreaker

open TaskQueue Transition

/-! ### Calls -/

/-- The parameters of a breaker. -/
structure Config where
  failureThreshold : ℕ
  resetTimeout : ℕ

/-- A failure opened the breaker, or an operation was started. -/
inductive Event where
  | opened (time : ℕ)
  | started (time : ℕ)

/-- A breaker with its running operations: `plain` were admitted while it was closed, `probes` while it was
half open. -/
structure System where
  breaker : CircuitBreaker
  clock : ℕ
  plain : ℕ
  probes : ℕ
  log : List Event

def initial : System := ⟨.new, 0, 0, 0, []⟩

/-- A call, or the end of a running operation: it returns, raises an `Exception`, or is cancelled, which
`except Exception` does not catch. -/
inductive Action where
  | call (now : ℕ)
  | succeed (probe : Bool) (now : ℕ)
  | fail (probe : Bool) (now : ℕ)
  | cancel (probe : Bool) (now : ℕ)

def Action.time : Action → ℕ
  | .call now => now
  | .succeed _ now => now
  | .fail _ now => now
  | .cancel _ now => now

/-- The running operations of a kind. -/
def System.running (s : System) (probe : Bool) : ℕ := if probe then s.probes else s.plain

/-- An operation has ended. -/
def System.leave (s : System) (probe : Bool) (now : ℕ) : System :=
  { s with
    clock := now
    plain := if probe then s.plain else s.plain - 1
    probes := if probe then s.probes - 1 else s.probes }

/-- The first locked section, and the start of the operation. -/
def System.call (c : Config) (s : System) (now : ℕ) : System :=
  let admitted := s.breaker.enter c.resetTimeout now
  let s := { s with breaker := admitted.1, clock := now }
  if admitted.2 then
    let s := { s with log := s.log ++ [Event.started now] }
    if admitted.1.state = .HALF_OPEN then { s with probes := s.probes + 1 }
    else { s with plain := s.plain + 1 }
  else s

/-- The locked section after an exception. -/
def System.failed (c : Config) (s : System) (now : ℕ) : System :=
  let breaker := s.breaker.fail c.failureThreshold now
  { s with
    breaker
    log := if s.breaker.state = .HALF_OPEN ∨ c.failureThreshold ≤ s.breaker.failures + 1 then
      s.log ++ [Event.opened now] else s.log }

def step (c : Config) (s : System) (a : Action) : Option System :=
  if s.clock ≤ a.time then
    match a with
    | .call now => some (s.call c now)
    | .succeed probe now =>
      if 0 < s.running probe then
        some { s.leave probe now with breaker := s.breaker.succeed }
      else none
    | .fail probe now => if 0 < s.running probe then some ((s.leave probe now).failed c now) else none
    | .cancel probe now => if 0 < s.running probe then some (s.leave probe now) else none
  else none

/-! ### What a step does -/

variable {a : Action}

section steps
variable {c : Config} {s s' : System}

/-- **How `execute` answers**: it refuses within the timeout, starts the operation of a closed breaker, and
otherwise starts a probe if none is in flight. -/
theorem enter_cases (b : CircuitBreaker) (reset now : ℕ) :
    (b.state = .OPEN ∧ now - b.openedAt < reset ∧ b.enter reset now = (b, false)) ∨
      (b.state = .CLOSED ∧ b.enter reset now = (b, true)) ∨
      ((b.state = .OPEN → reset ≤ now - b.openedAt) ∧ b.state ≠ .CLOSED ∧
        b.enter reset now = ({ b with state := .HALF_OPEN, halfOpenProbeInFlight := true },
          !b.halfOpenProbeInFlight)) := by
  obtain ⟨state, failures, openedAt, inFlight⟩ := b
  cases state with
  | CLOSED => exact .inr (.inl ⟨rfl, rfl⟩)
  | HALF_OPEN =>
    refine .inr (.inr ⟨by simp, by simp, ?_⟩)
    cases inFlight with
    | false => rfl
    | true => rfl
  | OPEN =>
    by_cases hearly : now - openedAt < reset
    · exact .inl ⟨rfl, hearly, if_pos ⟨rfl, hearly⟩⟩
    · refine .inr (.inr ⟨fun _ => not_lt.mp hearly, by simp, ?_⟩)
      unfold CircuitBreaker.enter
      rw [if_neg fun h => hearly h.2]
      cases inFlight with
      | false => rfl
      | true => rfl

theorem call_cases (c : Config) (s : System) (now : ℕ) :
    (s.breaker.state = .OPEN ∧ now - s.breaker.openedAt < c.resetTimeout ∧
        s.call c now = { s with clock := now }) ∨
      (s.breaker.state = .CLOSED ∧
        s.call c now = { s with clock := now, plain := s.plain + 1, log := s.log ++ [.started now] }) ∨
      ((s.breaker.state = .OPEN → c.resetTimeout ≤ now - s.breaker.openedAt) ∧ s.breaker.state ≠ .CLOSED ∧
        s.breaker.halfOpenProbeInFlight = true ∧
        s.call c now = { s with
          breaker := { s.breaker with state := .HALF_OPEN, halfOpenProbeInFlight := true }, clock := now }) ∨
      ((s.breaker.state = .OPEN → c.resetTimeout ≤ now - s.breaker.openedAt) ∧ s.breaker.state ≠ .CLOSED ∧
        s.breaker.halfOpenProbeInFlight = false ∧
        s.call c now = { s with
          breaker := { s.breaker with state := .HALF_OPEN, halfOpenProbeInFlight := true }, clock := now,
          probes := s.probes + 1, log := s.log ++ [.started now] }) := by
  unfold System.call
  rcases enter_cases s.breaker c.resetTimeout now with ⟨hopen, hearly, h⟩ | ⟨hclosed, h⟩ | ⟨hlate, hne, h⟩
  · rw [h]
    exact .inl ⟨hopen, hearly, rfl⟩
  · rw [h]
    refine .inr (.inl ⟨hclosed, ?_⟩)
    dsimp only
    rw [if_pos rfl, if_neg (by rw [hclosed]; decide)]
  · rw [h]
    cases hflag : s.breaker.halfOpenProbeInFlight with
    | true => exact .inr (.inr (.inl ⟨hlate, hne, rfl, rfl⟩))
    | false => exact .inr (.inr (.inr ⟨hlate, hne, rfl, rfl⟩))

/-- **The actions.** -/
theorem step_cases (h : step c s a = some s') : s.clock ≤ a.time ∧
    ((∃ now, a = .call now ∧ s' = s.call c now) ∨
      (∃ probe now, a = .succeed probe now ∧ 0 < s.running probe ∧
        s' = { s.leave probe now with breaker := s.breaker.succeed }) ∨
      (∃ probe now, a = .fail probe now ∧ 0 < s.running probe ∧ s' = (s.leave probe now).failed c now) ∨
      ∃ probe now, a = .cancel probe now ∧ 0 < s.running probe ∧ s' = s.leave probe now) := by
  unfold step at h
  split_ifs at h with hclock
  refine ⟨hclock, ?_⟩
  cases a with
  | call now => exact .inl ⟨now, rfl, (Option.some.inj h).symm⟩
  | succeed probe now =>
    obtain ⟨hrunning, hs⟩ := guarded_eq_some.mp h
    exact .inr (.inl ⟨probe, now, rfl, hrunning, hs.symm⟩)
  | fail probe now =>
    obtain ⟨hrunning, hs⟩ := guarded_eq_some.mp h
    exact .inr (.inr (.inl ⟨probe, now, rfl, hrunning, hs.symm⟩))
  | cancel probe now =>
    obtain ⟨hrunning, hs⟩ := guarded_eq_some.mp h
    exact .inr (.inr (.inr ⟨probe, now, rfl, hrunning, hs.symm⟩))

theorem fail_cases (b : CircuitBreaker) (threshold now : ℕ) :
    ((b.state = .HALF_OPEN ∨ threshold ≤ b.failures + 1) ∧
        b.fail threshold now = ⟨.OPEN, b.failures + 1, now, false⟩) ∨
      (¬ (b.state = .HALF_OPEN ∨ threshold ≤ b.failures + 1) ∧
        b.fail threshold now = ⟨b.state, b.failures + 1, b.openedAt, false⟩) := by
  by_cases hopens : b.state = .HALF_OPEN ∨ threshold ≤ b.failures + 1
  · exact .inl ⟨hopens, if_pos hopens⟩
  · exact .inr ⟨hopens, if_neg hopens⟩

end steps

/-! ### Admission -/

variable {now : ℕ}

section admission
variable {c : Config} {s s' : System}

/-- No operation is started within the timeout after a failure that opened the breaker. -/
def Event.Spaced (reset : ℕ) (a b : Event) : Prop :=
  ∀ t u, a = .opened t → b = .started u → t + reset ≤ u

structure Admission (reset : ℕ) (s : System) : Prop where
  spaced : s.log.Pairwise (Event.Spaced reset)
  probes_le : s.probes ≤ 1

/-- No outcome comes from an operation that was admitted in another state: while the breaker is open no
success comes before the timeout is over, and while a probe runs only the probe ends by itself. -/
def Timely (c : Config) (s : System) : Action → Prop
  | .succeed probe now => (s.breaker.state = .OPEN → s.breaker.openedAt + c.resetTimeout ≤ now) ∧
      (probe = false → s.probes = 0)
  | .fail probe _ => probe = false → s.probes = 0
  | .call _ => True
  | .cancel _ _ => True

instance (c : Config) (s : System) : DecidablePred (Timely c s)
  | .succeed _ _ => inferInstanceAs (Decidable (_ ∧ _))
  | .fail _ _ => inferInstanceAs (Decidable (_ → _))
  | .call _ => .isTrue trivial
  | .cancel _ _ => .isTrue trivial

/-- What holds after actions that are timely. -/
structure Guarded (reset : ℕ) (s : System) : Prop extends Admission reset s where
  probe : 0 < s.probes → s.breaker.state = .HALF_OPEN ∧ s.breaker.halfOpenProbeInFlight = true
  opened_le : ∀ t, .opened t ∈ s.log → t ≤ s.breaker.openedAt
  openedAt_le : s.breaker.openedAt ≤ s.clock
  elapsed : s.breaker.state ≠ .OPEN → ∀ t, .opened t ∈ s.log → t + reset ≤ s.clock

theorem guarded_initial (reset : ℕ) : Guarded reset initial where
  spaced := .nil
  probes_le := Nat.zero_le 1
  probe h := absurd h (Nat.lt_irrefl 0)
  opened_le t h := by cases h
  openedAt_le := le_refl 0
  elapsed _ t h := by cases h

variable {log : List Event}

theorem pairwise_started {reset now : ℕ} (h : log.Pairwise (Event.Spaced reset))
    (helapsed : ∀ t, .opened t ∈ log → t + reset ≤ now) :
    (log ++ [Event.started now]).Pairwise (Event.Spaced reset) := by
  refine List.pairwise_append.mpr ⟨h, List.pairwise_singleton _ _, ?_⟩
  rintro a ha b hb t u rfl rfl
  cases List.mem_singleton.mp hb
  exact helapsed t ha

theorem pairwise_opened {reset now : ℕ} (h : log.Pairwise (Event.Spaced reset)) :
    (log ++ [Event.opened now]).Pairwise (Event.Spaced reset) := by
  refine List.pairwise_append.mpr ⟨h, List.pairwise_singleton _ _, ?_⟩
  rintro a ha b hb t u rfl rfl
  cases List.mem_singleton.mp hb

theorem opened_mem_started {now t : ℕ} (h : .opened t ∈ log ++ [Event.started now]) :
    .opened t ∈ log := by
  rcases List.mem_append.mp h with h | h
  · exact h
  · cases List.mem_singleton.mp h

theorem Guarded.elapsed_at (h : Guarded c.resetTimeout s) (hclock : s.clock ≤ now)
    (hlate : s.breaker.state = .OPEN → c.resetTimeout ≤ now - s.breaker.openedAt) {t : ℕ}
    (ht : .opened t ∈ s.log) : t + c.resetTimeout ≤ now := by
  by_cases hopen : s.breaker.state = .OPEN
  · have hle := h.opened_le t ht
    have hlate := hlate hopen
    have hopened := h.openedAt_le
    omega
  · exact (h.elapsed hopen t ht).trans hclock

theorem Guarded.call (h : Guarded c.resetTimeout s) (hclock : s.clock ≤ now) :
    Guarded c.resetTimeout (s.call c now) := by
  rcases call_cases c s now with ⟨hopen, -, heq⟩ | ⟨hclosed, heq⟩ | ⟨hlate, -, hflag, heq⟩ |
    ⟨hlate, hne, hflag, heq⟩
  · rw [heq]
    exact { h with
      openedAt_le := h.openedAt_le.trans hclock
      elapsed := fun hnot => absurd hopen hnot }
  · have hlate : s.breaker.state = .OPEN → c.resetTimeout ≤ now - s.breaker.openedAt := fun hopen => by
      rw [hclosed] at hopen
      cases hopen
    rw [heq]
    exact { h with
      spaced := pairwise_started h.spaced fun t => h.elapsed_at hclock hlate
      opened_le := fun t ht => h.opened_le t (opened_mem_started ht)
      openedAt_le := h.openedAt_le.trans hclock
      elapsed := fun _ t ht => h.elapsed_at hclock hlate (opened_mem_started ht) }
  · rw [heq]
    exact { h with
      probe := fun _ => ⟨rfl, rfl⟩
      openedAt_le := h.openedAt_le.trans hclock
      elapsed := fun _ t ht => h.elapsed_at hclock hlate ht }
  · have hprobes : s.probes = 0 := by
      by_contra hpos
      have hflag' := (h.probe (Nat.pos_of_ne_zero hpos)).2
      rw [hflag] at hflag'
      cases hflag'
    rw [heq]
    exact {
      spaced := pairwise_started h.spaced fun t => h.elapsed_at hclock hlate
      probes_le := by
        change s.probes + 1 ≤ 1
        omega
      probe := fun _ => ⟨rfl, rfl⟩
      opened_le := fun t ht => h.opened_le t (opened_mem_started ht)
      openedAt_le := h.openedAt_le.trans hclock
      elapsed := fun _ t ht => h.elapsed_at hclock hlate (opened_mem_started ht) }

variable {probe : Bool}

theorem Guarded.leave_probes (h : Guarded c.resetTimeout s) (now : ℕ)
    (hrunning : 0 < s.running probe) (hprobe : probe = false → s.probes = 0) :
    (s.leave probe now).probes = 0 := by
  have hle := h.probes_le
  cases probe with
  | false => exact hprobe rfl
  | true =>
    change s.probes - 1 = 0
    omega

theorem Guarded.fail (h : Guarded c.resetTimeout s) (hclock : s.clock ≤ now)
    (hrunning : 0 < s.running probe) (hprobe : probe = false → s.probes = 0) :
    Guarded c.resetTimeout ((s.leave probe now).failed c now) := by
  have hnone := h.leave_probes now hrunning hprobe
  have hopenedAt := h.openedAt_le
  unfold System.failed
  rcases fail_cases (s.leave probe now).breaker c.failureThreshold now with ⟨hopens, heq⟩ | ⟨hopens, heq⟩
  · dsimp only
    rw [heq, if_pos hopens]
    exact {
      spaced := pairwise_opened h.spaced
      probes_le := hnone ▸ Nat.zero_le 1
      probe := fun hpos => absurd (hnone ▸ hpos) (Nat.lt_irrefl 0)
      opened_le := by
        intro t ht
        rcases List.mem_append.mp ht with ht | ht
        · have hle := h.opened_le t ht
          change t ≤ now
          omega
        · cases List.mem_singleton.mp ht
          exact le_refl _
      openedAt_le := le_refl now
      elapsed := fun hnot => absurd rfl hnot }
  · dsimp only
    rw [heq, if_neg hopens]
    exact {
      spaced := h.spaced
      probes_le := hnone ▸ Nat.zero_le 1
      probe := fun hpos => absurd (hnone ▸ hpos) (Nat.lt_irrefl 0)
      opened_le := h.opened_le
      openedAt_le := hopenedAt.trans hclock
      elapsed := fun hnot t ht => (h.elapsed hnot t ht).trans hclock }

theorem Guarded.succeed (h : Guarded c.resetTimeout s) (hclock : s.clock ≤ now)
    (hrunning : 0 < s.running probe) (hprobe : probe = false → s.probes = 0)
    (hlate : s.breaker.state = .OPEN → s.breaker.openedAt + c.resetTimeout ≤ now) :
    Guarded c.resetTimeout { s.leave probe now with breaker := s.breaker.succeed } := by
  have hnone := h.leave_probes now hrunning hprobe
  have hlate' : s.breaker.state = .OPEN → c.resetTimeout ≤ now - s.breaker.openedAt := fun hopen => by
    have := hlate hopen
    omega
  exact {
    spaced := h.spaced
    probes_le := hnone ▸ Nat.zero_le 1
    probe := fun hpos => absurd (hnone ▸ hpos) (Nat.lt_irrefl 0)
    opened_le := h.opened_le
    openedAt_le := h.openedAt_le.trans hclock
    elapsed := fun _ t ht => h.elapsed_at hclock hlate' ht }

theorem Guarded.cancel (h : Guarded c.resetTimeout s) (hclock : s.clock ≤ now) :
    Guarded c.resetTimeout (s.leave probe now) := by
  have hle : (s.leave probe now).probes ≤ s.probes := by
    cases probe with
    | false => exact le_refl _
    | true => exact Nat.sub_le _ _
  exact {
    spaced := h.spaced
    probes_le := hle.trans h.probes_le
    probe := fun hpos => h.probe (hpos.trans_le hle)
    opened_le := h.opened_le
    openedAt_le := h.openedAt_le.trans hclock
    elapsed := fun hnot t ht => (h.elapsed hnot t ht).trans hclock }

/-- **Step lemma.** -/
theorem Guarded.of_step (h : Guarded c.resetTimeout s) (htimely : Timely c s a)
    (hstep : step c s a = some s') : Guarded c.resetTimeout s' := by
  obtain ⟨hclock, ⟨now, rfl, rfl⟩ | ⟨probe, now, rfl, hrunning, rfl⟩ | ⟨probe, now, rfl, hrunning, rfl⟩ |
    ⟨probe, now, rfl, -, rfl⟩⟩ := step_cases hstep
  · exact h.call hclock
  · exact h.succeed hclock hrunning htimely.2 htimely.1
  · exact h.fail hclock hrunning htimely
  · exact h.cancel hclock

/-- **Admission**: in a run of timely actions, nothing starts within the timeout of a failure that opened the
breaker, and at most one probe runs. -/
theorem admission {as : List Action} (htimely : AllSteps (step c) (Timely c) initial as)
    (h : run (step c) initial as = some s) : Admission c.resetTimeout s :=
  (run_invariant_of (fun _ _ _ hs hC hstep => hs.of_step hC hstep) (guarded_initial _) htimely h).toAdmission

section sample

def sampleConfig : Config := ⟨1, 30⟩

/-- A failure opens the breaker, and the probe after the timeout closes it. -/
theorem admission_sample : ∃ s ∈ run (step sampleConfig) initial
    [.call 0, .fail false 1, .call 31, .succeed true 32], Admission 30 s ∧ s.breaker.state = .CLOSED := by
  have htimely : AllSteps (step sampleConfig) (Timely sampleConfig) initial
      [.call 0, .fail false 1, .call 31, .succeed true 32] := by decide
  exact ⟨_, rfl, admission htimely rfl, rfl⟩

/-- **An outcome of an operation that was admitted earlier** closes the breaker one moment after it was opened,
and lets a second probe in beside the first. -/
theorem stale_outcomes :
    (∃ s ∈ run (step sampleConfig) initial
        [.call 0, .call 0, .fail false 1, .succeed false 2, .call 3], ¬ Admission 30 s) ∧
      ∃ s ∈ run (step sampleConfig) initial
        [.call 0, .call 0, .fail false 1, .call 31, .fail false 32, .call 62], ¬ Admission 30 s := by
  constructor
  · refine ⟨_, rfl, fun h => ?_⟩
    have hspaced : [Event.started 0, .started 0, .opened 1, .started 3].Pairwise (Event.Spaced 30) := h.spaced
    have hearly := List.rel_of_pairwise_cons hspaced.tail.tail (List.mem_singleton_self _) 1 3 rfl rfl
    omega
  · refine ⟨_, rfl, fun h => ?_⟩
    exact absurd h.probes_le (by decide)

end sample

end admission

/-! ### Recovery -/

section recovery
variable {c : Config} {s s' : System}

/-- The probe flag stands for a running probe. -/
def Backed (s : System) : Prop := s.breaker.halfOpenProbeInFlight = true → 0 < s.probes

/-- The last running probe is not cancelled while the flag is set for it. -/
def KeepsProbe (s : System) : Action → Prop
  | .cancel true _ => s.breaker.halfOpenProbeInFlight = true → 1 < s.probes
  | .cancel false _ => True
  | .call _ => True
  | .succeed _ _ => True
  | .fail _ _ => True

instance (s : System) : DecidablePred (KeepsProbe s)
  | .cancel true _ => inferInstanceAs (Decidable (_ → _))
  | .cancel false _ => .isTrue trivial
  | .call _ => .isTrue trivial
  | .succeed _ _ => .isTrue trivial
  | .fail _ _ => .isTrue trivial

theorem failed_inFlight (now : ℕ) : (s.failed c now).breaker.halfOpenProbeInFlight = false := by
  unfold System.failed
  rcases fail_cases s.breaker c.failureThreshold now with ⟨-, heq⟩ | ⟨-, heq⟩
  · dsimp only
    rw [heq]
  · dsimp only
    rw [heq]

/-- **What a step does to the flag**: only a cancelled probe leaves it behind. -/
theorem backed_iff (h : Backed s) (hstep : step c s a = some s') :
    Backed s' ↔ KeepsProbe s a := by
  obtain ⟨-, ⟨now, rfl, rfl⟩ | ⟨probe, now, rfl, hrunning, rfl⟩ | ⟨probe, now, rfl, hrunning, rfl⟩ |
    ⟨probe, now, rfl, -, rfl⟩⟩ := step_cases hstep
  · refine iff_of_true ?_ trivial
    rcases call_cases c s now with ⟨-, -, heq⟩ | ⟨-, heq⟩ | ⟨-, -, hflag, heq⟩ | ⟨-, -, -, heq⟩
    · rw [heq]
      exact h
    · rw [heq]
      exact h
    · rw [heq]
      exact fun _ => h hflag
    · rw [heq]
      exact fun _ => Nat.succ_pos _
  · refine iff_of_true (fun hflag => ?_) trivial
    cases hflag
  · refine iff_of_true (fun hflag => ?_) trivial
    rw [failed_inFlight] at hflag
    cases hflag
  · cases probe with
    | false => exact iff_of_true h trivial
    | true =>
      change (s.breaker.halfOpenProbeInFlight = true → 0 < s.probes - 1) ↔
        (s.breaker.halfOpenProbeInFlight = true → 1 < s.probes)
      refine imp_congr_right fun _ => ?_
      omega

theorem Backed.admits (h : Backed s) (hidle : s.probes = 0)
    (hlate : s.breaker.state = .OPEN → s.breaker.openedAt + c.resetTimeout ≤ now) :
    (s.breaker.enter c.resetTimeout now).2 = true := by
  rcases enter_cases s.breaker c.resetTimeout now with ⟨hopen, hearly, -⟩ | ⟨-, heq⟩ | ⟨-, -, heq⟩
  · have hle := hlate hopen
    omega
  · rw [heq]
  · rw [heq]
    cases hflag : s.breaker.halfOpenProbeInFlight with
    | false => rfl
    | true =>
      have hpos := h hflag
      omega

/-- **A breaker never wedges**, in all states of a run, exactly when none of its steps cancels the last probe
under the flag. -/
theorem never_wedges {as : List Action} (h : run (step c) initial as = some s) :
    ((∀ pre t, pre <+: as → run (step c) initial pre = some t → Backed t) ↔
        AllSteps (step c) KeepsProbe initial as) ∧
      (AllSteps (step c) KeepsProbe initial as →
        ∀ pre t, pre <+: as → run (step c) initial pre = some t → t.probes = 0 →
          ∀ now, (t.breaker.state = .OPEN → t.breaker.openedAt + c.resetTimeout ≤ now) →
            (t.breaker.enter c.resetTimeout now).2 = true) := by
  have hiff := forall_prefix_iff_allSteps (P := Backed) (C := KeepsProbe)
    (fun _ _ _ hs hstep => backed_iff hs hstep) (fun hflag => absurd hflag Bool.false_ne_true) h
  exact ⟨hiff, fun hkeeps pre t hpre ht hidle now hlate => (hiff.mpr hkeeps pre t hpre ht).admits hidle hlate⟩

section sample

theorem never_wedges_sample : ∃ s ∈ run (step sampleConfig) initial
    [.call 0, .fail false 1, .call 31, .fail true 32, .call 70], Backed s := by
  have hkeeps : AllSteps (step sampleConfig) KeepsProbe initial
      [.call 0, .fail false 1, .call 31, .fail true 32, .call 70] := by decide
  exact ⟨_, rfl, (never_wedges rfl).1.mpr hkeeps _ _ (List.prefix_refl _) rfl⟩

/-- **A cancelled probe shuts the breaker for ever**: nothing runs, and every later call is refused. -/
theorem cancelled_probe : ∃ s ∈ run (step sampleConfig) initial
    [.call 0, .fail false 1, .call 31, .cancel true 32], ¬ Backed s ∧ s.plain = 0 ∧ s.probes = 0 ∧
      ∀ now, (s.breaker.enter 30 now).2 = false := by
  refine ⟨_, rfl, fun h => ?_, rfl, rfl, fun now => rfl⟩
  exact absurd (h rfl) (by decide)

end sample

end recovery

end CyberControl.CircuitBreaker
