import CyberControl.Collections
import CyberControl.WorkflowRounds

/-! # Resuming an interrupted workflow

What one run of `_execute_dag` makes of a snapshot that interrupted runs have left. -/

namespace CyberControl.Workflow

variable {agent : AgentExecutionContext → Outcome} {blueprint : Blueprint}

/-! ### Invariants of the rounds -/

variable {task : AgentTaskRecord} {i : ℕ}

section rounds

variable {run result : DagRun}

theorem Rounds.commits (h : Rounds agent blueprint run result) :
    Relation.ReflTransGen Commit run.snapshot result.snapshot := by
  induction h with
  | done _ => exact .refl
  | stuck _ hsweep _ hlast => exact hsweep.commits.trans hlast.commits
  | next _ hsweep _ _ hran _ ih => exact (hsweep.commits.trans hran.commits).trans ih

theorem Rounds.ids (h : Rounds agent blueprint run result) :
    result.snapshot.tasks.ids = run.snapshot.tasks.ids := by
  induction h with
  | done _ => rfl
  | stuck _ hsweep _ hlast => exact hlast.ids.trans hsweep.ids
  | next _ hsweep _ _ hran _ ih => exact ih.trans (hran.ids.trans hsweep.ids)

theorem isReady_actionable {tasks : TaskById} (h : isReady tasks task) :
    task.actionable :=
  (isReady_iff.mp h).1

theorem isUnresolved_actionable (h : isUnresolved task) :
    task.actionable := by
  simp only [isUnresolved, decide_eq_true_eq] at h
  exact AgentTaskRecord.actionable_iff.mpr (h.imp_right Or.inl)

theorem Rounds.kept (h : Rounds agent blueprint run result)
    (hi : i ∈ run.snapshot.tasks.ids) (hsettled : (run.snapshot.tasks.task i).actionable = false) :
    result.snapshot.tasks.task i = run.snapshot.tasks.task i := by
  induction h with
  | done _ => rfl
  | @stuck run swept last hs hsweep _ hlast =>
    have hsame : swept.tasks.task i = run.snapshot.tasks.task i := by
      rcases hsweep.atTask hs hi with hsame | ⟨hactionable, -⟩
      · exact hsame
      · rw [hsettled] at hactionable
        cases hactionable
    rcases hlast.atTask (hs.commits hsweep.commits) (hsweep.ids ▸ hi) with ⟨-, hlast⟩ | ⟨hun, -⟩
    · exact hlast.trans hsame
    · rw [hsame] at hun
      rw [isUnresolved_actionable hun] at hsettled
      cases hsettled
  | @next run result swept after batch outcomes hs hsweep hbatch _ hran _ ih =>
    have hsame : swept.tasks.task i = run.snapshot.tasks.task i := by
      rcases hsweep.atTask hs hi with hsame | ⟨hactionable, -⟩
      · exact hsame
      · rw [hsettled] at hactionable
        cases hactionable
    have hafter : after.tasks.task i = run.snapshot.tasks.task i := by
      rcases hran.atTask hbatch i with ⟨hafter, -⟩ | ⟨-, hready, -⟩
      · exact hafter.trans hsame
      · rw [hsame] at hready
        rw [isReady_actionable hready] at hsettled
        cases hsettled
    have hids : after.tasks.ids = run.snapshot.tasks.ids := hran.ids.trans hsweep.ids
    exact (ih (hids ▸ hi) (hafter ▸ hsettled)).trans hafter

theorem Rounds.settled (h : Rounds agent blueprint run result)
    (hi : i ∈ run.snapshot.tasks.ids) : (result.snapshot.tasks.task i).actionable = false := by
  induction h with
  | done hnil => exact unsettledTasks_eq_nil.mp hnil i hi
  | @stuck run swept last hs hsweep hready hlast =>
    have hswept := hs.commits hsweep.commits
    have hmem : i ∈ swept.tasks.ids := hsweep.ids ▸ hi
    rcases hlast.atTask hswept hmem with ⟨hun, hsame⟩ | ⟨-, hskip⟩
    · show (last.tasks.task i).actionable = false
      rw [hsame]
      by_contra hactionable
      rw [Bool.not_eq_false] at hactionable
      have hretry : (swept.tasks.task i).mayRetry := by
        simp only [isUnresolved, decide_eq_false_iff_not, not_or] at hun
        rcases AgentTaskRecord.actionable_iff.mp hactionable with h | h | h
        · exact absurd h hun.1
        · exact absurd h hun.2
        · exact h
      have hdeps := hswept.started i hmem (Or.inr (Or.inr (AgentTaskRecord.mayRetry_state hretry)))
      have hnot := hready i hmem
      rw [isReady_iff.mpr ⟨hactionable, hdeps⟩] at hnot
      cases hnot
    · show (last.tasks.task i).actionable = false
      rw [hskip]
      exact (lost_skipTask _ _).not_actionable
  | @next run result swept after batch outcomes hs hsweep hbatch _ hran _ ih =>
    have hids : after.tasks.ids = run.snapshot.tasks.ids := hran.ids.trans hsweep.ids
    exact ih (hids ▸ hi)

/-- An agent is called only after the dependencies have succeeded, and within `max_attempts`. -/
def AgentCall.Allowed (call : AgentCall) : Prop :=
  call.tasks.DependenciesSucceeded (call.tasks.task call.context.taskId) ∧
    call.context.attempt ≤ (call.tasks.task call.context.taskId).maxAttempts

theorem Rounds.allowed (h : Rounds agent blueprint run result)
    (hrun : ∀ call ∈ run.calls, call.Allowed) : ∀ call ∈ result.calls, call.Allowed := by
  induction h with
  | done _ => exact hrun
  | stuck _ _ _ _ => exact hrun
  | @next run result swept after batch outcomes hs hsweep hbatch houtcomes hran _ ih =>
    refine ih ?_
    intro call hcall
    rcases List.mem_append.mp hcall with hcall | hcall
    · exact hrun call hcall
    · obtain ⟨outcome, houtcome, hcall⟩ := List.mem_flatMap.mp hcall
      obtain ⟨task, htask, -, hsettles⟩ := exists_of_mem_right houtcomes houtcome
      obtain ⟨htasks, hid, hattempt⟩ := hsettles.call call hcall
      obtain ⟨-, hcurrent, hready⟩ := hbatch.ready task htask
      rw [AgentCall.Allowed, htasks, hid, hcurrent]
      exact ⟨(isReady_iff.mp hready).2, hattempt⟩

/-- How often the agent of one task has been called. -/
def callsOf (i : ℕ) (calls : List AgentCall) : ℕ :=
  calls.countP fun call => call.context.taskId = i

/-- The executions a task may still get. -/
def budget (task : AgentTaskRecord) : ℕ := if task.actionable then executionsLeft task else 0

theorem budget_of_settled (h : task.actionable = false) :
    budget task = 0 := by
  simp [budget, h]

theorem Rounds.callsOf_le (h : Rounds agent blueprint run result)
    (hi : i ∈ run.snapshot.tasks.ids) :
    callsOf i result.calls ≤ callsOf i run.calls + budget (run.snapshot.tasks.task i) := by
  induction h with
  | done _ => exact Nat.le_add_right _ _
  | stuck _ _ _ _ => exact Nat.le_add_right _ _
  | @next run result swept after batch outcomes hs hsweep hbatch houtcomes hran _ ih =>
    have hids : after.tasks.ids = run.snapshot.tasks.ids := hran.ids.trans hsweep.ids
    have hrest := ih (hids ▸ hi)
    have hswept : budget (swept.tasks.task i) ≤ budget (run.snapshot.tasks.task i) := by
      rcases hsweep.atTask hs hi with hsame | ⟨-, hskip, -⟩
      · rw [hsame]
      · rw [hskip, budget_of_settled (lost_skipTask _ _).not_actionable]
        exact Nat.zero_le _
    have hsplit : callsOf i (run.calls ++ outcomes.flatMap (·.calls)) =
        callsOf i run.calls + callsOf i (outcomes.flatMap (·.calls)) := List.countP_append
    rw [hsplit] at hrest
    rcases hran.atTask hbatch i with ⟨hafter, hne⟩ | ⟨hmem, hready, outcome, houtcome, hafter⟩
    · rcases count_calls houtcomes hbatch.nodup i with ⟨-, hzero⟩ | ⟨task, htask, hid, -⟩
      · rw [hafter] at hrest
        unfold callsOf at *
        omega
      · exact absurd hid (hne task htask)
    · rw [hafter, budget_of_settled houtcome.2.settled] at hrest
      rcases count_calls houtcomes hbatch.nodup i with ⟨hne, -⟩ | ⟨task, htask, hid, hcount⟩
      · exact absurd ((hs.commits hsweep.commits).taskId_eq (hsweep.ids ▸ hi)) (hne _ hmem)
      · obtain ⟨-, hcurrent, -⟩ := hbatch.ready task htask
        rw [hid] at hcurrent
        have hbudget : executionsLeft task = budget (swept.tasks.task i) := by
          rw [hcurrent, budget, if_pos (hcurrent ▸ isReady_actionable hready)]
        unfold callsOf at *
        omega

theorem mayRetry_actionable (h : task.mayRetry) : task.actionable :=
  AgentTaskRecord.actionable_iff.mpr (Or.inr (Or.inr h))

theorem pending_of_blocking {s swept : Snapshot} (hs : Sound blueprint s) {i d : ℕ}
    (hi : i ∈ s.tasks.ids) (hactionable : (s.tasks.task i).actionable)
    (hd : d ∈ (s.tasks.task i).dependencyTaskIds) (hsweep : Swept (unsettledTasks s) s swept)
    (hblocking : (swept.tasks.task d).state.blocking) : (s.tasks.task i).state = .pending := by
  have hnot : (s.tasks.task d).state ≠ .succeeded := by
    intro hsucceeded
    rcases hsweep.atTask hs (hs.dependency_mem hi hd) with hsame | ⟨hact, -⟩
    · rw [hsame, hsucceeded] at hblocking
      cases hblocking
    · rw [AgentTaskRecord.not_actionable_iff.mpr (Or.inl hsucceeded)] at hact
      cases hact
  rcases AgentTaskRecord.actionable_iff.mp hactionable with h | h | h
  · exact h
  · exact absurd (hs.started i hi (Or.inl h) d hd) hnot
  · have hfailed := AgentTaskRecord.mayRetry_state h
    exact absurd (hs.started i hi (Or.inr (Or.inr hfailed)) d hd) hnot

theorem Rounds.skips_blocked (h : Rounds agent blueprint run result) {i d : ℕ}
    (hi : i ∈ run.snapshot.tasks.ids) (hactionable : (run.snapshot.tasks.task i).actionable)
    (hd : d ∈ (run.snapshot.tasks.task i).dependencyTaskIds)
    (hblocking : (run.snapshot.tasks.task d).state.blocking) :
    (result.snapshot.tasks.task i).state = .skipped := by
  cases h with
  | done hnil =>
    rw [unsettledTasks_eq_nil.mp hnil i hi] at hactionable
    cases hactionable
  | @stuck _ swept last hs hsweep _ hlast =>
    have hskip := hsweep.atBlocked hs hi hactionable ⟨d, hd, hblocking⟩
    show (last.tasks.task i).state = .skipped
    rcases hlast.atTask (hs.commits hsweep.commits) (hsweep.ids ▸ hi) with ⟨-, heq⟩ | ⟨-, heq⟩
    · rw [heq, hskip]
      rfl
    · rw [heq]
      rfl
  | @next _ _ swept after batch outcomes hs hsweep hbatch _ hran hrest =>
    have hskip := hsweep.atBlocked hs hi hactionable ⟨d, hd, hblocking⟩
    have hids : after.tasks.ids = run.snapshot.tasks.ids := hran.ids.trans hsweep.ids
    have hsettled : (swept.tasks.task i).actionable = false := by
      rw [hskip]
      exact (lost_skipTask _ _).not_actionable
    have hafter : after.tasks.task i = swept.tasks.task i := by
      rcases hran.atTask hbatch i with ⟨hafter, -⟩ | ⟨-, hready, -⟩
      · exact hafter
      · rw [isReady_actionable hready] at hsettled
        cases hsettled
    rw [hrest.kept (hids ▸ hi) (by rw [← hsettled, ← hafter])]
    show (after.tasks.task i).state = .skipped
    rw [hafter, hskip]
    rfl

/-- What blocks a task in the sweep is lost, or a failure the same run is about to retry. -/
theorem Swept.lost_or_mayRetry {s swept : Snapshot} (hs : Sound blueprint s)
    (hsweep : Swept (unsettledTasks s) s swept) {i d : ℕ} (hi : i ∈ s.tasks.ids)
    (hactionable : (s.tasks.task i).actionable) (hd : d ∈ (s.tasks.task i).dependencyTaskIds)
    (hblocking : (swept.tasks.task d).state.blocking) :
    (swept.tasks.task d).Lost ∨
      (s.tasks.task i).state = .pending ∧ (s.tasks.task d).mayRetry := by
  by_cases hretry : (swept.tasks.task d).mayRetry
  · right
    have hsame : (s.tasks.task d).mayRetry := by
      rcases hsweep.atTask hs (hs.dependency_mem hi hd) with hsame | ⟨-, hskip, -⟩
      · rw [← hsame]
        exact hretry
      · rw [hskip] at hretry
        exact absurd hretry (lost_skipTask _ _).2
    exact ⟨pending_of_blocking hs hi hactionable hd hsweep hblocking, hsame⟩
  · exact Or.inl ⟨hblocking, hretry⟩

/-- A task is skipped for a dependency that is lost, or that was about to be retried. -/
theorem Rounds.skipped (h : Rounds agent blueprint run result)
    (hi : i ∈ run.snapshot.tasks.ids) (hbefore : (run.snapshot.tasks.task i).state ≠ .skipped)
    (hskipped : (result.snapshot.tasks.task i).state = .skipped) :
    (∃ d ∈ (run.snapshot.tasks.task i).dependencyTaskIds, (result.snapshot.tasks.task d).Lost) ∨
      (run.snapshot.tasks.task i).state = .pending ∧
        ∃ d ∈ (run.snapshot.tasks.task i).dependencyTaskIds,
          (run.snapshot.tasks.task d).mayRetry := by
  induction h with
  | done _ => exact absurd hskipped hbefore
  | @stuck run swept last hs hsweep hready hlast =>
    have hend : Rounds agent blueprint run _ := .stuck hs hsweep hready hlast
    have hswept := hs.commits hsweep.commits
    rcases hsweep.atTask hs hi with hsame | ⟨hactionable, -, d, hd, hblocking⟩
    · have hmem : i ∈ swept.tasks.ids := hsweep.ids ▸ hi
      rcases hlast.atTask hswept hmem with ⟨-, heq⟩ | ⟨hun, -⟩
      · exact absurd (by rw [← hsame, ← heq]; exact hskipped) hbefore
      · left
        have hnot : ¬ swept.tasks.DependenciesSucceeded (swept.tasks.task i) := by
          intro hsucceeded
          have hnot := hready i hmem
          rw [isReady_iff.mpr ⟨isUnresolved_actionable hun, hsucceeded⟩] at hnot
          cases hnot
        unfold TaskById.DependenciesSucceeded at hnot
        push Not at hnot
        obtain ⟨d, hd, hstate⟩ := hnot
        rw [hsame] at hd
        have hdmem := hs.dependency_mem hi hd
        refine ⟨d, hd, ?_⟩
        rcases AgentTaskRecord.not_actionable_iff.mp (hend.settled hdmem) with hsucc | hlost
        · rcases hlast.atTask hswept (hsweep.ids ▸ hdmem) with ⟨-, heq⟩ | ⟨-, hskip⟩
          · exact absurd (by rw [← heq]; exact hsucc) hstate
          · replace hsucc : (last.tasks.task d).state = .succeeded := hsucc
            rw [hskip] at hsucc
            cases hsucc
        · exact hlost
    · rcases hsweep.lost_or_mayRetry hs hi hactionable hd hblocking with hlost | ⟨hpending, hretry⟩
      · refine Or.inl ⟨d, hd, ?_⟩
        have hdmem : d ∈ swept.tasks.ids := hsweep.ids ▸ hs.dependency_mem hi hd
        show (last.tasks.task d).Lost
        rcases hlast.atTask hswept hdmem with ⟨-, heq⟩ | ⟨-, hskip⟩
        · rw [heq]
          exact hlost
        · rw [hskip]
          exact lost_skipTask _ _
      · exact Or.inr ⟨hpending, d, hd, hretry⟩
  | @next run result swept after batch outcomes hs hsweep hbatch _ hran hrest ih =>
    have hids : after.tasks.ids = run.snapshot.tasks.ids := hran.ids.trans hsweep.ids
    rcases hsweep.atTask hs hi with hsame | ⟨hactionable, -, d, hd, hblocking⟩
    · rcases hran.atTask hbatch i with ⟨hafter, -⟩ | ⟨-, -, outcome, houtcome, hafter⟩
      · have heq : after.tasks.task i = run.snapshot.tasks.task i := hafter.trans hsame
        rcases ih (hids ▸ hi) (heq ▸ hbefore) hskipped with hlost | ⟨hpending, d, hd, hretry⟩
        · left
          rw [← heq]
          exact hlost
        · exfalso
          simp only [heq] at hpending hd
          have hdmem := hs.dependency_mem hi hd
          rcases hran.atTask hbatch d with ⟨hafterd, -⟩ | ⟨-, -, outcome, houtcome, hafterd⟩
          · simp only [hafterd] at hretry
            -- a failure seen before the sweep would have made the sweep skip the task
            have hfailed : (run.snapshot.tasks.task d).state.blocking := by
              rcases hsweep.atTask hs hdmem with hsamed | ⟨-, hskipd, -⟩
              · rw [hsamed] at hretry
                rw [AgentTaskRecord.mayRetry_state hretry]
                rfl
              · rw [hskipd] at hretry
                exact absurd hretry (lost_skipTask _ _).2
            have hskip := hsweep.atBlocked hs hi
              (AgentTaskRecord.actionable_iff.mpr (Or.inl hpending)) ⟨d, hd, hfailed⟩
            rw [← hsame, hskip] at hpending
            cases hpending
          · simp only [hafterd] at hretry
            have hsettled := houtcome.2.settled
            rw [mayRetry_actionable hretry] at hsettled
            cases hsettled
      · exfalso
        have hsettled : (after.tasks.task i).actionable = false := by
          rw [hafter]
          exact houtcome.2.settled
        rw [hrest.kept (hids ▸ hi) hsettled] at hskipped
        simp only [hafter] at hskipped
        rcases houtcome.2.ran with h | h <;> rw [h] at hskipped <;> cases hskipped
    · rcases hsweep.lost_or_mayRetry hs hi hactionable hd hblocking with hlost | ⟨hpending, hretry⟩
      · refine Or.inl ⟨d, hd, ?_⟩
        have hdmem := hs.dependency_mem hi hd
        have hafter : after.tasks.task d = swept.tasks.task d := by
          rcases hran.atTask hbatch d with ⟨hafter, -⟩ | ⟨-, hready, -⟩
          · exact hafter
          · have hnot := hlost.not_actionable
            rw [isReady_actionable hready] at hnot
            cases hnot
        have hkept := hrest.kept (hids ▸ hdmem) (by
          show (after.tasks.task d).actionable = false
          rw [hafter]
          exact hlost.not_actionable)
        rw [hkept]
        show (after.tasks.task d).Lost
        rw [hafter]
        exact hlost
      · exact Or.inr ⟨hpending, d, hd, hretry⟩

end rounds

/-! ### Ordinals -/

/-- The ordinal of the step of a task. -/
def Blueprint.ordinalOf (blueprint : Blueprint) (i : ℕ) : ℕ :=
  ((blueprint.steps.find? fun step => step.taskId = i).map (·.ordinal)).getD 0

theorem Blueprint.ordinalOf_eq {step : BlueprintStep} (h : step ∈ blueprint.steps) :
    blueprint.ordinalOf step.taskId = step.ordinal := by
  rw [Blueprint.ordinalOf, Collections.find?_key_eq_some blueprint.taskId_nodup h]
  rfl

section ordinals

variable {s s' : Snapshot}

theorem Sound.ordinalOf_lt (hs : Sound blueprint s) {i d : ℕ} (hi : i ∈ s.tasks.ids)
    (hd : d ∈ (s.tasks.task i).dependencyTaskIds) :
    blueprint.ordinalOf d < blueprint.ordinalOf i := by
  obtain ⟨step, hstep, rfl, -, hdeps, -⟩ := hs.step i hi
  rw [hdeps] at hd
  obtain ⟨other, hother, rfl, hlt⟩ := blueprint.earlier step hstep d hd
  rw [Blueprint.ordinalOf_eq hstep, Blueprint.ordinalOf_eq hother]
  exact hlt

theorem Sound.same_step (hs : Sound blueprint s) (hs' : Sound blueprint s')
    (hi : i ∈ s.tasks.ids) (hi' : i ∈ s'.tasks.ids) :
    (s'.tasks.task i).dependencyTaskIds = (s.tasks.task i).dependencyTaskIds := by
  obtain ⟨step, hstep, hid, -, hdeps, -⟩ := hs.step i hi
  obtain ⟨step', hstep', hid', -, hdeps', -⟩ := hs'.step i hi'
  have hsame : step' = step :=
    List.inj_on_of_nodup_map blueprint.taskId_nodup hstep' hstep (hid'.trans hid.symm)
  rw [hdeps, hdeps', hsame]

end ordinals

/-! ### Tasks that are blocked whatever the agents do -/

/-- A lost task, or a pending one with such a dependency. -/
inductive Blocked (s : Snapshot) : ℕ → Prop
  | lost {i : ℕ} (h : (s.tasks.task i).Lost) : Blocked s i
  | pending {i d : ℕ} (hstate : (s.tasks.task i).state = .pending)
      (hd : d ∈ (s.tasks.task i).dependencyTaskIds) (h : Blocked s d) : Blocked s i

theorem Blocked.lost_at_end {run result : DagRun} (h : Blocked run.snapshot i)
    (hs : Sound blueprint run.snapshot) (hrounds : Rounds agent blueprint run result)
    (hi : i ∈ run.snapshot.tasks.ids) : (result.snapshot.tasks.task i).Lost := by
  induction h with
  | lost hlost =>
    rw [hrounds.kept hi hlost.not_actionable]
    exact hlost
  | @pending i d _ hd _ ih =>
    have hend := hs.commits hrounds.commits
    have hi' : i ∈ result.snapshot.tasks.ids := hrounds.ids ▸ hi
    rcases AgentTaskRecord.not_actionable_iff.mp (hrounds.settled hi) with hsucceeded | hlost
    · have hdep := hend.started i hi' (Or.inr (Or.inl hsucceeded)) d
        ((hs.same_step hend hi hi').symm ▸ hd)
      have hblocking := (ih (hs.dependency_mem hi hd)).1
      rw [hdep] at hblocking
      cases hblocking
    · exact hlost

/-- No pending task waits for a retry only: such a task also has a dependency that is blocked. -/
def NoneWaitsForRetry (s : Snapshot) : Prop :=
  ∀ i ∈ s.tasks.ids, (s.tasks.task i).state = .pending →
    ∀ d ∈ (s.tasks.task i).dependencyTaskIds, (s.tasks.task d).mayRetry →
      ∃ e ∈ (s.tasks.task i).dependencyTaskIds, Blocked s e

/-! ### A run in which every execution succeeds -/

section producing

theorem runTask_produced (hagent : ∀ context, ∃ candidate, agent context = .produced candidate)
    {s : Snapshot} {fuel : ℕ} {outcome : TaskOutcome}
    (h : runTask agent s fuel task = .ok outcome) : outcome.task.state = .succeeded := by
  cases fuel with
  | zero => cases h
  | succ fuel =>
    rw [runTask] at h
    obtain ⟨dependencies, hdependencies, -⟩ := bind_eq_ok.mp h
    rw [← runTask, runTask_succ hdependencies] at h
    obtain ⟨candidate, hcandidate⟩ :=
      hagent ⟨(runningVersion task).taskId, (runningVersion task).attempt, dependencies⟩
    simp only [hcandidate] at h
    rw [← Except.ok.inj h]
    rfl

/-- Among the tasks below an ordinal, all that are not blocked are still as they were or have
succeeded. -/
def Retained (blueprint : Blueprint) (n : ℕ) (start s : Snapshot) : Prop :=
  ∀ i ∈ start.tasks.ids, blueprint.ordinalOf i < n → ¬ Blocked start i →
    s.tasks.task i = start.tasks.task i ∨ (s.tasks.task i).state = .succeeded

/-- Below an ordinal no unblocked pending task waits for a retry. -/
def FreeBelow (blueprint : Blueprint) (n : ℕ) (start : Snapshot) : Prop :=
  ∀ i ∈ start.tasks.ids, blueprint.ordinalOf i < n → ¬ Blocked start i →
    (start.tasks.task i).state = .pending →
      ∀ d ∈ (start.tasks.task i).dependencyTaskIds, ¬ (start.tasks.task d).mayRetry

variable {n : ℕ} {start s swept : Snapshot}

theorem Retained.still (h : Retained blueprint n start s) (hi : i ∈ start.tasks.ids)
    (hlt : blueprint.ordinalOf i < n) (hnot : ¬ Blocked start i) (hactionable : (s.tasks.task i).actionable) :
    s.tasks.task i = start.tasks.task i := by
  rcases h i hi hlt hnot with hstill | hsucceeded
  · exact hstill
  · rw [AgentTaskRecord.not_actionable_iff.mpr (Or.inl hsucceeded)] at hactionable
    cases hactionable

theorem Retained.sweep (hfree : FreeBelow blueprint n start) (hstart : Sound blueprint start)
    (hids : s.tasks.ids = start.tasks.ids) (hs : Sound blueprint s)
    (h : Retained blueprint n start s) (hsweep : Swept (unsettledTasks s) s swept) :
    Retained blueprint n start swept := by
  intro i
  induction hn : blueprint.ordinalOf i using Nat.strong_induction_on generalizing i with
  | _ k ih =>
    intro hi hlt hnot
    have hmem : i ∈ s.tasks.ids := hids ▸ hi
    rcases hsweep.atTask hs hmem with hsame | ⟨hactionable, -, d, hd, hblocking⟩
    · rw [hsame]
      exact h i hi (hn ▸ hlt) hnot
    · exfalso
      have hstill := h.still hi (hn ▸ hlt) hnot hactionable
      have hdstart : d ∈ (start.tasks.task i).dependencyTaskIds := hstill ▸ hd
      have hdlt := hstart.ordinalOf_lt hi hdstart
      have hdmem := hstart.dependency_mem hi hdstart
      rcases hsweep.lost_or_mayRetry hs hmem hactionable hd hblocking with hlost | ⟨hpending, hretry⟩
      · have hpending := pending_of_blocking hs hmem hactionable hd hsweep hblocking
        rw [hstill] at hpending
        have hdnot : ¬ Blocked start d := fun hblocked => hnot (.pending hpending hdstart hblocked)
        rcases ih _ (hn ▸ hdlt) d rfl hdmem (hdlt.trans (hn ▸ hlt)) hdnot with heq | hsucceeded
        · exact hdnot (.lost (heq ▸ hlost))
        · rw [hsucceeded] at hblocking
          cases hblocking
      · rw [hstill] at hpending
        have hdnot : ¬ Blocked start d := fun hblocked => hnot (.pending hpending hdstart hblocked)
        rcases h d hdmem (hdlt.trans (hn ▸ hlt)) hdnot with heq | hsucceeded
        · exact hfree i hi (hn ▸ hlt) hnot hpending d hdstart (heq ▸ hretry)
        · rw [AgentTaskRecord.mayRetry_state hretry] at hsucceeded
          cases hsucceeded

theorem Retained.last {last : Snapshot} (hfree : FreeBelow blueprint n start)
    (hstart : Sound blueprint start) (hids : s.tasks.ids = start.tasks.ids)
    (hs : Sound blueprint s) (h : Retained blueprint n start s)
    (hready : ∀ i ∈ s.tasks.ids, isReady s.tasks (s.tasks.task i) = false)
    (hlast : SkippedAll (s.tasks.values.filter isUnresolved) s last) :
    Retained blueprint n start last := by
  have hresolved : ∀ i ∈ start.tasks.ids, blueprint.ordinalOf i < n → ¬ Blocked start i →
      isUnresolved (s.tasks.task i) = false := by
    intro i
    induction hn : blueprint.ordinalOf i using Nat.strong_induction_on generalizing i with
    | _ k ih =>
      intro hi hlt hnot
      by_contra hun
      rw [Bool.not_eq_false] at hun
      have hmem : i ∈ s.tasks.ids := hids ▸ hi
      have hactionable := isUnresolved_actionable hun
      have hstill := h.still hi (hn ▸ hlt) hnot hactionable
      have hwaits : ¬ s.tasks.DependenciesSucceeded (s.tasks.task i) := by
        intro hsucceeded
        have hnotReady := hready i hmem
        rw [isReady_iff.mpr ⟨hactionable, hsucceeded⟩] at hnotReady
        cases hnotReady
      have hpending : (start.tasks.task i).state = .pending := by
        simp only [isUnresolved, decide_eq_true_eq] at hun
        rcases hun with hpending | hrunning
        · exact hstill ▸ hpending
        · exact absurd (hs.started i hmem (Or.inl hrunning)) hwaits
      unfold TaskById.DependenciesSucceeded at hwaits
      push Not at hwaits
      obtain ⟨d, hd, hstate⟩ := hwaits
      rw [hstill] at hd
      have hdlt := hstart.ordinalOf_lt hi hd
      have hdmem := hstart.dependency_mem hi hd
      have hdnot : ¬ Blocked start d := fun hblocked => hnot (.pending hpending hd hblocked)
      rcases h d hdmem (hdlt.trans (hn ▸ hlt)) hdnot with heq | hsucceeded
      · have hdun := ih _ (hn ▸ hdlt) d rfl hdmem (hdlt.trans (hn ▸ hlt)) hdnot
        simp only [isUnresolved, decide_eq_false_iff_not, not_or] at hdun
        rw [heq] at hdun hstate
        cases hdact : (start.tasks.task d).actionable with
        | true =>
          rcases AgentTaskRecord.actionable_iff.mp hdact with hp | hr | hretry
          · exact hdun.1 hp
          · exact hdun.2 hr
          · exact hfree i hi (hn ▸ hlt) hnot hpending d hd hretry
        | false =>
          rcases AgentTaskRecord.not_actionable_iff.mp hdact with hsucceeded | hlost
          · exact hstate hsucceeded
          · exact hdnot (.lost hlost)
      · exact hstate hsucceeded
  intro i hi hlt hnot
  rcases hlast.atTask hs (hids ▸ hi) with ⟨-, hsame⟩ | ⟨hun, -⟩
  · rw [hsame]
    exact h i hi hlt hnot
  · rw [hresolved i hi hlt hnot] at hun
    cases hun

theorem Rounds.retained (hagent : ∀ context, ∃ candidate, agent context = .produced candidate)
    (hfree : FreeBelow blueprint n start) (hstart : Sound blueprint start) {run result : DagRun}
    (hrounds : Rounds agent blueprint run result)
    (hids : run.snapshot.tasks.ids = start.tasks.ids)
    (h : Retained blueprint n start run.snapshot) : Retained blueprint n start result.snapshot := by
  induction hrounds with
  | done _ => exact h
  | @stuck run swept last hs hsweep hready hlast =>
    exact (h.sweep hfree hstart hids hs hsweep).last hfree hstart (hsweep.ids.trans hids)
      (hs.commits hsweep.commits) hready hlast
  | @next run result swept after batch outcomes hs hsweep hbatch _ hran _ ih =>
    refine ih ((hran.ids.trans hsweep.ids).trans hids) ?_
    intro i hi hlt hnot
    rcases hran.atTask hbatch i with ⟨hafter, -⟩ | ⟨-, -, outcome, houtcome, hafter⟩
    · have hswept := h.sweep hfree hstart hids hs hsweep
      show after.tasks.task i = _ ∨ (after.tasks.task i).state = _
      rw [hafter]
      exact hswept i hi hlt hnot
    · right
      show (after.tasks.task i).state = _
      rw [hafter]
      exact runTask_produced hagent houtcome.1

end producing

/-! ### The law of a run -/

/-- What holds of every run: it settles each task, calls the agents only when they may be called,
and keeps to `max_attempts`. -/
structure Orderly (blueprint : Blueprint) (result : DagRun) : Prop where
  settled : ∀ step ∈ blueprint.steps,
    (result.snapshot.tasks.task step.taskId).state ≠ .pending ∧
      (result.snapshot.tasks.task step.taskId).state ≠ .running
  allowed : ∀ call ∈ result.calls, call.Allowed
  attempts : ∀ step ∈ blueprint.steps,
    (result.snapshot.tasks.task step.taskId).attempt ≤ step.maxAttempts ∧
      callsOf step.taskId result.calls ≤ step.maxAttempts

/-- A task becomes skipped only if one of its dependencies is lost at the end. -/
def SkipsOnlyForLost (s : Snapshot) (result : DagRun) : Prop :=
  ∀ i ∈ s.tasks.ids, (s.tasks.task i).state ≠ .skipped →
    (result.snapshot.tasks.task i).state = .skipped →
      ∃ d ∈ (s.tasks.task i).dependencyTaskIds, (result.snapshot.tasks.task d).Lost

section law

variable {s : Snapshot}

theorem executeDag_rounds (agent : AgentExecutionContext → Outcome) (hs : Sound blueprint s) :
    ∃ result, executeDag agent s blueprint = .ok result ∧ Rounds agent blueprint ⟨s, []⟩ result := by
  refine executeFrom_rounds hs (Nat.lt_succ_of_le ?_)
  calc unsettled s ≤ s.tasks.ids.toFinset.card := Finset.card_filter_le _ _
    _ ≤ s.tasks.ids.length := List.toFinset_card_le _

variable {result : DagRun}

theorem rounds_of_executeDag (hs : Sound blueprint s)
    (h : executeDag agent s blueprint = .ok result) : Rounds agent blueprint ⟨s, []⟩ result := by
  obtain ⟨result', hresult', hrounds⟩ := executeDag_rounds agent hs
  rw [h] at hresult'
  exact Except.ok.inj hresult' ▸ hrounds

theorem budget_le (hs : Sound blueprint s) (hi : i ∈ s.tasks.ids) :
    budget (s.tasks.task i) ≤ (s.tasks.task i).maxAttempts := by
  have hle := hs.attempt_le i hi
  unfold budget executionsLeft
  split_ifs with hactionable hrunning
  · have hpos := hs.running_pos i hi hrunning
    omega
  · omega
  · exact Nat.zero_le _

theorem Rounds.orderly (hs : Sound blueprint s)
    (h : Rounds agent blueprint ⟨s, []⟩ result) : Orderly blueprint result := by
  have hend := hs.commits h.commits
  refine ⟨?_, h.allowed (by simp), ?_⟩
  · intro step hstep
    have hsettled := h.settled (hs.known step hstep)
    constructor
    · intro hpending
      rw [AgentTaskRecord.actionable_iff.mpr (Or.inl hpending)] at hsettled
      cases hsettled
    · intro hrunning
      rw [AgentTaskRecord.actionable_iff.mpr (Or.inr (Or.inl hrunning))] at hsettled
      cases hsettled
  · have hmax : ∀ {s : Snapshot}, Sound blueprint s → ∀ step ∈ blueprint.steps,
        (s.tasks.task step.taskId).maxAttempts = step.maxAttempts := by
      intro s hs step hstep
      obtain ⟨step', hstep', hid, -, -, hmax⟩ := hs.step _ (hs.known step hstep)
      rw [hmax, List.inj_on_of_nodup_map blueprint.taskId_nodup hstep' hstep hid]
    intro step hstep
    refine ⟨(hend.attempt_le _ (hend.known step hstep)).trans_eq (hmax hend step hstep), ?_⟩
    calc callsOf step.taskId result.calls
        ≤ callsOf step.taskId [] + budget (s.tasks.task step.taskId) :=
          h.callsOf_le (hs.known step hstep)
      _ = budget (s.tasks.task step.taskId) := Nat.zero_add _
      _ ≤ (s.tasks.task step.taskId).maxAttempts := budget_le hs (hs.known step hstep)
      _ = step.maxAttempts := hmax hs step hstep

theorem Rounds.skipsOnlyForLost (hs : Sound blueprint s) (hnone : NoneWaitsForRetry s)
    (h : Rounds agent blueprint ⟨s, []⟩ result) : SkipsOnlyForLost s result := by
  intro i hi hbefore hskipped
  rcases h.skipped hi hbefore hskipped with hlost | ⟨hpending, d, hd, hretry⟩
  · exact hlost
  · obtain ⟨e, he, hblocked⟩ := hnone i hi hpending d hd hretry
    exact ⟨e, he, Blocked.lost_at_end hblocked hs h (hs.dependency_mem hi he)⟩

/-- When a pending task waits for a retry only, a run in which the retry succeeds skips it. -/
theorem noneWaitsForRetry_of_runs (hs : Sound blueprint s)
    (h : ∀ agent result, executeDag agent s blueprint = .ok result → SkipsOnlyForLost s result) :
    NoneWaitsForRetry s := by
  let agent : AgentExecutionContext → Outcome := fun context => .produced ⟨context.taskId, ""⟩
  obtain ⟨result, hresult, hrounds⟩ := executeDag_rounds agent hs
  have honly := h agent result hresult
  intro i
  -- the task with the least ordinal that waits for a retry only is skipped for nothing
  induction hn : blueprint.ordinalOf i using Nat.strong_induction_on generalizing i with
  | _ n ih =>
    intro hi hpending d hd hretry
    by_contra hnone
    push Not at hnone
    have hfree : FreeBelow blueprint n s := by
      intro j hj hlt hnot hjpending e he hjretry
      obtain ⟨f, hf, hblocked⟩ := ih _ hlt j rfl hj hjpending e he hjretry
      exact hnot (.pending hjpending hf hblocked)
    have hretained : Retained blueprint n s result.snapshot :=
      hrounds.retained (fun context => ⟨_, rfl⟩) hfree hs rfl fun _ _ _ _ => Or.inl rfl
    have hskipped : (result.snapshot.tasks.task i).state = .skipped := by
      refine hrounds.skips_blocked hi (AgentTaskRecord.actionable_iff.mpr (Or.inl hpending)) hd ?_
      rw [AgentTaskRecord.mayRetry_state hretry]
      rfl
    obtain ⟨e, he, hlost⟩ := honly i hi (by rw [hpending]; decide) hskipped
    rcases hretained e (hs.dependency_mem hi he) (hn ▸ hs.ordinalOf_lt hi he) (hnone e he)
      with heq | hsucceeded
    · exact hnone e he (.lost (heq ▸ hlost))
    · have hblocking := hlost.1
      rw [hsucceeded] at hblocking
      cases hblocking

end law

/-! ### A retry that comes too late -/

section example_workflow

def lectureAndExercise : Blueprint where
  steps := [⟨1, 0, [], 3⟩, ⟨2, 1, [1], 3⟩]
  maxParallelism := 2
  maxParallelism_pos := by decide
  taskId_nodup := by decide
  maxAttempts_pos := by decide
  earlier := by decide

/-- The workflow as it is created. -/
def fresh : Snapshot where
  tasks := ⟨[1, 2], fun i => if i = 1 then newTask ⟨1, 0, [], 3⟩ else newTask ⟨2, 1, [1], 3⟩⟩
  candidates := fun _ => none

/-- The run stopped after the first execution of the lecture had timed out. -/
def interrupted : Snapshot :=
  { fresh with
    tasks := (fresh.tasks.put (markTaskRunning (fresh.tasks.task 1))).put
      (failTask (markTaskRunning (fresh.tasks.task 1)) operationTimeoutError) }

theorem created_fresh : Created lectureAndExercise fresh := by
  constructor
  · exact List.Perm.refl _
  · intro step hstep
    simp only [lectureAndExercise, List.mem_cons, List.not_mem_nil, or_false] at hstep
    rcases hstep with rfl | rfl <;> rfl

theorem left_interrupted : Left lectureAndExercise interrupted := by
  refine ⟨fresh, created_fresh, .tail (.single (Commit.start (i := 1) ?_ ?_ ?_ ?_))
    (Commit.fail (i := 1) operationTimeoutError ?_ ?_)⟩ <;> decide

/-- Every execution succeeds. -/
def reliableAgent (context : AgentExecutionContext) : Outcome := .produced ⟨context.taskId, ""⟩

end example_workflow

/-- The run stopped while the lecture was executed. -/
def stopped : Snapshot :=
  { fresh with tasks := fresh.tasks.put (markTaskRunning (fresh.tasks.task 1)) }

theorem left_stopped : Left lectureAndExercise stopped := by
  refine ⟨fresh, created_fresh, .single (Commit.start (i := 1) ?_ ?_ ?_ ?_)⟩ <;> decide

end CyberControl.Workflow
