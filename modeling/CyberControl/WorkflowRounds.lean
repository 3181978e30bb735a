import CyberControl.WorkflowDag
import Mathlib.Data.Finset.Card

/-! # The rounds of `_execute_dag`

A run of the loop is a sequence of rounds; each of them sweeps the unsettled tasks and then
settles a batch of ready ones, or skips what is left when nothing is ready. -/

namespace CyberControl.Workflow

variable {agent : AgentExecutionContext → Outcome} {blueprint : Blueprint} {s s' swept : Snapshot}

/-! ### The outcomes of a batch -/

/-- An outcome of the batch, as `_run_task` computes it from the swept snapshot. -/
def IsOutcome (agent : AgentExecutionContext → Outcome) (s : Snapshot) (task : AgentTaskRecord)
    (outcome : TaskOutcome) : Prop :=
  runTask agent s (taskFuel task) task = .ok outcome ∧ Settles s task outcome

/-- What putting the outcomes of a batch one after the other makes of a snapshot. -/
structure Ran (agent : AgentExecutionContext → Outcome) (s : Snapshot) (batch : List AgentTaskRecord)
    (r r' : Snapshot) : Prop where
  ids : r'.tasks.ids = r.tasks.ids
  other : ∀ i, (∀ task ∈ batch, task.taskId ≠ i) → r'.tasks.task i = r.tasks.task i
  task : ∀ task ∈ batch, ∃ outcome, IsOutcome agent s task outcome ∧
    r'.tasks.task task.taskId = outcome.task
  commits : Relation.ReflTransGen Commit r r'

variable {r : Snapshot}

theorem settle_task_self {task : AgentTaskRecord} {outcome : TaskOutcome}
    (h : Settles s task outcome) : (r.settle outcome).tasks.task task.taskId = outcome.task := by
  rw [← h.taskId]
  exact r.tasks.put_task_self outcome.task

variable {i : ℕ}

theorem settle_task_of_ne {task : AgentTaskRecord} {outcome : TaskOutcome}
    (h : Settles s task outcome) (hi : task.taskId ≠ i) :
    (r.settle outcome).tasks.task i = r.tasks.task i :=
  r.tasks.put_task_of_ne outcome.task (by rw [h.taskId]; exact hi.symm)

variable {batch : List AgentTaskRecord}

theorem ran_foldl {outcomes : List TaskOutcome}
    (houtcomes : List.Forall₂ (IsOutcome agent s) batch outcomes)
    (hnodup : (batch.map (·.taskId)).Nodup)
    (hr : ∀ task ∈ batch, task.taskId ∈ r.tasks.ids ∧ r.tasks.task task.taskId = task ∧
      task.actionable ∧ r.tasks.DependenciesSucceeded task) :
    Ran agent s batch r (outcomes.foldl Snapshot.settle r) := by
  induction houtcomes generalizing r with
  | nil => exact ⟨rfl, fun _ _ => rfl, by simp, .refl⟩
  | @cons task outcome batch outcomes houtcome _ ih =>
    obtain ⟨hi, hcurrent, hactionable, hdeps⟩ := hr task (by simp)
    obtain ⟨hfresh, hnodup⟩ := List.nodup_cons.mp hnodup
    have hne : ∀ t ∈ batch, task.taskId ≠ t.taskId := by
      intro t ht heq
      exact hfresh (List.mem_map.mpr ⟨t, ht, heq.symm⟩)
    have hrest : ∀ t ∈ batch, t.taskId ∈ (r.settle outcome).tasks.ids ∧
        (r.settle outcome).tasks.task t.taskId = t ∧ t.actionable ∧
        (r.settle outcome).tasks.DependenciesSucceeded t := by
      intro t ht
      obtain ⟨hmem, hsame, hact, hsucceeded⟩ := hr t (List.mem_cons_of_mem task ht)
      refine ⟨hmem, ?_, hact, ?_⟩
      · rw [settle_task_of_ne houtcome.2 (hne t ht)]
        exact hsame
      · refine Sound.dependenciesSucceeded_put ?_ hactionable hsucceeded
        rw [houtcome.2.taskId]
        exact hcurrent
    have hran := ih hnodup hrest
    refine ⟨hran.ids, ?_, ?_, (houtcome.2.commits r hi hcurrent hdeps).trans hran.commits⟩
    · intro i hne'
      rw [List.foldl_cons, hran.other i fun t ht => hne' t (List.mem_cons_of_mem task ht)]
      exact settle_task_of_ne houtcome.2 (hne' task (by simp))
    · intro t ht
      rcases List.mem_cons.mp ht with rfl | ht
      · refine ⟨outcome, houtcome, ?_⟩
        rw [List.foldl_cons, hran.other t.taskId fun u hu => (hne u hu).symm]
        exact settle_task_self houtcome.2
      · exact hran.task t ht

theorem count_calls {outcomes : List TaskOutcome}
    (houtcomes : List.Forall₂ (IsOutcome agent s) batch outcomes)
    (hnodup : (batch.map (·.taskId)).Nodup) (i : ℕ) :
    ((∀ task ∈ batch, task.taskId ≠ i) ∧
      (outcomes.flatMap (·.calls)).countP (fun call => call.context.taskId = i) = 0) ∨
    ∃ task ∈ batch, task.taskId = i ∧
      (outcomes.flatMap (·.calls)).countP (fun call => call.context.taskId = i) ≤
        executionsLeft task := by
  induction houtcomes with
  | nil => exact Or.inl ⟨by simp, rfl⟩
  | @cons task outcome batch outcomes houtcome _ ih =>
    obtain ⟨hfresh, hnodup⟩ := List.nodup_cons.mp hnodup
    rw [List.flatMap_cons, List.countP_append]
    have hcalls : ∀ call ∈ outcome.calls, call.context.taskId = task.taskId :=
      fun call hcall => (houtcome.2.call call hcall).2.1
    by_cases hi : task.taskId = i
    · right
      refine ⟨task, by simp, hi, ?_⟩
      have hlength := houtcome.2.count
      have hle := List.countP_le_length (p := fun call : AgentCall => call.context.taskId = i)
        (l := outcome.calls)
      rcases ih hnodup with ⟨-, hzero⟩ | ⟨t, ht, hid, -⟩
      · omega
      · exact absurd (List.mem_map.mpr ⟨t, ht, hid.trans hi.symm⟩) hfresh
    · have hzero : outcome.calls.countP (fun call => call.context.taskId = i) = 0 := by
        rw [List.countP_eq_zero]
        intro call hcall
        rw [hcalls call hcall]
        simpa using hi
      rw [hzero, Nat.zero_add]
      rcases ih hnodup with ⟨hne, hcount⟩ | ⟨t, ht, hid, hcount⟩
      · refine Or.inl ⟨?_, hcount⟩
        intro t ht
        rcases List.mem_cons.mp ht with rfl | ht
        · exact hi
        · exact hne t ht
      · exact Or.inr ⟨t, List.mem_cons_of_mem task ht, hid, hcount⟩

/-! ### The last round -/

/-- What skipping the tasks `l` makes of a snapshot. -/
structure SkippedAll (l : List AgentTaskRecord) (s s' : Snapshot) : Prop where
  ids : s'.tasks.ids = s.tasks.ids
  other : ∀ i, (∀ task ∈ l, task.taskId ≠ i) → s'.tasks.task i = s.tasks.task i
  task : ∀ task ∈ l, s'.tasks.task task.taskId = skipTask task noProgressReason
  commits : Relation.ReflTransGen Commit s s'

theorem skipUnresolved_skipped {l : List AgentTaskRecord} (hl : Listed s l)
    (hdeps : ∀ task ∈ l, ¬ s.tasks.DependenciesSucceeded task) :
    SkippedAll l s { s with tasks := skipUnresolved l s.tasks } := by
  induction l generalizing s with
  | nil => exact ⟨rfl, fun _ _ => rfl, by simp, .refl⟩
  | cons task l ih =>
    have hcurrent := hl.current task (by simp)
    have hskip : Commit s { s with tasks := s.tasks.put (skipTask task noProgressReason) } := by
      have hcommit := Commit.skip (s := s) noProgressReason (hl.mem task (by simp))
        (by rw [hcurrent]; exact hl.actionable task (by simp))
        (by rw [hcurrent]; exact hdeps task (by simp))
      rw [hcurrent] at hcommit
      exact hcommit
    have hrest : ∀ t ∈ l, ¬ (s.tasks.put (skipTask task noProgressReason)).DependenciesSucceeded t := by
      intro t ht hsucceeded
      refine hdeps t (List.mem_cons_of_mem task ht) ?_
      intro d hd
      have hstate := hsucceeded d hd
      by_cases hne : d = task.taskId
      · subst hne
        have hself := s.tasks.put_task_self (skipTask task noProgressReason)
        rw [show (s.tasks.put (skipTask task noProgressReason)).task task.taskId =
          skipTask task noProgressReason from hself] at hstate
        cases hstate
      · rw [s.tasks.put_task_of_ne (skipTask task noProgressReason) hne] at hstate
        exact hstate
    have hput := hl.put (r := skipTask task noProgressReason) rfl
    have h := ih hput hrest
    refine ⟨h.ids, ?_, ?_, .head hskip h.commits⟩
    · intro i hi
      have hsame := h.other i fun t ht => hi t (List.mem_cons_of_mem task ht)
      exact hsame.trans (s.tasks.put_task_of_ne _ fun heq => hi task (by simp) heq.symm)
    · intro t ht
      rcases List.mem_cons.mp ht with rfl | ht
      · have hsame := h.other t.taskId fun u hu => hl.ne hu
        exact hsame.trans (s.tasks.put_task_self (skipTask t noProgressReason))
      · exact h.task t ht

/-! ### Rounds -/

/-- The tasks that are still to be run. -/
def unsettledTasks (s : Snapshot) : List AgentTaskRecord := s.tasks.values.filter (·.actionable)

inductive Rounds (agent : AgentExecutionContext → Outcome) (blueprint : Blueprint) :
    DagRun → DagRun → Prop
  | done {run : DagRun} (h : unsettledTasks run.snapshot = []) : Rounds agent blueprint run run
  | stuck {run : DagRun} {swept last : Snapshot} (hs : Sound blueprint run.snapshot)
      (hsweep : Swept (unsettledTasks run.snapshot) run.snapshot swept)
      (hready : ∀ i ∈ swept.tasks.ids, isReady swept.tasks (swept.tasks.task i) = false)
      (hlast : SkippedAll (swept.tasks.values.filter isUnresolved) swept last) :
      Rounds agent blueprint run { run with snapshot := last }
  | next {run result : DagRun} {swept after : Snapshot} {batch : List AgentTaskRecord}
      {outcomes : List TaskOutcome} (hs : Sound blueprint run.snapshot)
      (hsweep : Swept (unsettledTasks run.snapshot) run.snapshot swept) (hbatch : Batch swept batch)
      (houtcomes : List.Forall₂ (IsOutcome agent swept) batch outcomes)
      (hran : Ran agent swept batch swept after)
      (hrest : Rounds agent blueprint ⟨after, run.calls ++ outcomes.flatMap (·.calls)⟩ result) :
      Rounds agent blueprint run result

/-- How many tasks are still to be run. -/
def unsettled (s : Snapshot) : ℕ := (s.tasks.ids.toFinset.filter fun i => (s.tasks.task i).actionable).card

theorem Swept.atTask (hs : Sound blueprint s) (h : Swept (unsettledTasks s) s swept)
    (hi : i ∈ s.tasks.ids) :
    swept.tasks.task i = s.tasks.task i ∨
      (s.tasks.task i).actionable ∧
        swept.tasks.task i = skipTask (s.tasks.task i) upstreamReason ∧
        ∃ d ∈ (s.tasks.task i).dependencyTaskIds, (swept.tasks.task d).state.blocking := by
  have hid := hs.taskId_eq hi
  by_cases hactionable : (s.tasks.task i).actionable
  · have hmem : s.tasks.task i ∈ unsettledTasks s :=
      List.mem_filter.mpr ⟨TaskById.mem_values.mpr ⟨i, hi, rfl⟩, hactionable⟩
    have hcases := h.cases _ hmem
    rw [hid] at hcases
    exact hcases.imp_right fun hskip => ⟨hactionable, hskip⟩
  · refine Or.inl (h.other i ?_)
    rintro task htask rfl
    obtain ⟨hvalue, hact⟩ := List.mem_filter.mp htask
    obtain ⟨-, hcurrent⟩ := (mem_values_iff hs).mp hvalue
    rw [hcurrent] at hactionable
    exact hactionable hact

theorem Swept.atBlocked (hs : Sound blueprint s) (h : Swept (unsettledTasks s) s swept)
    (hi : i ∈ s.tasks.ids) (hactionable : (s.tasks.task i).actionable)
    (hblocked : ∃ d ∈ (s.tasks.task i).dependencyTaskIds, (s.tasks.task d).state.blocking) :
    swept.tasks.task i = skipTask (s.tasks.task i) upstreamReason := by
  have hmem : s.tasks.task i ∈ unsettledTasks s :=
    List.mem_filter.mpr ⟨TaskById.mem_values.mpr ⟨i, hi, rfl⟩, hactionable⟩
  have hskipped := h.skipped _ hmem hblocked
  rw [hs.taskId_eq hi] at hskipped
  exact hskipped

theorem Ran.atTask {after : Snapshot}
    (hbatch : Batch s batch) (h : Ran agent s batch s after) (i : ℕ) :
    after.tasks.task i = s.tasks.task i ∧ (∀ task ∈ batch, task.taskId ≠ i) ∨
      s.tasks.task i ∈ batch ∧ isReady s.tasks (s.tasks.task i) ∧
        ∃ outcome, IsOutcome agent s (s.tasks.task i) outcome ∧ after.tasks.task i = outcome.task := by
  by_cases hmem : ∃ task ∈ batch, task.taskId = i
  · obtain ⟨task, htask, rfl⟩ := hmem
    obtain ⟨hi, hcurrent, hready⟩ := hbatch.ready task htask
    obtain ⟨outcome, houtcome, hafter⟩ := h.task task htask
    rw [hcurrent]
    exact Or.inr ⟨htask, hready, outcome, houtcome, hafter⟩
  · have hne : ∀ task ∈ batch, task.taskId ≠ i := fun task htask heq => hmem ⟨task, htask, heq⟩
    exact Or.inl ⟨h.other i hne, hne⟩

theorem SkippedAll.atTask {last : Snapshot} (hs : Sound blueprint s)
    (h : SkippedAll (s.tasks.values.filter isUnresolved) s last) (hi : i ∈ s.tasks.ids) :
    isUnresolved (s.tasks.task i) = false ∧ last.tasks.task i = s.tasks.task i ∨
      isUnresolved (s.tasks.task i) ∧
        last.tasks.task i = skipTask (s.tasks.task i) noProgressReason := by
  have hid := hs.taskId_eq hi
  cases hunresolved : isUnresolved (s.tasks.task i) with
  | true =>
    have htask := h.task (s.tasks.task i)
      (List.mem_filter.mpr ⟨TaskById.mem_values.mpr ⟨i, hi, rfl⟩, hunresolved⟩)
    rw [hid] at htask
    exact Or.inr ⟨rfl, htask⟩
  | false =>
    refine Or.inl ⟨rfl, h.other i ?_⟩
    rintro task htask rfl
    obtain ⟨hvalue, hun⟩ := List.mem_filter.mp htask
    obtain ⟨-, hcurrent⟩ := (mem_values_iff hs).mp hvalue
    rw [hcurrent, hun] at hunresolved
    cases hunresolved

/-! ### The loop ends -/

theorem unsettledTasks_eq_nil : unsettledTasks s = [] ↔
    ∀ i ∈ s.tasks.ids, (s.tasks.task i).actionable = false := by
  rw [unsettledTasks, List.filter_eq_nil_iff]
  simp only [TaskById.mem_values, forall_exists_index, and_imp, forall_apply_eq_imp_iff₂,
    Bool.not_eq_true]

theorem not_isReady_of_nil (h : s.tasks.values.filter (isReady s.tasks) = []) :
    ∀ i ∈ s.tasks.ids, isReady s.tasks (s.tasks.task i) = false := by
  intro i hi
  have hnot := List.filter_eq_nil_iff.mp h _ (TaskById.mem_values.mpr ⟨i, hi, rfl⟩)
  simpa using hnot

theorem listed_unresolved (hs : Sound blueprint s) :
    Listed s (s.tasks.values.filter isUnresolved) where
  nodup := nodup_filter_values hs _
  mem := fun _ h => ((mem_values_iff hs).mp (List.mem_filter.mp h).1).1
  current := fun _ h => ((mem_values_iff hs).mp (List.mem_filter.mp h).1).2
  actionable := by
    intro task h
    have hun := (List.mem_filter.mp h).2
    simp only [isUnresolved, decide_eq_true_eq] at hun
    exact AgentTaskRecord.actionable_iff.mpr (hun.imp_right Or.inl)

theorem unresolved_dependencies (hs : Sound blueprint s)
    (hready : ∀ i ∈ s.tasks.ids, isReady s.tasks (s.tasks.task i) = false) :
    ∀ task ∈ s.tasks.values.filter isUnresolved, ¬ s.tasks.DependenciesSucceeded task := by
  intro task htask hsucceeded
  have hlisted := listed_unresolved hs
  have hnot := hready task.taskId (hlisted.mem task htask)
  rw [hlisted.current task htask] at hnot
  rw [isReady_iff.mpr ⟨hlisted.actionable task htask, hsucceeded⟩] at hnot
  cases hnot

theorem unsettled_lt {after : Snapshot} (hs : Sound blueprint s)
    (hsweep : Swept (unsettledTasks s) s swept) (hbatch : Batch swept batch)
    (hran : Ran agent swept batch swept after) : unsettled after < unsettled s := by
  have hids : after.tasks.ids = s.tasks.ids := hran.ids.trans hsweep.ids
  have hkept : ∀ i ∈ s.tasks.ids, (after.tasks.task i).actionable → (s.tasks.task i).actionable ∧
      ∀ task ∈ batch, task.taskId ≠ i := by
    intro i hi hactionable
    rcases hran.atTask hbatch i with ⟨hsame, hne⟩ | ⟨-, -, outcome, houtcome, hafter⟩
    · rw [hsame] at hactionable
      rcases hsweep.atTask hs hi with heq | ⟨hact, -⟩
      · rw [heq] at hactionable
        exact ⟨hactionable, hne⟩
      · exact ⟨hact, hne⟩
    · rw [hafter, houtcome.2.settled] at hactionable
      cases hactionable
  obtain ⟨task, htask⟩ := List.exists_mem_of_ne_nil batch hbatch.ne_nil
  obtain ⟨hi, hcurrent, hready⟩ := hbatch.ready task htask
  rw [hsweep.ids] at hi
  apply Finset.card_lt_card
  rw [Finset.ssubset_iff_of_subset]
  · refine ⟨task.taskId, ?_, ?_⟩
    · refine Finset.mem_filter.mpr ⟨List.mem_toFinset.mpr hi, ?_⟩
      rcases hsweep.atTask hs hi with heq | ⟨hact, -⟩
      · rw [← heq, hcurrent]
        exact (isReady_iff.mp hready).1
      · exact hact
    · intro hmem
      exact (hkept task.taskId hi (Finset.mem_filter.mp hmem).2).2 task htask rfl
  · intro i hmem
    obtain ⟨hi, hactionable⟩ := Finset.mem_filter.mp hmem
    rw [hids] at hi
    exact Finset.mem_filter.mpr ⟨hi, (hkept i (List.mem_toFinset.mp hi) hactionable).1⟩

theorem executeFrom_rounds {fuel : ℕ} {run : DagRun} (hs : Sound blueprint run.snapshot)
    (hfuel : unsettled run.snapshot < fuel) :
    ∃ result, executeFrom agent blueprint fuel run = .ok result ∧
      Rounds agent blueprint run result := by
  induction fuel generalizing run with
  | zero => exact absurd hfuel (Nat.not_lt_zero _)
  | succ fuel ih =>
    rw [executeFrom]
    by_cases hnil : unsettledTasks run.snapshot = []
    · exact ⟨run, if_pos hnil, .done hnil⟩
    · obtain ⟨tasks, htasks, hsweep⟩ := skipBlocked_swept hs (listed_actionable hs)
      have hswept := hs.commits hsweep.commits
      by_cases hready : tasks.values.filter (isReady tasks) = []
      · have hnone := not_isReady_of_nil (s := { run.snapshot with tasks }) hready
        refine ⟨_, ?_, Rounds.stuck hs hsweep hnone
          (skipUnresolved_skipped (listed_unresolved hswept) (unresolved_dependencies hswept hnone))⟩
        refine (if_neg hnil).trans ?_
        rw [htasks]
        exact if_pos hready
      · obtain ⟨batch, hchoose, hbatch⟩ := chooseBatch_ok hswept hready
        have hrun : ∀ task ∈ batch, ∃ outcome,
            IsOutcome agent { run.snapshot with tasks } task outcome := by
          intro task htask
          obtain ⟨hi, hcurrent, hisReady⟩ := hbatch.ready task htask
          rw [← hcurrent] at hisReady ⊢
          exact runTask_of_ready hswept hi hisReady
        obtain ⟨outcomes, houtcomes, hforall⟩ := exists_mapM_forall₂ hrun
        have hran := ran_foldl hforall hbatch.nodup fun task htask => by
          obtain ⟨hi, hcurrent, hisReady⟩ := hbatch.ready task htask
          exact ⟨hi, hcurrent, isReady_iff.mp hisReady⟩
        have hless := unsettled_lt hs hsweep hbatch hran
        obtain ⟨result, hresult, hrounds⟩ := @ih
          ⟨outcomes.foldl Snapshot.settle { run.snapshot with tasks },
            run.calls ++ outcomes.flatMap (·.calls)⟩ (hswept.commits hran.commits)
          (lt_of_lt_of_le hless (Nat.lt_succ_iff.mp hfuel))
        refine ⟨result, ?_, .next hs hsweep hbatch hforall hran hrounds⟩
        refine (if_neg hnil).trans ?_
        rw [htasks]
        refine (if_neg hready).trans ?_
        rw [hchoose]
        show (do
          let outcomes ← batch.mapM fun task => runTask agent _ (taskFuel task) task
          _) = _
        rw [houtcomes]
        exact hresult

end CyberControl.Workflow
