import CyberControl.Errors
import CyberControl.Scheduling
import CyberControl.WorkflowTasks

/-! # `Topic3Orchestrator._execute_dag`

One uninterrupted run of a workflow over the snapshot that `_execute_locked` has loaded. -/

namespace CyberControl.Workflow

/-! ### Lookups -/

/-- A run that does not end: a `KeyError`, or the loop is still going. -/
inductive Stop
  | keyError (key : ℕ)
  | outOfFuel

/-- `task_by_id[i]` -/
def TaskById.require (tasks : TaskById) (i : ℕ) : Except Stop AgentTaskRecord :=
  if i ∈ tasks.ids then .ok (tasks.task i) else .error (.keyError i)

/-- `step_by_id[i]` -/
def Blueprint.require (blueprint : Blueprint) (i : ℕ) : Except Stop BlueprintStep :=
  match blueprint.steps.find? fun step => step.taskId = i with
  | some step => .ok step
  | none => .error (.keyError i)

/-- `candidate_by_id[task_by_id[d].result_document["candidate_id"]]` -/
def Snapshot.requireCandidate (s : Snapshot) (d : ℕ) : Except Stop Candidate := do
  let task ← s.tasks.require d
  match task.candidateId with
  | none => .error (.keyError d)
  | some c =>
    match s.candidates c with
    | none => .error (.keyError c)
    | some candidate => .ok candidate

/-! ### `_run_task` -/

/-- `AgentExecutionContext`, as far as it differs between the executions of a workflow. -/
structure AgentExecutionContext where
  taskId : ℕ
  attempt : ℕ
  dependencyCandidates : List Candidate

/-- How one execution of an agent ends; an exception counts as its normalized error. -/
inductive Outcome
  | produced (candidate : Candidate)
  | timedOut
  | raised (error : ErrorDocument)

/-- `OperationTimeoutError` -/
def operationTimeoutError : ErrorDocument where
  errorCode := "LIYAN-TIMEOUT"
  category := "TIMEOUT"
  retriable := true
  safeMessage := "The operation exceeded its deadline."

/-- One execution of an agent, with `task_by_id` as it was at that time. -/
structure AgentCall where
  tasks : TaskById
  context : AgentExecutionContext

/-- What `_run_task` returns, and the executions it has made. -/
structure TaskOutcome where
  task : AgentTaskRecord
  candidate : Option Candidate
  calls : List AgentCall

/-- The version in which a task is executed: a running one is taken up as it is. -/
def runningVersion (task : AgentTaskRecord) : AgentTaskRecord :=
  if task.state ≠ .running then markTaskRunning task else task

variable (agent : AgentExecutionContext → Outcome) (s : Snapshot)

/-- `_run_task` -/
def runTask : ℕ → AgentTaskRecord → Except Stop TaskOutcome
  | 0, _ => .error .outOfFuel
  | fuel + 1, task => do
    let current := runningVersion task
    let dependencies ← current.dependencyTaskIds.mapM s.requireCandidate
    let context : AgentExecutionContext := ⟨current.taskId, current.attempt, dependencies⟩
    let call : AgentCall := ⟨s.tasks, context⟩
    match agent context with
    | .produced candidate => .ok ⟨completeTask current candidate, some candidate, [call]⟩
    | .timedOut =>
      let failed := failTask current operationTimeoutError
      if failed.attempt < failed.maxAttempts then do
        let outcome ← runTask fuel failed
        .ok { outcome with calls := call :: outcome.calls }
      else
        .ok ⟨failed, none, [call]⟩
    | .raised error =>
      let failed := failTask current error
      if error.retriable ∧ failed.attempt < failed.maxAttempts then do
        let outcome ← runTask fuel failed
        .ok { outcome with calls := call :: outcome.calls }
      else
        .ok ⟨failed, none, [call]⟩

/-! ### `_execute_dag` -/

/-- The reason of a skip in the sweep. -/
def upstreamReason : String := "A required upstream Agent did not produce an accepted candidate."

/-- The reason of a skip when nothing is ready. -/
def noProgressReason : String :=
  "The immutable Blueprint dependency graph could not make progress."

/-- The loop over `list(actionable)`. -/
def skipBlocked : List AgentTaskRecord → TaskById → Except Stop TaskById
  | [], tasks => .ok tasks
  | task :: rest, tasks => do
    let dependencies ← task.dependencyTaskIds.mapM tasks.require
    if dependencies.any (·.state.blocking) then
      skipBlocked rest (tasks.put (skipTask task upstreamReason))
    else
      skipBlocked rest tasks

/-- `ready`; the loop above has already looked up the dependencies of these tasks. -/
def isReady (tasks : TaskById) (task : AgentTaskRecord) : Bool :=
  task.actionable && task.dependencyTaskIds.all fun d => (tasks.task d).state = .succeeded

/-- `unresolved` -/
def isUnresolved (task : AgentTaskRecord) : Bool :=
  task.state = .pending ∨ task.state = .running

/-- The loop over `unresolved`. -/
def skipUnresolved (unresolved : List AgentTaskRecord) (tasks : TaskById) : TaskById :=
  unresolved.foldl (fun tasks task => tasks.put (skipTask task noProgressReason)) tasks

/-- `batch` -/
def chooseBatch (blueprint : Blueprint) (ready : List AgentTaskRecord) :
    Except Stop (List AgentTaskRecord) := do
  let ordered ← ready.mapM fun task => do
    let step ← blueprint.require task.taskId
    .ok (step.ordinal, task)
  .ok (((Scheduling.sortBy Prod.fst ordered).map Prod.snd).take blueprint.maxParallelism)

/-- What one outcome of the batch adds to `task_by_id` and `candidate_by_id`. -/
def Snapshot.settle (s : Snapshot) (outcome : TaskOutcome) : Snapshot where
  tasks := s.tasks.put outcome.task
  candidates :=
    match outcome.candidate with
    | none => s.candidates
    | some candidate => s.candidates.put candidate

/-- A run of the loop: the snapshot it has reached and the agent executions so far. -/
structure DagRun where
  snapshot : Snapshot
  calls : List AgentCall

/-- How often `_run_task` may try a task. -/
def taskFuel (task : AgentTaskRecord) : ℕ := task.maxAttempts + 1

/-- `while True` of `_execute_dag` -/
def executeFrom (blueprint : Blueprint) : ℕ → DagRun → Except Stop DagRun
  | 0, _ => .error .outOfFuel
  | fuel + 1, run => do
    let actionable := run.snapshot.tasks.values.filter (·.actionable)
    if actionable = [] then .ok run else do
    let tasks ← skipBlocked actionable run.snapshot.tasks
    let swept : Snapshot := { run.snapshot with tasks }
    let ready := tasks.values.filter (isReady tasks)
    if ready = [] then
      .ok { run with snapshot :=
        { swept with tasks := skipUnresolved (tasks.values.filter isUnresolved) tasks } }
    else do
      let batch ← chooseBatch blueprint ready
      let outcomes ← batch.mapM fun task => runTask agent swept (taskFuel task) task
      executeFrom blueprint fuel
        { snapshot := outcomes.foldl Snapshot.settle swept
          calls := run.calls ++ outcomes.flatMap (·.calls) }

/-- `_execute_dag`: every round settles at least one task. -/
def executeDag (blueprint : Blueprint) : Except Stop DagRun :=
  executeFrom agent blueprint (s.tasks.ids.length + 1) ⟨s, []⟩

/-! ### One task -/

variable {task : AgentTaskRecord} {tasks : TaskById}

section task

variable {agent : AgentExecutionContext → Outcome} {s : Snapshot}

/-- How many executions a task has left. -/
def executionsLeft (task : AgentTaskRecord) : ℕ :=
  task.maxAttempts - task.attempt + if task.state = .running then 1 else 0

/-- What `_run_task` does with a task, whatever else happens to the workflow meanwhile. -/
structure Settles (s : Snapshot) (task : AgentTaskRecord) (outcome : TaskOutcome) : Prop where
  taskId : outcome.task.taskId = task.taskId
  settled : outcome.task.actionable = false
  ran : outcome.task.state = .succeeded ∨ outcome.task.state = .failed
  count : outcome.calls.length ≤ executionsLeft task
  call : ∀ call ∈ outcome.calls, call.tasks = s.tasks ∧ call.context.taskId = task.taskId ∧
    call.context.attempt ≤ task.maxAttempts
  commits : ∀ s' : Snapshot, task.taskId ∈ s'.tasks.ids → s'.tasks.task task.taskId = task →
    s'.tasks.DependenciesSucceeded task → Relation.ReflTransGen Commit s' (s'.settle outcome)

theorem put_eq_self {r : AgentTaskRecord} (h : tasks.task r.taskId = r) :
    tasks.put r = tasks := by
  rw [TaskById.put, Function.update_eq_self_iff.mpr h.symm]

theorem put_put (tasks : TaskById) {r q : AgentTaskRecord} (h : r.taskId = q.taskId) :
    (tasks.put r).put q = tasks.put q := by
  simp [TaskById.put, h, Function.update_idem]

theorem runningVersion_eq (task : AgentTaskRecord) :
    (runningVersion task).taskId = task.taskId ∧
      (runningVersion task).dependencyTaskIds = task.dependencyTaskIds ∧
      (runningVersion task).maxAttempts = task.maxAttempts ∧
      (runningVersion task).state = .running := by
  unfold runningVersion
  split_ifs with h
  · exact ⟨rfl, rfl, rfl, rfl⟩
  · exact ⟨rfl, rfl, rfl, not_not.mp h⟩

theorem runningVersion_attempt (hle : task.attempt ≤ task.maxAttempts)
    (hlt : task.state ≠ .running → task.attempt < task.maxAttempts) :
    (runningVersion task).attempt ≤ task.maxAttempts ∧
      executionsLeft task = task.maxAttempts - (runningVersion task).attempt + 1 := by
  unfold runningVersion executionsLeft
  by_cases h : task.state = .running
  · simp only [h, ne_eq, not_true_eq_false, if_false, if_true]
    exact ⟨hle, trivial⟩
  · have hattempt := hlt h
    simp only [h, ne_eq, not_false_eq_true, if_true, if_false, markTaskRunning]
    omega

variable {s' : Snapshot}

theorem commits_runningVersion (hmem : task.taskId ∈ s'.tasks.ids) (htask : s'.tasks.task task.taskId = task)
    (hactionable : task.actionable) (hdeps : s'.tasks.DependenciesSucceeded task) :
    Relation.ReflTransGen Commit s'
      { s' with tasks := s'.tasks.put (runningVersion task) } := by
  by_cases h : task.state = .running
  · have hsame : s'.tasks.put (runningVersion task) = s'.tasks := by
      have hversion : runningVersion task = task := by simp [runningVersion, h]
      rw [hversion]
      exact put_eq_self htask
    rw [hsame]
  · have hstart := Commit.start hmem (by rw [htask]; exact hactionable) (by rw [htask]; exact h)
      (by rw [htask]; exact hdeps)
    rw [htask] at hstart
    have hversion : runningVersion task = markTaskRunning task := by simp [runningVersion, h]
    rw [hversion]
    exact .single hstart

/-- The task is started, if it is not running, and then settled. -/
theorem commits_put (settled : AgentTaskRecord → AgentTaskRecord) {candidates : CandidateById}
    (hmem : task.taskId ∈ s'.tasks.ids) (htask : s'.tasks.task task.taskId = task)
    (hactionable : task.actionable) (hdeps : s'.tasks.DependenciesSucceeded task)
    (hid : (settled (runningVersion task)).taskId = task.taskId)
    (hcommit : ∀ tasks : TaskById, task.taskId ∈ tasks.ids → (tasks.task task.taskId).state = .running →
      Commit { s' with tasks } ⟨tasks.put (settled (tasks.task task.taskId)), candidates⟩) :
    Relation.ReflTransGen Commit s' ⟨s'.tasks.put (settled (runningVersion task)), candidates⟩ := by
  obtain ⟨hversion, -, -, hrunning⟩ := runningVersion_eq task
  refine (commits_runningVersion hmem htask hactionable hdeps).tail ?_
  have hself : (s'.tasks.put (runningVersion task)).task task.taskId = runningVersion task := by
    rw [← hversion, TaskById.put_task_self]
  have hsettle := hcommit (s'.tasks.put (runningVersion task)) hmem (by rw [hself]; exact hrunning)
  rwa [hself, put_put _ (hversion.trans hid.symm)] at hsettle

variable {error : ErrorDocument} {call : AgentCall}

theorem Settles.again {outcome : TaskOutcome} (hactionable : task.actionable)
    (hleft : executionsLeft (failTask (runningVersion task) error) + 1 ≤ executionsLeft task)
    (hcall : call.tasks = s.tasks ∧ call.context.taskId = task.taskId ∧
      call.context.attempt ≤ task.maxAttempts)
    (h : Settles s (failTask (runningVersion task) error) outcome) :
    Settles s task { outcome with calls := call :: outcome.calls } := by
  obtain ⟨hid, hdeps, hmax, -⟩ := runningVersion_eq task
  have hfailed : (failTask (runningVersion task) error).taskId = task.taskId := hid
  refine ⟨h.taskId.trans hid, h.settled, h.ran, ?_, ?_, ?_⟩
  · have hcount := h.count
    rw [List.length_cons]
    omega
  · intro call' hmem
    rcases List.mem_cons.mp hmem with rfl | hmem
    · exact hcall
    · obtain ⟨htasks, htask, hattempt⟩ := h.call call' hmem
      exact ⟨htasks, htask.trans hid, hattempt.trans_eq hmax⟩
  · intro s' hmem htask hsucceeded
    have hfirst := commits_put (failTask · error) hmem htask hactionable hsucceeded hid
      fun _ hmem hrunning => .fail error hmem hrunning
    refine hfirst.trans ?_
    have hrest := h.commits { s' with tasks := s'.tasks.put (failTask (runningVersion task) error) }
      (by rw [hfailed]; exact hmem) (by simp) ?_
    · have hput := put_put s'.tasks (r := failTask (runningVersion task) error)
        (q := outcome.task) h.taskId.symm
      simp only [Snapshot.settle, hput] at hrest ⊢
      exact hrest
    · have hsame := Sound.dependenciesSucceeded_put
        (r := failTask (runningVersion task) error) (by rw [hfailed, htask]) hactionable hsucceeded
      intro d hd
      refine hsame d ?_
      rw [← hdeps]
      exact hd

theorem Settles.failed (hactionable : task.actionable) (hleft : 1 ≤ executionsLeft task)
    (hcall : call.tasks = s.tasks ∧ call.context.taskId = task.taskId ∧
      call.context.attempt ≤ task.maxAttempts)
    (h : ¬ (error.retriable ∧ (runningVersion task).attempt < task.maxAttempts)) :
    Settles s task ⟨failTask (runningVersion task) error, none, [call]⟩ := by
  obtain ⟨hid, -, hmax, -⟩ := runningVersion_eq task
  refine ⟨hid, ?_, Or.inr rfl, hleft, ?_, ?_⟩
  · rw [← hmax] at h
    refine AgentTaskRecord.not_actionable_iff.mpr (Or.inr ⟨rfl, ?_⟩)
    intro hretry
    have hlast := AgentTaskRecord.mayRetry_attempt hretry
    simp only [AgentTaskRecord.mayRetry, Bool.and_eq_true] at hretry
    exact h ⟨hretry.2.1, hlast⟩
  · exact List.forall_mem_singleton.mpr hcall
  · intro s' hmem htask hsucceeded
    exact commits_put (failTask · error) hmem htask hactionable hsucceeded hid
      fun _ hmem hrunning => .fail error hmem hrunning

theorem Settles.produced {candidate : Candidate}
    (hactionable : task.actionable) (hleft : 1 ≤ executionsLeft task)
    (hcall : call.tasks = s.tasks ∧ call.context.taskId = task.taskId ∧
      call.context.attempt ≤ task.maxAttempts) :
    Settles s task ⟨completeTask (runningVersion task) candidate, some candidate, [call]⟩ := by
  obtain ⟨hid, -⟩ := runningVersion_eq task
  refine ⟨hid, rfl, Or.inl rfl, hleft, ?_, ?_⟩
  · exact List.forall_mem_singleton.mpr hcall
  · intro s' hmem htask hsucceeded
    exact commits_put (completeTask · candidate) hmem htask hactionable hsucceeded hid
      fun _ hmem hrunning => .complete candidate hmem hrunning

theorem runTask_succ {fuel : ℕ} {dependencies : List Candidate}
    (h : (runningVersion task).dependencyTaskIds.mapM s.requireCandidate = .ok dependencies) :
    runTask agent s (fuel + 1) task =
      let current := runningVersion task
      let call : AgentCall := ⟨s.tasks, current.taskId, current.attempt, dependencies⟩
      match agent call.context with
      | .produced candidate => .ok ⟨completeTask current candidate, some candidate, [call]⟩
      | .timedOut =>
        if current.attempt < current.maxAttempts then do
          let outcome ← runTask agent s fuel (failTask current operationTimeoutError)
          .ok { outcome with calls := call :: outcome.calls }
        else
          .ok ⟨failTask current operationTimeoutError, none, [call]⟩
      | .raised error =>
        if error.retriable ∧ current.attempt < current.maxAttempts then do
          let outcome ← runTask agent s fuel (failTask current error)
          .ok { outcome with calls := call :: outcome.calls }
        else
          .ok ⟨failTask current error, none, [call]⟩ := by
  rw [runTask, h]
  rfl

theorem mayRetry_failTask (h : error.retriable)
    (hlast : task.attempt < task.maxAttempts) : (failTask task error).mayRetry := by
  simp [AgentTaskRecord.mayRetry, failTask, h, hlast]

theorem runTask_settles {fuel : ℕ} (hactionable : task.actionable)
    (hdeps : ∀ d ∈ task.dependencyTaskIds, ∃ candidate, s.requireCandidate d = .ok candidate)
    (hle : task.attempt ≤ task.maxAttempts)
    (hlt : task.state ≠ .running → task.attempt < task.maxAttempts)
    (hfuel : executionsLeft task ≤ fuel) :
    ∃ outcome, runTask agent s fuel task = .ok outcome ∧ Settles s task outcome := by
  induction fuel generalizing task with
  | zero =>
    obtain ⟨-, hleft⟩ := runningVersion_attempt hle hlt
    omega
  | succ fuel ih =>
    obtain ⟨hid, hdependencies, hmax, -⟩ := runningVersion_eq task
    obtain ⟨hattempt, hleft⟩ := runningVersion_attempt hle hlt
    obtain ⟨dependencies, hdependency⟩ := exists_mapM_eq_ok hdeps
    rw [← hdependencies] at hdependency
    have hnext : ∀ error : ErrorDocument, error.retriable →
        (runningVersion task).attempt < (runningVersion task).maxAttempts →
        ∃ outcome, runTask agent s fuel (failTask (runningVersion task) error) = .ok outcome ∧
          Settles s (failTask (runningVersion task) error) outcome ∧
          executionsLeft (failTask (runningVersion task) error) + 1 ≤ executionsLeft task := by
      intro error hretriable hlast
      have hless : executionsLeft (failTask (runningVersion task) error) =
          task.maxAttempts - (runningVersion task).attempt := by
        simp [executionsLeft, failTask, hmax]
      have hagain : (failTask (runningVersion task) error).actionable :=
        AgentTaskRecord.actionable_iff.mpr (Or.inr (Or.inr (mayRetry_failTask hretriable hlast)))
      obtain ⟨outcome, houtcome, hsettles⟩ := ih hagain
        (fun d hd => hdeps d (hdependencies ▸ hd)) hlast.le (fun _ => hlast) (by omega)
      exact ⟨outcome, houtcome, hsettles, by omega⟩
    rw [runTask_succ hdependency]
    cases hagent : agent ⟨(runningVersion task).taskId, (runningVersion task).attempt,
        dependencies⟩ with
    | produced candidate =>
      simp only [hagent]
      exact ⟨_, rfl, Settles.produced hactionable (by omega) ⟨rfl, hid, hattempt⟩⟩
    | timedOut =>
      simp only [hagent]
      by_cases hlast : (runningVersion task).attempt < (runningVersion task).maxAttempts
      · obtain ⟨outcome, houtcome, hsettles, hless⟩ := hnext operationTimeoutError rfl hlast
        rw [if_pos hlast, houtcome]
        exact ⟨_, rfl, Settles.again hactionable hless ⟨rfl, hid, hattempt⟩ hsettles⟩
      · rw [if_neg hlast]
        refine ⟨_, rfl, Settles.failed hactionable (by omega) ⟨rfl, hid, hattempt⟩ ?_⟩
        exact fun h => hlast (hmax ▸ h.2)
    | raised error =>
      simp only [hagent]
      by_cases hlast : error.retriable ∧
          (runningVersion task).attempt < (runningVersion task).maxAttempts
      · obtain ⟨outcome, houtcome, hsettles, hless⟩ := hnext error hlast.1 hlast.2
        rw [if_pos hlast, houtcome]
        exact ⟨_, rfl, Settles.again hactionable hless ⟨rfl, hid, hattempt⟩ hsettles⟩
      · rw [if_neg hlast]
        refine ⟨_, rfl, Settles.failed hactionable (by omega) ⟨rfl, hid, hattempt⟩ ?_⟩
        exact fun h => hlast (hmax ▸ h)

end task

/-! ### The sweep -/

variable {i : ℕ}

section sweep

variable {blueprint : Blueprint} {s s' : Snapshot} {l : List AgentTaskRecord}

theorem require_of_mem (h : i ∈ tasks.ids) :
    tasks.require i = .ok (tasks.task i) := if_pos h

/-- The tasks `l` of a snapshot that the sweep goes through. -/
structure Listed (s : Snapshot) (l : List AgentTaskRecord) : Prop where
  nodup : (l.map (·.taskId)).Nodup
  mem : ∀ task ∈ l, task.taskId ∈ s.tasks.ids
  current : ∀ task ∈ l, s.tasks.task task.taskId = task
  actionable : ∀ task ∈ l, task.actionable

/-- What the sweep over the tasks `l` makes of a snapshot. -/
structure Swept (l : List AgentTaskRecord) (s s' : Snapshot) : Prop where
  ids : s'.tasks.ids = s.tasks.ids
  candidates : s'.candidates = s.candidates
  other : ∀ i, (∀ task ∈ l, task.taskId ≠ i) → s'.tasks.task i = s.tasks.task i
  cases : ∀ task ∈ l, s'.tasks.task task.taskId = task ∨
    s'.tasks.task task.taskId = skipTask task upstreamReason ∧
      ∃ d ∈ task.dependencyTaskIds, (s'.tasks.task d).state.blocking
  skipped : ∀ task ∈ l, (∃ d ∈ task.dependencyTaskIds, (s.tasks.task d).state.blocking) →
    s'.tasks.task task.taskId = skipTask task upstreamReason
  commits : Relation.ReflTransGen Commit s s'

theorem blocking_skipTask (task : AgentTaskRecord) (reason : String) :
    (skipTask task reason).state.blocking := rfl

theorem Swept.blocking (h : Swept l s s') (hl : Listed s l) {d : ℕ}
    (hd : (s.tasks.task d).state.blocking) : (s'.tasks.task d).state.blocking := by
  by_cases hmem : ∃ task ∈ l, task.taskId = d
  · obtain ⟨task, htask, rfl⟩ := hmem
    rcases h.cases task htask with hsame | ⟨hskip, -⟩
    · rw [hsame, ← hl.current task htask]
      exact hd
    · rw [hskip]
      exact blocking_skipTask task upstreamReason
  · rw [h.other d fun task htask heq => hmem ⟨task, htask, heq⟩]
    exact hd

theorem Listed.rest (h : Listed s (task :: l)) : Listed s l where
  nodup := (List.nodup_cons.mp h.nodup).2
  mem := fun t ht => h.mem t (List.mem_cons_of_mem task ht)
  current := fun t ht => h.current t (List.mem_cons_of_mem task ht)
  actionable := fun t ht => h.actionable t (List.mem_cons_of_mem task ht)

theorem Listed.ne (h : Listed s (task :: l)) {t : AgentTaskRecord}
    (ht : t ∈ l) : t.taskId ≠ task.taskId := by
  intro heq
  exact (List.nodup_cons.mp h.nodup).1 (List.mem_map.mpr ⟨t, ht, heq⟩)

theorem Listed.put {task r : AgentTaskRecord} (h : Listed s (task :: l))
    (hr : r.taskId = task.taskId) : Listed { s with tasks := s.tasks.put r } l where
  nodup := h.rest.nodup
  mem := h.rest.mem
  current := by
    intro t ht
    rw [s.tasks.put_task_of_ne r (hr ▸ h.ne ht)]
    exact h.rest.current t ht
  actionable := h.rest.actionable

theorem Swept.cons {first : Snapshot} (hl : Listed s (task :: l))
    (hfirst : first.tasks = s.tasks ∧ (¬ ∃ d ∈ task.dependencyTaskIds,
        (s.tasks.task d).state.blocking) ∨
      first.tasks = s.tasks.put (skipTask task upstreamReason) ∧
        ∃ d ∈ task.dependencyTaskIds, (s.tasks.task d).state.blocking)
    (hcandidates : first.candidates = s.candidates)
    (hcommits : Relation.ReflTransGen Commit s first) (hlisted : Listed first l)
    (h : Swept l first s') : Swept (task :: l) s s' := by
  have hids : first.tasks.ids = s.tasks.ids := by
    rcases hfirst with ⟨heq, -⟩ | ⟨heq, -⟩ <;> rw [heq]
    rfl
  have hother : ∀ i, task.taskId ≠ i → first.tasks.task i = s.tasks.task i := by
    intro i hi
    rcases hfirst with ⟨heq, -⟩ | ⟨heq, -⟩
    · rw [heq]
    · rw [heq]
      exact s.tasks.put_task_of_ne _ fun heq => hi heq.symm
  have hself : s'.tasks.task task.taskId = first.tasks.task task.taskId :=
    h.other _ fun t ht => hl.ne ht
  have hblocking : ∀ d, (s.tasks.task d).state.blocking → (first.tasks.task d).state.blocking := by
    intro d hd
    rcases hfirst with ⟨heq, -⟩ | ⟨heq, -⟩
    · rw [heq]
      exact hd
    · by_cases hne : d = task.taskId
      · subst hne
        rw [heq]
        simp only [TaskById.put, skipTask, Function.update_self]
        rfl
      · rw [hother d fun heq => hne heq.symm]
        exact hd
  refine ⟨h.ids.trans hids, h.candidates.trans hcandidates, ?_, ?_, ?_, hcommits.trans h.commits⟩
  · intro i hi
    rw [h.other i fun t ht => hi t (List.mem_cons_of_mem task ht)]
    exact hother i (hi task (by simp))
  · intro t ht
    rcases List.mem_cons.mp ht with rfl | ht
    · rcases hfirst with ⟨heq, -⟩ | ⟨heq, d, hd, hblocked⟩
      · exact Or.inl (by rw [hself, heq, hl.current t (by simp)])
      · refine Or.inr ⟨?_, d, hd, h.blocking hlisted (hblocking d hblocked)⟩
        rw [hself, heq]
        exact s.tasks.put_task_self (skipTask t upstreamReason)
    · exact h.cases t ht
  · intro t ht hblocked
    rcases List.mem_cons.mp ht with rfl | ht
    · rcases hfirst with ⟨-, hnot⟩ | ⟨heq, -⟩
      · exact absurd hblocked hnot
      · rw [hself, heq]
        exact s.tasks.put_task_self (skipTask t upstreamReason)
    · obtain ⟨d, hd, hblocked⟩ := hblocked
      exact h.skipped t ht ⟨d, hd, hblocking d hblocked⟩

/-- The loop over `list(actionable)` runs through and skips what is blocked. -/
theorem skipBlocked_swept (hs : Sound blueprint s) (hl : Listed s l) :
    ∃ tasks, skipBlocked l s.tasks = .ok tasks ∧ Swept l s { s with tasks } := by
  induction l generalizing s with
  | nil =>
    exact ⟨s.tasks, rfl, rfl, rfl, fun _ _ => rfl, by simp, by simp, .refl⟩
  | cons task l ih =>
    have hmem := hl.mem task (by simp)
    have hcurrent := hl.current task (by simp)
    have hlookup : task.dependencyTaskIds.mapM s.tasks.require =
        .ok (task.dependencyTaskIds.map s.tasks.task) := by
      apply mapM_of_ok
      intro d hd
      exact require_of_mem (hs.dependency_mem hmem (by rw [hcurrent]; exact hd))
    rw [skipBlocked, hlookup]
    show ∃ tasks, (if (task.dependencyTaskIds.map s.tasks.task).any (·.state.blocking) then
      skipBlocked l (s.tasks.put (skipTask task upstreamReason)) else skipBlocked l s.tasks) = _ ∧ _
    have hany : (task.dependencyTaskIds.map s.tasks.task).any (·.state.blocking) ↔
        ∃ d ∈ task.dependencyTaskIds, (s.tasks.task d).state.blocking := by
      simp
    by_cases hblocked : ∃ d ∈ task.dependencyTaskIds, (s.tasks.task d).state.blocking
    · rw [if_pos (hany.mpr hblocked)]
      have hskip : Commit s { s with tasks := s.tasks.put (skipTask task upstreamReason) } := by
        have hcommit := Commit.skip (s := s) upstreamReason hmem
          (by rw [hcurrent]; exact hl.actionable task (by simp)) ?_
        · rw [hcurrent] at hcommit
          exact hcommit
        · rw [hcurrent]
          intro hsucceeded
          obtain ⟨d, hd, hblocking⟩ := hblocked
          rw [hsucceeded d hd] at hblocking
          cases hblocking
      have hlisted := hl.put (r := skipTask task upstreamReason) rfl
      obtain ⟨tasks, htasks, hswept⟩ := ih (hs.commit hskip) hlisted
      refine ⟨tasks, htasks, Swept.cons hl (Or.inr ⟨?_, hblocked⟩) ?_
        (Relation.ReflTransGen.single hskip) hlisted hswept⟩
      · rfl
      · rfl
    · rw [if_neg fun h => hblocked (hany.mp h)]
      obtain ⟨tasks, htasks, hswept⟩ := ih hs hl.rest
      exact ⟨tasks, htasks, Swept.cons hl (Or.inl ⟨rfl, hblocked⟩) rfl .refl hl.rest hswept⟩

end sweep

/-! ### The batch -/

section batch

variable {agent : AgentExecutionContext → Outcome} {blueprint : Blueprint} {s s' : Snapshot}

theorem requireCandidate_ok (hs : Sound blueprint s) {d : ℕ} (hd : d ∈ s.tasks.ids)
    (hstate : (s.tasks.task d).state = .succeeded) :
    ∃ candidate, s.requireCandidate d = .ok candidate := by
  obtain ⟨c, hc, hsome⟩ := hs.produced d hd hstate
  obtain ⟨candidate, hcandidate⟩ := Option.isSome_iff_exists.mp hsome
  refine ⟨candidate, ?_⟩
  rw [Snapshot.requireCandidate, require_of_mem hd]
  show (match (s.tasks.task d).candidateId with
    | none => _
    | some c => _) = _
  simp only [hc, hcandidate]

theorem isReady_iff :
    isReady tasks task ↔ task.actionable ∧ tasks.DependenciesSucceeded task := by
  simp [isReady, TaskById.DependenciesSucceeded]

theorem runTask_of_ready (hs : Sound blueprint s) (hi : i ∈ s.tasks.ids)
    (hready : isReady s.tasks (s.tasks.task i)) :
    ∃ outcome, runTask agent s (taskFuel (s.tasks.task i)) (s.tasks.task i) = .ok outcome ∧
      Settles s (s.tasks.task i) outcome := by
  obtain ⟨hactionable, hdeps⟩ := isReady_iff.mp hready
  refine runTask_settles hactionable ?_ (hs.attempt_le i hi) (hs.attempt_lt hi hactionable) ?_
  · intro d hd
    exact requireCandidate_ok hs (hs.dependency_mem hi hd) (hdeps d hd)
  · unfold executionsLeft taskFuel
    split_ifs <;> omega

theorem requireStep_ok (hs : Sound blueprint s) (hi : i ∈ s.tasks.ids) :
    ∃ step, blueprint.require (s.tasks.task i).taskId = .ok step := by
  obtain ⟨step, hstep, hid, htask, -⟩ := hs.step i hi
  rw [htask, Blueprint.require]
  cases hfind : blueprint.steps.find? fun step => step.taskId = i with
  | some found => exact ⟨found, rfl⟩
  | none => exact absurd hid (by simpa using List.find?_eq_none.mp hfind step hstep)

/-- The tasks that one round runs. -/
structure Batch (s : Snapshot) (batch : List AgentTaskRecord) : Prop where
  ne_nil : batch ≠ []
  nodup : (batch.map (·.taskId)).Nodup
  ready : ∀ task ∈ batch, task.taskId ∈ s.tasks.ids ∧ s.tasks.task task.taskId = task ∧
    isReady s.tasks task

theorem values_taskId (hs : Sound blueprint s) : s.tasks.values.map (·.taskId) = s.tasks.ids := by
  rw [TaskById.values, List.map_map]
  exact (List.map_congr_left fun i hi => hs.taskId_eq hi).trans (List.map_id _)

theorem mem_values_iff (hs : Sound blueprint s) :
    task ∈ s.tasks.values ↔ task.taskId ∈ s.tasks.ids ∧ s.tasks.task task.taskId = task := by
  rw [TaskById.mem_values]
  constructor
  · rintro ⟨i, hi, rfl⟩
    rw [hs.taskId_eq hi]
    exact ⟨hi, rfl⟩
  · rintro ⟨hi, htask⟩
    exact ⟨task.taskId, hi, htask⟩

theorem nodup_filter_values (hs : Sound blueprint s) (p : AgentTaskRecord → Bool) :
    ((s.tasks.values.filter p).map (·.taskId)).Nodup := by
  have hnodup := hs.nodup
  rw [← values_taskId hs] at hnodup
  exact hnodup.sublist (List.filter_sublist.map _)

theorem listed_actionable (hs : Sound blueprint s) :
    Listed s (s.tasks.values.filter (·.actionable)) where
  nodup := nodup_filter_values hs _
  mem := fun _ h => ((mem_values_iff hs).mp (List.mem_filter.mp h).1).1
  current := fun _ h => ((mem_values_iff hs).mp (List.mem_filter.mp h).1).2
  actionable := fun _ h => (List.mem_filter.mp h).2

theorem map_snd_ordered {l : List AgentTaskRecord} {ordered : List (ℕ × AgentTaskRecord)}
    (h : List.Forall₂ (fun task pair => (do
      let step ← blueprint.require task.taskId
      Except.ok (step.ordinal, task)) = Except.ok pair) l ordered) :
    ordered.map Prod.snd = l := by
  induction h with
  | nil => rfl
  | @cons task pair l ordered hpair _ ih =>
    obtain ⟨step, -, hpair⟩ := bind_eq_ok.mp hpair
    rw [List.map_cons, ih, ← Except.ok.inj hpair]

theorem chooseBatch_ok (hs : Sound blueprint s)
    (hne : s.tasks.values.filter (isReady s.tasks) ≠ []) :
    ∃ batch, chooseBatch blueprint (s.tasks.values.filter (isReady s.tasks)) = .ok batch ∧
      Batch s batch := by
  have hstep : ∀ task ∈ s.tasks.values.filter (isReady s.tasks), ∃ step,
      blueprint.require task.taskId = .ok step := by
    intro task htask
    obtain ⟨hi, hcurrent⟩ := (mem_values_iff hs).mp (List.mem_filter.mp htask).1
    rw [← hcurrent]
    exact requireStep_ok hs hi
  obtain ⟨ordered, hordered⟩ := exists_mapM_eq_ok (f := fun task : AgentTaskRecord => do
      let step ← blueprint.require task.taskId
      Except.ok (step.ordinal, task)) (l := s.tasks.values.filter (isReady s.tasks)) (by
    intro task htask
    obtain ⟨step, hstep⟩ := hstep task htask
    exact ⟨(step.ordinal, task), by rw [hstep]; rfl⟩)
  have htasks := map_snd_ordered (mapM_eq_ok.mp hordered)
  have hperm : ((Scheduling.sortBy Prod.fst ordered).map Prod.snd).Perm
      (s.tasks.values.filter (isReady s.tasks)) := by
    rw [← htasks]
    exact Scheduling.perm_sortBy.map Prod.snd
  refine ⟨_, by rw [chooseBatch, hordered]; rfl, ?_, ?_, ?_⟩
  · intro hnil
    rcases List.take_eq_nil_iff.mp hnil with hzero | hnil
    · exact absurd hzero blueprint.maxParallelism_pos.ne'
    · rw [hnil] at hperm
      exact hne hperm.symm.eq_nil
  · refine ((hperm.map _).nodup_iff.mpr (nodup_filter_values hs _)).sublist ?_
    exact (List.take_sublist _ _).map _
  · intro task htask
    obtain ⟨hvalue, hready⟩ := List.mem_filter.mp (hperm.mem_iff.mp (List.mem_of_mem_take htask))
    obtain ⟨hi, hcurrent⟩ := (mem_values_iff hs).mp hvalue
    exact ⟨hi, hcurrent, hready⟩

end batch

end CyberControl.Workflow
