import Mathlib.Data.List.Nodup
import Mathlib.Logic.Relation

/-! # Agent tasks of a Topic 3 workflow

The versions that `Topic3Service` appends for one agent task, and the tasks that the runs of
`Topic3Orchestrator` leave behind when they are interrupted. -/

namespace CyberControl.Workflow

/-! ### Records -/

/-- `AgentTaskState` -/
inductive AgentTaskState
  | pending
  | running
  | succeeded
  | failed
  | skipped
  | cancelled
  deriving DecidableEq, Repr

/-- `error_document` of a task -/
structure ErrorDocument where
  errorCode : String
  category : String
  retriable : Bool
  safeMessage : String

/-- What the dependent agents read of a `CandidateV1`. -/
structure Candidate where
  candidateId : ℕ
  content : String

/-- `AgentTaskRecord`; `result_document["candidate_id"]` is `candidateId`. -/
structure AgentTaskRecord where
  taskId : ℕ
  taskVersion : ℕ
  state : AgentTaskState
  dependencyTaskIds : List ℕ
  attempt : ℕ
  maxAttempts : ℕ
  candidateId : Option ℕ
  errorDocument : Option ErrorDocument

/-- `Topic3BlueprintStepV1` -/
structure BlueprintStep where
  taskId : ℕ
  ordinal : ℕ
  dependencyTaskIds : List ℕ
  maxAttempts : ℕ

/-- `Topic3ExecutionBlueprintV1`, with what its validator promises of the steps. -/
structure Blueprint where
  steps : List BlueprintStep
  maxParallelism : ℕ
  maxParallelism_pos : 0 < maxParallelism
  taskId_nodup : (steps.map (·.taskId)).Nodup
  maxAttempts_pos : ∀ step ∈ steps, 0 < step.maxAttempts
  earlier : ∀ step ∈ steps, ∀ d ∈ step.dependencyTaskIds,
    ∃ other ∈ steps, other.taskId = d ∧ other.ordinal < step.ordinal

/-! ### The dictionary of tasks -/

/-- `task_by_id`: its keys in insertion order, and the record under each of them. -/
structure TaskById where
  ids : List ℕ
  task : ℕ → AgentTaskRecord

variable {task : AgentTaskRecord} {i : ℕ}

namespace TaskById

/-- `task_by_id.values()` -/
def values (tasks : TaskById) : List AgentTaskRecord := tasks.ids.map tasks.task

/-- `task_by_id[task.task_id] = task`, for a key that is there. -/
def put (tasks : TaskById) (task : AgentTaskRecord) : TaskById :=
  { tasks with task := Function.update tasks.task task.taskId task }

@[simp] theorem put_task_self (tasks : TaskById) (task : AgentTaskRecord) :
    (tasks.put task).task task.taskId = task := by
  simp [put]

theorem put_task_of_ne (tasks : TaskById) (task : AgentTaskRecord) (h : i ≠ task.taskId) :
    (tasks.put task).task i = tasks.task i := by
  simp [put, h]

theorem mem_values {tasks : TaskById} :
    task ∈ tasks.values ↔ ∃ i ∈ tasks.ids, tasks.task i = task := by
  simp [values]

end TaskById

/-! ### Versions of a task -/

/-- The first version of a task, as `create_workflow` stores it. -/
def newTask (step : BlueprintStep) : AgentTaskRecord where
  taskId := step.taskId
  taskVersion := 1
  state := .pending
  dependencyTaskIds := step.dependencyTaskIds
  attempt := 0
  maxAttempts := step.maxAttempts
  candidateId := none
  errorDocument := none

/-- `mark_task_running` -/
def markTaskRunning (current : AgentTaskRecord) : AgentTaskRecord :=
  { current with
    taskVersion := current.taskVersion + 1
    state := .running
    attempt := current.attempt + 1
    candidateId := none
    errorDocument := none }

/-- `complete_task` -/
def completeTask (current : AgentTaskRecord) (candidate : Candidate) : AgentTaskRecord :=
  { current with
    taskVersion := current.taskVersion + 1
    state := .succeeded
    candidateId := some candidate.candidateId
    errorDocument := none }

/-- `fail_task` -/
def failTask (current : AgentTaskRecord) (error : ErrorDocument) : AgentTaskRecord :=
  { current with
    taskVersion := current.taskVersion + 1
    state := .failed
    candidateId := none
    errorDocument := some error }

/-- `skip_task` -/
def skipTask (current : AgentTaskRecord) (reason : String) : AgentTaskRecord :=
  { current with
    taskVersion := current.taskVersion + 1
    state := .skipped
    candidateId := none
    errorDocument := some
      { errorCode := "LIYAN-TOPIC3-DEPENDENCY-FAILED"
        category := "TASK"
        retriable := false
        safeMessage := reason } }

/-! ### Predicates of the sweep -/

/-- A failure after which the task is run again. -/
def AgentTaskRecord.mayRetry (task : AgentTaskRecord) : Bool :=
  decide (task.state = .failed) &&
    (task.errorDocument.any (·.retriable) && decide (task.attempt < task.maxAttempts))

/-- `actionable`: the task is not settled yet. -/
def AgentTaskRecord.actionable (task : AgentTaskRecord) : Bool :=
  decide (task.state = .pending ∨ task.state = .running) || task.mayRetry

/-- The states of a dependency for which the sweep skips a task. -/
def AgentTaskState.blocking (state : AgentTaskState) : Bool :=
  decide (state = .failed ∨ state = .skipped ∨ state = .cancelled)

/-- The task is settled without a candidate: failed for good, skipped or cancelled. -/
def AgentTaskRecord.Lost (task : AgentTaskRecord) : Prop :=
  task.state.blocking ∧ ¬ task.mayRetry

theorem AgentTaskRecord.mayRetry_state (h : task.mayRetry) :
    task.state = .failed := by
  simp only [mayRetry, Bool.and_eq_true, decide_eq_true_eq] at h
  exact h.1

theorem AgentTaskRecord.mayRetry_attempt (h : task.mayRetry) :
    task.attempt < task.maxAttempts := by
  simp only [mayRetry, Bool.and_eq_true, decide_eq_true_eq] at h
  exact h.2.2

theorem AgentTaskRecord.actionable_iff :
    task.actionable ↔ task.state = .pending ∨ task.state = .running ∨ task.mayRetry := by
  simp [actionable, or_assoc]

theorem AgentTaskRecord.not_actionable_iff :
    task.actionable = false ↔ task.state = .succeeded ∨ task.Lost := by
  cases h : task.state <;> simp [actionable, Lost, AgentTaskState.blocking, mayRetry, h]

theorem AgentTaskRecord.Lost.not_actionable (h : task.Lost) :
    task.actionable = false :=
  AgentTaskRecord.not_actionable_iff.mpr (Or.inr h)

theorem lost_skipTask (task : AgentTaskRecord) (reason : String) : (skipTask task reason).Lost := by
  simp [AgentTaskRecord.Lost, skipTask, AgentTaskState.blocking, AgentTaskRecord.mayRetry]

/-! ### What interrupted runs leave -/

/-- `candidate_by_id` -/
abbrev CandidateById := ℕ → Option Candidate

/-- `candidate_by_id[candidate.candidate_id] = candidate` -/
def CandidateById.put (candidates : CandidateById) (candidate : Candidate) : CandidateById :=
  Function.update candidates candidate.candidateId (some candidate)

/-- The stored tasks and candidates of one workflow. -/
structure Snapshot where
  tasks : TaskById
  candidates : CandidateById

def TaskById.DependenciesSucceeded (tasks : TaskById) (task : AgentTaskRecord) : Prop :=
  ∀ d ∈ task.dependencyTaskIds, (tasks.task d).state = .succeeded

instance (tasks : TaskById) (task : AgentTaskRecord) :
    Decidable (tasks.DependenciesSucceeded task) :=
  inferInstanceAs (Decidable (∀ _ ∈ _, _))

/-- The tasks as `create_workflow` stores them. -/
def Created (blueprint : Blueprint) (s : Snapshot) : Prop :=
  s.tasks.ids.Perm (blueprint.steps.map (·.taskId)) ∧
    ∀ step ∈ blueprint.steps, s.tasks.task step.taskId = newTask step

/-- One version that a run of the workflow commits. -/
inductive Commit : Snapshot → Snapshot → Prop
  | start {s : Snapshot} {i : ℕ} (hi : i ∈ s.tasks.ids) (hready : (s.tasks.task i).actionable)
      (hstate : (s.tasks.task i).state ≠ .running)
      (hdeps : s.tasks.DependenciesSucceeded (s.tasks.task i)) :
      Commit s { s with tasks := s.tasks.put (markTaskRunning (s.tasks.task i)) }
  | complete {s : Snapshot} {i : ℕ} (candidate : Candidate) (hi : i ∈ s.tasks.ids)
      (hstate : (s.tasks.task i).state = .running) :
      Commit s ⟨s.tasks.put (completeTask (s.tasks.task i) candidate), s.candidates.put candidate⟩
  | fail {s : Snapshot} {i : ℕ} (error : ErrorDocument) (hi : i ∈ s.tasks.ids)
      (hstate : (s.tasks.task i).state = .running) :
      Commit s { s with tasks := s.tasks.put (failTask (s.tasks.task i) error) }
  | skip {s : Snapshot} {i : ℕ} (reason : String) (hi : i ∈ s.tasks.ids)
      (hready : (s.tasks.task i).actionable)
      (hdeps : ¬ s.tasks.DependenciesSucceeded (s.tasks.task i)) :
      Commit s { s with tasks := s.tasks.put (skipTask (s.tasks.task i) reason) }

/-- What runs that were interrupted after any of their commits have left of a workflow. -/
def Left (blueprint : Blueprint) (s : Snapshot) : Prop :=
  ∃ created, Created blueprint created ∧ Relation.ReflTransGen Commit created s

/-! ### The invariant of a snapshot -/

/-- A task is started only when its dependencies have succeeded, and stays within its attempts. -/
structure Sound (blueprint : Blueprint) (s : Snapshot) : Prop where
  nodup : s.tasks.ids.Nodup
  step : ∀ i ∈ s.tasks.ids, ∃ step ∈ blueprint.steps,
    step.taskId = i ∧ (s.tasks.task i).taskId = i ∧
      (s.tasks.task i).dependencyTaskIds = step.dependencyTaskIds ∧
      (s.tasks.task i).maxAttempts = step.maxAttempts
  known : ∀ step ∈ blueprint.steps, step.taskId ∈ s.tasks.ids
  started : ∀ i ∈ s.tasks.ids, (s.tasks.task i).state = .running ∨
    (s.tasks.task i).state = .succeeded ∨ (s.tasks.task i).state = .failed →
      s.tasks.DependenciesSucceeded (s.tasks.task i)
  attempt_le : ∀ i ∈ s.tasks.ids, (s.tasks.task i).attempt ≤ (s.tasks.task i).maxAttempts
  pending_lt : ∀ i ∈ s.tasks.ids, (s.tasks.task i).state = .pending →
    (s.tasks.task i).attempt < (s.tasks.task i).maxAttempts
  running_pos : ∀ i ∈ s.tasks.ids, (s.tasks.task i).state = .running →
    0 < (s.tasks.task i).attempt
  produced : ∀ i ∈ s.tasks.ids, (s.tasks.task i).state = .succeeded →
    ∃ c, (s.tasks.task i).candidateId = some c ∧ (s.candidates c).isSome

namespace Sound

variable {blueprint : Blueprint} {s : Snapshot}

theorem dependency_mem (hs : Sound blueprint s) {i d : ℕ} (hi : i ∈ s.tasks.ids)
    (hd : d ∈ (s.tasks.task i).dependencyTaskIds) : d ∈ s.tasks.ids := by
  obtain ⟨step, hstep, rfl, -, hdeps, -⟩ := hs.step i hi
  rw [hdeps] at hd
  obtain ⟨other, hother, rfl, -⟩ := blueprint.earlier step hstep d hd
  exact hs.known other hother

theorem taskId_eq (hs : Sound blueprint s) (hi : i ∈ s.tasks.ids) :
    (s.tasks.task i).taskId = i := by
  obtain ⟨step, -, -, htask, -⟩ := hs.step i hi
  exact htask

theorem dependenciesSucceeded_put {tasks : TaskById} {task current : AgentTaskRecord}
    {r : AgentTaskRecord} (hcurrent : tasks.task r.taskId = current)
    (hactionable : current.actionable) (h : tasks.DependenciesSucceeded task) :
    (tasks.put r).DependenciesSucceeded task := by
  intro d hd
  have hne : d ≠ r.taskId := by
    rintro rfl
    have hstate := h _ hd
    rw [hcurrent] at hstate
    rw [AgentTaskRecord.not_actionable_iff.mpr (Or.inl hstate)] at hactionable
    exact absurd hactionable (by simp)
  rw [tasks.put_task_of_ne r hne]
  exact h d hd

theorem put (hs : Sound blueprint s) {current r : AgentTaskRecord} {candidates : CandidateById}
    (hcurrent : s.tasks.task r.taskId = current)
    (hactionable : current.actionable) (hdeps : r.dependencyTaskIds = current.dependencyTaskIds)
    (hmax : r.maxAttempts = current.maxAttempts) (hattempt : r.attempt ≤ r.maxAttempts)
    (hstate : r.state ≠ .pending) (hpos : r.state = .running → 0 < r.attempt)
    (hstarted : r.state = .running ∨ r.state = .succeeded ∨ r.state = .failed →
      s.tasks.DependenciesSucceeded current)
    (hproduced : r.state = .succeeded → ∃ c, r.candidateId = some c ∧ (candidates c).isSome)
    (hcandidates : ∀ c, (s.candidates c).isSome → (candidates c).isSome) :
    Sound blueprint ⟨s.tasks.put r, candidates⟩ where
  nodup := hs.nodup
  step := by
    intro i hi
    by_cases h : i = r.taskId
    · subst h
      obtain ⟨step, hstep, hid, htask, hsteps⟩ := hs.step _ hi
      refine ⟨step, hstep, hid, by simp, ?_⟩
      rw [TaskById.put_task_self, hdeps, hmax, ← hcurrent]
      exact hsteps
    · rw [s.tasks.put_task_of_ne r h]
      exact hs.step i hi
  known := hs.known
  started := by
    intro i hi h
    by_cases hne : i = r.taskId
    · subst hne
      rw [TaskById.put_task_self] at h ⊢
      intro d hd
      rw [hdeps] at hd
      exact dependenciesSucceeded_put hcurrent hactionable (hstarted h) d hd
    · rw [s.tasks.put_task_of_ne r hne] at h ⊢
      exact dependenciesSucceeded_put hcurrent hactionable (hs.started i hi h)
  attempt_le := by
    intro i hi
    by_cases hne : i = r.taskId
    · subst hne
      rw [TaskById.put_task_self]
      exact hattempt
    · rw [s.tasks.put_task_of_ne r hne]
      exact hs.attempt_le i hi
  pending_lt := by
    intro i hi h
    by_cases hne : i = r.taskId
    · subst hne
      rw [TaskById.put_task_self] at h
      exact absurd h hstate
    · rw [s.tasks.put_task_of_ne r hne] at h ⊢
      exact hs.pending_lt i hi h
  running_pos := by
    intro i hi h
    by_cases hne : i = r.taskId
    · subst hne
      rw [TaskById.put_task_self] at h ⊢
      exact hpos h
    · rw [s.tasks.put_task_of_ne r hne] at h ⊢
      exact hs.running_pos i hi h
  produced := by
    intro i hi h
    by_cases hne : i = r.taskId
    · subst hne
      rw [TaskById.put_task_self] at h ⊢
      exact hproduced h
    · rw [s.tasks.put_task_of_ne r hne] at h ⊢
      obtain ⟨c, hc, hsome⟩ := hs.produced i hi h
      exact ⟨c, hc, hcandidates c hsome⟩

theorem attempt_lt (hs : Sound blueprint s) (hi : i ∈ s.tasks.ids)
    (hactionable : (s.tasks.task i).actionable) (hstate : (s.tasks.task i).state ≠ .running) :
    (s.tasks.task i).attempt < (s.tasks.task i).maxAttempts := by
  rcases AgentTaskRecord.actionable_iff.mp hactionable with h | h | h
  · exact hs.pending_lt i hi h
  · exact absurd h hstate
  · exact AgentTaskRecord.mayRetry_attempt h

theorem commit (hs : Sound blueprint s) {s' : Snapshot} (h : Commit s s') : Sound blueprint s' := by
  cases h with
  | @start i hi hready hstate hdeps =>
    have hid := hs.taskId_eq hi
    refine hs.put (by rw [markTaskRunning, hid]) hready
      rfl rfl (hs.attempt_lt hi hready hstate) (by simp [markTaskRunning])
      (by simp [markTaskRunning]) (fun _ => hdeps) (by simp [markTaskRunning]) fun _ h => h
  | @complete i candidate hi hstate =>
    have hid := hs.taskId_eq hi
    refine hs.put (by rw [completeTask, hid])
      (AgentTaskRecord.actionable_iff.mpr (Or.inr (Or.inl hstate))) rfl rfl (hs.attempt_le i hi)
      (by simp [completeTask]) (by simp [completeTask]) (fun _ => hs.started i hi (Or.inl hstate)) ?_ ?_
    · intro _
      exact ⟨candidate.candidateId, rfl, by simp [CandidateById.put]⟩
    · intro c hc
      by_cases h : c = candidate.candidateId
      · subst h
        simp [CandidateById.put]
      · simp [CandidateById.put, h, hc]
  | @fail i error hi hstate =>
    have hid := hs.taskId_eq hi
    refine hs.put (by rw [failTask, hid])
      (AgentTaskRecord.actionable_iff.mpr (Or.inr (Or.inl hstate))) rfl rfl (hs.attempt_le i hi)
      (by simp [failTask]) (by simp [failTask]) (fun _ => hs.started i hi (Or.inl hstate))
      (by simp [failTask]) fun _ h => h
  | @skip i reason hi hready hdeps =>
    have hid := hs.taskId_eq hi
    exact hs.put (by rw [skipTask, hid]) hready rfl rfl
      (hs.attempt_le i hi) (by simp [skipTask]) (by simp [skipTask]) (by simp [skipTask])
      (by simp [skipTask]) fun _ h => h

theorem commits (hs : Sound blueprint s) {s' : Snapshot} (h : Relation.ReflTransGen Commit s s') :
    Sound blueprint s' := by
  induction h with
  | refl => exact hs
  | tail _ hstep ih => exact ih.commit hstep

theorem created (h : Created blueprint s) : Sound blueprint s := by
  obtain ⟨hperm, hnew⟩ := h
  have hstep : ∀ i ∈ s.tasks.ids, ∃ step ∈ blueprint.steps,
      step.taskId = i ∧ s.tasks.task i = newTask step := by
    intro i hi
    obtain ⟨step, hstep, rfl⟩ := List.mem_map.mp (hperm.mem_iff.mp hi)
    exact ⟨step, hstep, rfl, hnew step hstep⟩
  refine ⟨hperm.nodup_iff.mpr blueprint.taskId_nodup, ?_, ?_, ?_, ?_, ?_, ?_, ?_⟩
  · intro i hi
    obtain ⟨step, hmem, hid, htask⟩ := hstep i hi
    rw [htask]
    exact ⟨step, hmem, hid, hid, rfl, rfl⟩
  · intro step hmem
    exact hperm.mem_iff.mpr (List.mem_map_of_mem hmem)
  · intro i hi h
    obtain ⟨step, -, -, htask⟩ := hstep i hi
    simp [htask, newTask] at h
  · intro i hi
    obtain ⟨step, -, -, htask⟩ := hstep i hi
    simp [htask, newTask]
  · intro i hi _
    obtain ⟨step, hmem, -, htask⟩ := hstep i hi
    rw [htask]
    exact blueprint.maxAttempts_pos step hmem
  · intro i hi h
    obtain ⟨step, -, -, htask⟩ := hstep i hi
    simp [htask, newTask] at h
  · intro i hi h
    obtain ⟨step, -, -, htask⟩ := hstep i hi
    simp [htask, newTask] at h

/-- **Every snapshot that interrupted runs leave is sound.** -/
theorem left (h : Left blueprint s) : Sound blueprint s := by
  obtain ⟨start, hcreated, hcommits⟩ := h
  exact (Sound.created hcreated).commits hcommits

end Sound

end CyberControl.Workflow
