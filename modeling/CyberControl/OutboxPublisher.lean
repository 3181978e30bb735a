import CyberControl.Outbox
import CyberControl.Transition

/-! # Publishers over the outbox

Any number of `OutboxPublisher` workers (`persistence/outbox_publisher.py`) over one outbox table.
`run_once` claims a batch, splits it by partition and awaits one `_process_partition` task for
each; a worker claims again only when all of its tasks have ended.  An action is what happens
between two awaits, and every repository call is one transaction; leases may run out at any
moment. -/

namespace CyberControl.Outbox

open Scheduling

/-- The fate of a repository call: `done` takes effect and answers, `lost` takes effect but ends
with an exception at the caller, `failed` does not take effect and raises. -/
inductive Outcome where
  | done
  | lost
  | failed
deriving DecidableEq, Repr

/-- The table after a call that would take `before` to `after`. -/
def Outcome.table : Outcome → Table → Table → Table
  | .failed, before, _ => before
  | _, _, after => after

/-- Where `_process_partition` is suspended. -/
inductive Task where
  /-- At the head of the loop over the remaining messages, possibly in `renew_claims`. -/
  | head (rest : List Message)
  /-- In `_process(m)`, awaiting the sink. -/
  | sinking (m : Message) (rest : List Message)
  /-- In `_process(m)`, awaiting `mark_published`. -/
  | marking (m : Message) (rest : List Message)
  /-- In `_process(m)`, awaiting `_release_claim_safely` after an exception or a cancellation. -/
  | releasing (m : Message) (rest : List Message)
  /-- In `_release_partition_tail`; `rest` are the messages still to be released. -/
  | releasingTail (rest : List Message)

/-- The loop goes on with `rest`, or ends. -/
def Task.loop : List Message → Option Task
  | [] => none
  | rest => some (.head rest)

/-- `_release_partition_tail(rest)`. -/
def Task.tail : List Message → Option Task
  | [] => none
  | rest => some (.releasingTail rest)

inductive TaskAction where
  | renew (now : ℕ) (outcome : Outcome)
  | handOver
  | sinkReturns
  | sinkRaises
  | mark (publishedAt : ℕ) (outcome : Outcome)
  | release (availableAt : ℕ) (errorCode : Option String) (outcome : Outcome)
  | releaseTail (outboxId availableAt : ℕ) (errorCode : Option String) (outcome : Outcome)
  | abandon
deriving DecidableEq

def messageId (m : Message) : ℕ := m.row.outboxId

/-- One step of a task of worker `w`: the table and the task after it, `none` when it has ended. -/
def Task.step (lease : ℕ) (w : Worker) (t : Table) : Task → TaskAction → Option (Table × Option Task)
  | .head rest, .renew now outcome =>
    let call := renewClaims lease t (rest.map messageId) w now
    if call.1.isOk ∧ outcome = .done then some (call.2, some (.head rest))
    else some (outcome.table t call.2, tail rest)
  | .head (m :: rest), .handOver => some (t, some (.sinking m rest))
  | .sinking m rest, .sinkReturns => some (t, some (.marking m rest))
  | .sinking m rest, .sinkRaises => some (t, some (.releasing m rest))
  | .marking m rest, .mark publishedAt outcome =>
    let call := markPublished t (messageId m) w publishedAt
    if call.1.isOk ∧ outcome = .done then some (call.2, loop rest)
    else some (outcome.table t call.2, some (.releasing m rest))
  | .releasing m rest, .release availableAt errorCode outcome =>
    some (outcome.table t (releaseClaim t (messageId m) w availableAt errorCode false).2, tail rest)
  | .releasingTail rest, .releaseTail outboxId availableAt errorCode outcome =>
    if outboxId ∈ rest.map messageId then
      some (outcome.table t (releaseClaim t outboxId w availableAt errorCode true).2,
        tail (rest.filter fun m => messageId m ≠ outboxId))
    else none
  | _, .abandon => some (t, none)
  | _, _ => none

/-! ### The system -/

structure System where
  table : Table
  tasks : Worker → List (Partition × Task)
  invoked : ℕ → ℕ
  handed : ℕ → Bool

/-- An empty table and idle workers. -/
def System.init : System := ⟨[], fun _ => [], fun _ => 0, fun _ => false⟩

/-- The tasks that `run_once` starts: one for each partition of the batch, in sequence order. -/
def partitionTasks (messages : List Message) : List (Partition × Task) :=
  (groupBy (fun m : Message => m.row.partition) messages).map fun kg =>
    (kg.1, .head (sortBy (fun m : Message => m.row.sequence) kg.2))

/-- Replace the task of `p`, or remove it when it has ended. -/
def setTask (tasks : List (Partition × Task)) (p : Partition) : Option Task → List (Partition × Task)
  | none => tasks.filter fun e => e.1 ≠ p
  | some task => tasks.map fun e => if e.1 = p then (p, task) else e

inductive Action where
  | append (outboxId : ℕ) (p : Partition) (priority : MessagePriority)
      (maxAttempts availableAt createdAt : ℕ)
  | claim (w : Worker) (limit now : ℕ) (due : Bool)
  | crash (w : Worker)
  | task (w : Worker) (p : Partition) (a : TaskAction)

namespace System

variable (s : System)

/-- The batch is claimed and its tasks start. -/
def startBatch (w : Worker) (messages : List Message) (t : Table) : System where
  table := t
  tasks := Function.update s.tasks w (partitionTasks messages)
  invoked := s.invoked
  handed id := if id ∈ messages.map messageId then false else s.handed id

/-- The sink is invoked for `m` by worker `w`. -/
def handOver (w : Worker) (m : Message) : System :=
  { s with invoked := Function.update s.invoked (messageId m) (s.invoked (messageId m) + 1),
           handed := fun id => s.handed id || s.table.any fun r =>
            r.outboxId = id ∧ id = messageId m ∧ r.ClaimedBy w }

/-- A step of the task of `p` has led to `t` and `task`. -/
def afterTask (w : Worker) (p : Partition) (t : Table) (task : Option Task) : System :=
  { s with table := t, tasks := Function.update s.tasks w (setTask (s.tasks w) p task) }

/-- The history of a step: only the start of a sink call is recorded. -/
def record (w : Worker) : Task → TaskAction → System
  | .head (m :: _), .handOver => s.handOver w m
  | _, _ => s

end System

def step (lease : ℕ) (s : System) : Action → Option System
  | .append outboxId p priority maxAttempts availableAt createdAt =>
    if outboxId ∉ s.table.map Row.outboxId ∧ 1 ≤ maxAttempts ∧ maxAttempts ≤ 16 then
      some { s with table := append s.table outboxId p priority maxAttempts availableAt createdAt }
    else none
  | .claim w limit now due =>
    if s.tasks w = [] then
      match claimBatch lease s.table w limit now due with
      | .error _ => some s
      | .ok (messages, t) => some (s.startBatch w messages t)
    else none
  | .crash w => some { s with tasks := Function.update s.tasks w [] }
  | .task w p a =>
    ((s.tasks w).lookup p).bind fun task =>
      (task.step lease w s.table a).map fun result =>
        (s.record w task a).afterTask w p result.1 result.2

/-! ### What the steps can do -/

variable {lease : ℕ} {s s' : System}

theorem mem_of_lookup {tasks : List (Partition × Task)} {p : Partition} {task : Task}
    (h : tasks.lookup p = some task) : (p, task) ∈ tasks := by
  induction tasks with
  | nil => simp at h
  | cons e tasks ih =>
    obtain ⟨q, u⟩ := e
    rw [List.lookup_cons] at h
    by_cases hq : p = q
    · subst hq
      simp only [BEq.rfl, Option.some.injEq] at h
      exact h ▸ List.mem_cons_self
    · have hne : (p == q) = false := by simpa using hq
      simp only [hne] at h
      exact List.mem_cons_of_mem _ (ih h)

theorem mem_setTask {tasks : List (Partition × Task)} {p : Partition} {task : Option Task}
    {e : Partition × Task} (h : e ∈ setTask tasks p task) :
    e ∈ tasks ∨ ∃ u ∈ task, e = (p, u) := by
  cases task with
  | none => exact .inl (List.mem_filter.mp h).1
  | some u =>
    obtain ⟨e', he', rfl⟩ := List.mem_map.mp h
    split
    · exact .inr ⟨u, rfl, rfl⟩
    · exact .inl he'

/-- What a step of a task can do to the table and to the task. -/
inductive Task.Steps (lease : ℕ) (w : Worker) (t : Table) : Task → TaskAction → Table → Option Task →
    Prop where
  | abandoned (task) : Steps lease w t task .abandon t none
  | renewed (rest now outcome t' task')
      (ht : t' = t ∨ t' = (renewClaims lease t (rest.map messageId) w now).2)
      (h : task' = some (.head rest) ∨ task' = tail rest) :
      Steps lease w t (.head rest) (.renew now outcome) t' task'
  | handedOver (m rest) : Steps lease w t (.head (m :: rest)) .handOver t (some (.sinking m rest))
  | sinkReturned (m rest) : Steps lease w t (.sinking m rest) .sinkReturns t (some (.marking m rest))
  | sinkRaised (m rest) : Steps lease w t (.sinking m rest) .sinkRaises t (some (.releasing m rest))
  | published (m rest publishedAt outcome) (hone : countClaimed t w [messageId m] = 1) :
      Steps lease w t (.marking m rest) (.mark publishedAt outcome)
        (markPublished t (messageId m) w publishedAt).2 (loop rest)
  | notPublished (m rest publishedAt outcome t')
      (ht : t' = t ∨ t' = (markPublished t (messageId m) w publishedAt).2) :
      Steps lease w t (.marking m rest) (.mark publishedAt outcome) t' (some (.releasing m rest))
  | released (m rest availableAt errorCode outcome t')
      (ht : t' = t ∨ t' = (releaseClaim t (messageId m) w availableAt errorCode false).2) :
      Steps lease w t (.releasing m rest) (.release availableAt errorCode outcome) t' (tail rest)
  | tailReleased (rest outboxId availableAt errorCode outcome t')
      (ht : t' = t ∨ t' = (releaseClaim t outboxId w availableAt errorCode true).2) :
      Steps lease w t (.releasingTail rest) (.releaseTail outboxId availableAt errorCode outcome) t'
        (tail (rest.filter fun m => messageId m ≠ outboxId))

theorem Outcome.table_cases (o : Outcome) (before after : Table) :
    o.table before after = before ∨ o.table before after = after := by
  cases o <;> simp [Outcome.table]

/-- **Inversion of a task step.** -/
theorem Task.steps_of_step {w : Worker} {t t' : Table} {task : Task} {task' : Option Task}
    {a : TaskAction} (h : task.step lease w t a = some (t', task')) :
    Task.Steps lease w t task a t' task' := by
  unfold Task.step at h
  split at h
  · rename_i rest now outcome
    simp only at h
    split at h
    · cases h
      exact .renewed rest now outcome _ _ (.inr rfl) (.inl rfl)
    · cases h
      exact .renewed rest now outcome _ _ (Outcome.table_cases _ _ _) (.inr rfl)
  · cases h
    exact .handedOver _ _
  · cases h
    exact .sinkReturned _ _
  · cases h
    exact .sinkRaised _ _
  · rename_i m rest publishedAt outcome
    simp only at h
    split at h
    · rename_i hok
      cases h
      refine .published m rest publishedAt outcome ?_
      by_contra hne
      simp [markPublished, hne, Except.isOk, Except.toBool] at hok
    · cases h
      exact .notPublished m rest publishedAt outcome _ (Outcome.table_cases _ _ _)
  · cases h
    exact .released _ _ _ _ _ _ (Outcome.table_cases _ _ _)
  · split at h
    · cases h
      exact .tailReleased _ _ _ _ _ _ (Outcome.table_cases _ _ _)
    · cases h
  · cases h
    exact .abandoned _
  · cases h

end CyberControl.Outbox
