import CyberControl.Errors
import CyberControl.Json
import CyberControl.Transition
import Mathlib.Data.List.Sort

/-! # The task queue

`AsyncTaskQueue` (`infrastructure/tasks/queue.py`) with `CircuitBreaker`, `AsyncBulkhead` and `retry_async`
(`infrastructure/resilience.py`), as steps between two points where a coroutine waits: the workers wait in
`get`, for the bulkhead, in a handler, between two attempts and in a compensator.  Times are in microseconds;
whether the token bucket of a tenant has a token is part of a step. -/

namespace CyberControl.TaskQueue

/-! ### Tasks -/

inductive TaskPriority where
  | CRITICAL
  | HIGH
  | NORMAL
  | LOW

def TaskPriority.value : TaskPriority → ℕ
  | .CRITICAL => 0
  | .HIGH => 10
  | .NORMAL => 20
  | .LOW => 30

structure TaskRequest where
  taskType : String
  priority : TaskPriority
  taskId : ℕ
  maxAttempts : ℕ
  expiresAt : Option ℕ
  maxAttempts_bounds : 1 ≤ maxAttempts ∧ maxAttempts ≤ 16

/-- `_QueueItem`; the ordinal stands for its future too. -/
structure Item where
  ordinal : ℕ
  request : TaskRequest

/-- The order of `_QueueItem`. -/
def Item.before (a b : Item) : Prop :=
  a.request.priority.value < b.request.priority.value ∨
    a.request.priority.value = b.request.priority.value ∧ a.ordinal ≤ b.ordinal

instance (a b : Item) : Decidable (a.before b) := inferInstanceAs (Decidable (_ ∨ _))

structure TaskResult where
  taskId : ℕ
  succeeded : Bool
  attempts : ℕ
  output : Option Json
  errorCode : Option ErrorCode
  completedAt : ℕ

/-- How a handler ends within its timeout, or a compensator; `cancelled` is a `CancelledError` that it lets
through. -/
inductive Outcome where
  | returned (output : Json)
  | raised (e : Exn)
  | timedOut
  | cancelled

/-! ### Errors -/

def taskExpiredError : Exn :=
  .liyan { code := .MESSAGE_EXPIRED, safeMessage := "The task expired before execution.",
           category := .TASK, statusCode := 410 }

def taskHandlerMissingError : Exn :=
  .liyan { code := .TASK_HANDLER_MISSING, category := .TASK, statusCode := 422,
           safeMessage := "No task handler is registered for the task type." }

def RateLimitExceeded : Exn :=
  .liyan { code := .RATE_LIMITED, safeMessage := "Rate limit exceeded.", category := .RATE_LIMIT,
           retriable := true, statusCode := 429 }

def CircuitOpenError : Exn :=
  .liyan { code := .CIRCUIT_OPEN, safeMessage := "The downstream circuit is open.", category := .CIRCUIT,
           retriable := true, statusCode := 503 }

def OperationTimeoutError : Exn :=
  .liyan { code := .TIMEOUT, safeMessage := "The operation exceeded its deadline.", category := .TIMEOUT,
           retriable := true, statusCode := 504 }

/-- `isinstance(exc, LiyanError) and exc.retriable`. -/
def retryable : Exn → Bool
  | .liyan e => e.retriable
  | _ => false

/-- The error code that `_compensate` reports. -/
def errorCode : Exn → ErrorCode
  | .liyan e => e.code
  | _ => .TASK_FAILED

/-! ### Circuit breakers -/

inductive CircuitState where
  | CLOSED
  | OPEN
  | HALF_OPEN
deriving DecidableEq, Repr

/-- `CircuitBreaker` -/
structure CircuitBreaker where
  state : CircuitState
  failures : ℕ
  openedAt : ℕ
  halfOpenProbeInFlight : Bool

def CircuitBreaker.new : CircuitBreaker := ⟨.CLOSED, 0, 0, false⟩

/-- `reset_timeout_seconds` -/
def resetTimeout : ℕ := 30000000

/-- `execute` before the operation; `false` is a `CircuitOpenError`. -/
def CircuitBreaker.enter (b : CircuitBreaker) (resetTimeout now : ℕ) : CircuitBreaker × Bool :=
  if b.state = .OPEN ∧ now - b.openedAt < resetTimeout then (b, false)
  else
    let b := if b.state = .OPEN then { b with state := .HALF_OPEN } else b
    if b.state = .HALF_OPEN then
      if b.halfOpenProbeInFlight then (b, false) else ({ b with halfOpenProbeInFlight := true }, true)
    else (b, true)

/-- `execute` after the operation raised an `Exception`. -/
def CircuitBreaker.fail (b : CircuitBreaker) (threshold now : ℕ) : CircuitBreaker :=
  let b := { b with failures := b.failures + 1, halfOpenProbeInFlight := false }
  if b.state = .HALF_OPEN ∨ threshold ≤ b.failures then { b with state := .OPEN, openedAt := now } else b

/-- `execute` after the operation returned. -/
def CircuitBreaker.succeed (b : CircuitBreaker) : CircuitBreaker :=
  { b with state := .CLOSED, failures := 0, halfOpenProbeInFlight := false }

/-! ### States -/

/-- What a worker does with its item; `executing` only within a step. -/
inductive Activity where
  | executing
  | bulkhead
  | handling
  | backoff
  | compensating (e : Exn)

/-- A worker waits in `get`, holds an item after some attempts, or has stopped. -/
inductive Phase where
  | waiting
  | holding (item : Item) (attempts : ℕ) (activity : Activity)
  | stopped

/-- A worker; `cancelRequested` until the cancellation is delivered. -/
structure Worker where
  phase : Phase
  cancelRequested : Bool

/-- Where `close` stands: not called, in `join`, `join` has been released, the workers are cancelled, it has
returned. -/
inductive Closing where
  | running
  | joining
  | released
  | cancelling
  | returned
deriving DecidableEq, Repr

/-- What happened to an item: when its handler was started, how often the handler returned, how often the
compensator was started, and the results that its future was given. -/
structure Log where
  starts : List ℕ
  returns : ℕ
  compensations : ℕ
  results : List TaskResult

def Log.empty : Log := ⟨[], 0, 0, []⟩

/-- The parameters of a queue and what is registered. -/
structure Service where
  workerCount : ℕ
  queueCapacity : ℕ
  taskConcurrency : ℕ
  handlers : String → Bool
  compensators : String → Bool
  circuitFailureThreshold : String → ℕ
  positive : 1 ≤ workerCount ∧ 1 ≤ queueCapacity ∧ 1 ≤ taskConcurrency

/-- `items` are all items made so far, `putters` those whose `enqueue` waits in `put`, `returned` those whose
`enqueue` has returned. -/
structure State where
  items : List Item
  queue : List Item
  putters : List Item
  unfinishedTasks : ℕ
  workers : List Worker
  closing : Closing
  returned : List ℕ
  breakers : String → CircuitBreaker
  bulkheadFree : ℕ
  deadLetters : List TaskResult
  log : ℕ → Log

/-- `start` -/
def initial (service : Service) : State where
  items := []
  queue := []
  putters := []
  unfinishedTasks := 0
  workers := List.replicate service.workerCount ⟨.waiting, false⟩
  closing := .running
  returned := []
  breakers _ := .new
  bulkheadFree := service.taskConcurrency
  deadLetters := []
  log _ := .empty

/-! ### Parts of a step -/

section parts

def State.setPhase (s : State) (w : ℕ) (phase : Phase) : State :=
  { s with workers := s.workers.set w ⟨phase, false⟩ }

def State.setLog (s : State) (item : Item) (log : Log) : State :=
  { s with log := Function.update s.log item.ordinal log }

def State.setBreaker (s : State) (taskType : String) (b : CircuitBreaker) : State :=
  { s with breakers := Function.update s.breakers taskType b }

/-- `put_nowait`, after which `enqueue` returns. -/
def State.put (s : State) (item : Item) : State :=
  { s with
    queue := s.queue.orderedInsert Item.before item
    unfinishedTasks := s.unfinishedTasks + 1
    returned := s.returned ++ [item.ordinal] }

/-- `task_done`, which releases `join` at zero. -/
def State.taskDone (s : State) : State :=
  { s with
    unfinishedTasks := s.unfinishedTasks - 1
    closing := if s.unfinishedTasks - 1 = 0 ∧ s.closing = .joining then .released else s.closing }

/-- `worker.cancel()` -/
def Worker.cancel (worker : Worker) : Worker :=
  { worker with cancelRequested := !worker.phase matches .stopped }

/-- `join` is over: all workers are cancelled. -/
def State.cancelWorkers (s : State) : State :=
  { s with workers := s.workers.map Worker.cancel, closing := .cancelling }

/-- The future of the item is resolved, and the worker goes back to `get`. -/
def State.resolve (s : State) (w : ℕ) (item : Item) (result : TaskResult) : State :=
  let log := s.log item.ordinal
  ((s.setLog item { log with results := log.results ++ [result] }).setPhase w .waiting).taskDone

/-- The result of `_compensate`. -/
def failedResult (item : Item) (attempts : ℕ) (e : Exn) (now : ℕ) : TaskResult :=
  ⟨item.request.taskId, false, attempts, none, some (errorCode e), now⟩

/-- The end of the `except` clause of `_worker`. -/
def State.resolveFailed (s : State) (w : ℕ) (item : Item) (attempts : ℕ) (e : Exn) (now : ℕ) : State :=
  let result := failedResult item attempts e now
  { s with deadLetters := s.deadLetters ++ [result] }.resolve w item result

/-- An exception other than `Exception` ends the worker, after `task_done`. -/
def State.stopWorker (s : State) (w : ℕ) : State := (s.setPhase w .stopped).taskDone

/-- The permits of the bulkhead are taken, or someone waits for one. -/
def State.bulkheadLocked (s : State) : Bool :=
  s.bulkheadFree = 0 || s.workers.any fun worker => worker.phase matches .holding _ _ .bulkhead

def State.startHandler (s : State) (w : ℕ) (item : Item) (attempts now : ℕ) : State :=
  let log := s.log item.ordinal
  ({ s with bulkheadFree := s.bulkheadFree - 1 }.setLog item
    { log with starts := log.starts ++ [now] }).setPhase w (.holding item attempts .handling)

variable (service : Service)

/-- `_execute` raised: the `except` clause of `_worker` up to the first wait. -/
def State.failTask (s : State) (w : ℕ) (item : Item) (attempts : ℕ) (e : Exn) (now : ℕ) : State :=
  if service.compensators item.request.taskType then
    let log := s.log item.ordinal
    (s.setLog item { log with compensations := log.compensations + 1 }).setPhase w
      (.holding item attempts (.compensating e))
  else s.resolveFailed w item attempts e now

/-- An attempt raised: `retry_async` sleeps or raises. -/
def State.failAttempt (s : State) (w : ℕ) (item : Item) (attempts : ℕ) (e : Exn) (now : ℕ) : State :=
  if item.request.maxAttempts ≤ attempts ∨ retryable e = false then s.failTask service w item attempts e now
  else s.setPhase w (.holding item attempts .backoff)

/-- The next attempt up to the first wait; `granted` when the token bucket has a token. -/
def State.startAttempt (s : State) (w : ℕ) (item : Item) (attempts now : ℕ) (granted : Bool) : State :=
  if granted = false then s.failAttempt service w item (attempts + 1) RateLimitExceeded now
  else
    let entered := (s.breakers item.request.taskType).enter resetTimeout now
    let s := s.setBreaker item.request.taskType entered.1
    if entered.2 = false then s.failAttempt service w item (attempts + 1) CircuitOpenError now
    else if s.bulkheadLocked then s.setPhase w (.holding item (attempts + 1) .bulkhead)
    else s.startHandler w item (attempts + 1) now

/-- `expires_at` is past. -/
def expired (request : TaskRequest) (now : ℕ) : Bool := request.expiresAt.any (· ≤ now)

/-- `_execute` up to the first wait. -/
def State.execute (s : State) (w : ℕ) (item : Item) (now : ℕ) (granted : Bool) : State :=
  if expired item.request now then s.failTask service w item 0 taskExpiredError now
  else if service.handlers item.request.taskType = false then
    s.failTask service w item 0 taskHandlerMissingError now
  else s.startAttempt service w item 0 now granted

/-- The handler ended: the bulkhead, the breaker and `retry_async` up to the next wait. -/
def State.finishHandler (s : State) (w : ℕ) (item : Item) (attempts : ℕ) (outcome : Outcome) (now : ℕ) :
    State :=
  let taskType := item.request.taskType
  let s := { s with bulkheadFree := s.bulkheadFree + 1 }
  let failed := s.setBreaker taskType
    ((s.breakers taskType).fail (service.circuitFailureThreshold taskType) now)
  match outcome with
  | .returned output =>
    let log := s.log item.ordinal
    ((s.setBreaker taskType (s.breakers taskType).succeed).setLog item
      { log with returns := log.returns + 1 }).resolve w item
        ⟨item.request.taskId, true, attempts, some output, none, now⟩
  | .raised e => failed.failAttempt service w item attempts e now
  | .timedOut => failed.failAttempt service w item attempts OperationTimeoutError now
  | .cancelled => s.stopWorker w

end parts

/-! ### Steps -/

/-- `enqueue` up to its return or its wait in `put`; `resume` of such a wait; a worker takes an item (`get`),
gets a permit of the bulkhead (`enter`), sees its handler end (`finish`), makes the next attempt (`retry`),
sees its compensator end (`compensated`), or gets its cancellation (`cancel`); `close` up to its wait in
`join`, up to its wait for the workers (`joined`), and its return (`closed`). -/
inductive Event where
  | enqueue (request : TaskRequest)
  | resume (ordinal : ℕ)
  | get (w now : ℕ) (granted : Bool)
  | enter (w now : ℕ)
  | finish (w : ℕ) (outcome : Outcome) (now : ℕ)
  | retry (w now : ℕ) (granted : Bool)
  | compensated (w : ℕ) (outcome : Outcome) (now : ℕ)
  | cancel (w : ℕ)
  | close
  | joined
  | closed

/-- The phase of a worker and whether its cancellation is requested. -/
def State.worker (s : State) (w : ℕ) : Worker := s.workers[w]?.getD ⟨.stopped, false⟩

/-- One step; `none` when it cannot be taken.  A closed queue refuses an
`enqueue`. -/
def step (service : Service) (s : State) : Event → Option State
  | .enqueue request =>
    if s.closing ≠ .running then some s
    else
      let item : Item := ⟨s.items.length, request⟩
      let s := { s with items := s.items ++ [item] }
      if s.queue.length < service.queueCapacity then some (s.put item)
      else some { s with putters := s.putters ++ [item] }
  | .resume ordinal =>
    match s.putters.find? (·.ordinal = ordinal) with
    | some item =>
      if s.queue.length < service.queueCapacity then
        some ({ s with putters := s.putters.eraseP (·.ordinal = ordinal) }.put item)
      else none
    | none => none
  | .get w now granted =>
    match s.worker w, s.queue with
    | ⟨.waiting, false⟩, item :: rest =>
      some (({ s with queue := rest }.setPhase w (.holding item 0 .executing)).execute service w item now
        granted)
    | _, _ => none
  | .enter w now =>
    match s.worker w with
    | ⟨.holding item attempts .bulkhead, false⟩ =>
      if s.bulkheadFree = 0 then none else some (s.startHandler w item attempts now)
    | _ => none
  | .finish w outcome now =>
    match s.worker w with
    | ⟨.holding item attempts .handling, _⟩ => some (s.finishHandler service w item attempts outcome now)
    | _ => none
  | .retry w now granted =>
    match s.worker w with
    | ⟨.holding item attempts .backoff, false⟩ => some (s.startAttempt service w item attempts now granted)
    | _ => none
  | .compensated w outcome now =>
    match s.worker w with
    | ⟨.holding item attempts (.compensating e), _⟩ =>
      match outcome with
      | .cancelled => some (s.stopWorker w)
      | _ => some (s.resolveFailed w item attempts e now)
    | _ => none
  | .cancel w =>
    match s.worker w with
    | ⟨.waiting, true⟩ => some (s.setPhase w .stopped)
    | ⟨.holding _ _ .bulkhead, true⟩ | ⟨.holding _ _ .backoff, true⟩ => some (s.stopWorker w)
    | _ => none
  | .close =>
    if s.closing ≠ .running then none
    else if s.unfinishedTasks = 0 then some s.cancelWorkers
    else some { s with closing := .joining }
  | .joined => if s.closing = .released then some s.cancelWorkers else none
  | .closed =>
    if s.closing = .cancelling ∧ s.workers.all (·.phase matches .stopped) then
      some { s with closing := .returned }
    else none

end CyberControl.TaskQueue
