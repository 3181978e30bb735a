import CyberControl.TaskQueueSafety
import Mathlib.Algebra.Ring.Nat

/-! # What the task queue never exceeds

The permits of the bulkhead, the capacity of the queue and the count that `join` waits for, in every run: also in
one whose handlers are cancelled or time out, and whose workers are stopped on the way. -/

namespace CyberControl.TaskQueue

open Transition

/-- A running handler holds a permit of the bulkhead. -/
def Phase.permits : Phase → ℕ
  | .holding _ _ .handling => 1
  | _ => 0

/-- An item that a worker holds has not been reported to `task_done`. -/
def Phase.tasks : Phase → ℕ
  | .holding _ _ _ => 1
  | _ => 0

def total (f : Phase → ℕ) (workers : List Worker) : ℕ := (workers.map fun worker => f worker.phase).sum

variable {service : Service} {s s' t : State} {w : ℕ} {phase : Phase}

theorem total_set (f : Phase → ℕ) {workers : List Worker} {old : Worker} (h : workers[w]? = some old)
    (new : Worker) : total f (workers.set w new) + f old.phase = total f workers + f new.phase := by
  induction workers generalizing w with
  | nil => cases h
  | cons first workers ih =>
    cases w with
    | zero =>
      obtain rfl : first = old := Option.some.inj h
      simp only [total, List.set_cons_zero, List.map_cons, List.sum_cons]
      omega
    | succ w =>
      have hrest := ih h
      simp only [total, List.set_cons_succ, List.map_cons, List.sum_cons] at hrest ⊢
      omega

structure BoundedAt (service : Service) (bulkheadFree unfinishedTasks : ℕ) (workers : List Worker)
    (queue : List Item) : Prop where
  permits : bulkheadFree + total Phase.permits workers = service.taskConcurrency
  tasks : unfinishedTasks = queue.length + total Phase.tasks workers
  capacity : queue.length ≤ service.queueCapacity
  ordered : queue.Pairwise Item.before

/-- **What holds between two steps**: the permits are those of the running handlers and the free ones, the tasks
that `join` waits for are in the queue or with a worker, and the queue is within its capacity and in order. -/
abbrev Bounded (service : Service) (s : State) : Prop :=
  BoundedAt service s.bulkheadFree s.unfinishedTasks s.workers s.queue

/-! ### What a worker does with its item -/

/-- The worker is left in a phase; a handler that starts takes a permit, an item that is let go is reported. -/
structure Leaves (s s' : State) (w : ℕ) (phase : Phase) : Prop where
  queue : s'.queue = s.queue
  workers : s'.workers = s.workers.set w ⟨phase, false⟩
  unfinished : s'.unfinishedTasks = s.unfinishedTasks - (1 - phase.tasks)
  bulkhead : s'.bulkheadFree + phase.permits = s.bulkheadFree

section leaves
variable {item : Item} {attempts now : ℕ} {e : Exn}

theorem failTask_leaves : ∃ phase, Leaves s (s.failTask service w item attempts e now) w phase := by
  unfold State.failTask
  split_ifs
  · exact ⟨_, rfl, rfl, rfl, rfl⟩
  · exact ⟨_, rfl, rfl, rfl, rfl⟩

theorem failAttempt_leaves : ∃ phase, Leaves s (s.failAttempt service w item attempts e now) w phase := by
  unfold State.failAttempt
  split_ifs
  · exact failTask_leaves
  · exact ⟨_, rfl, rfl, rfl, rfl⟩

theorem startHandler_leaves (hfree : s.bulkheadFree ≠ 0) :
    ∃ phase, Leaves s (s.startHandler w item attempts now) w phase :=
  ⟨_, rfl, rfl, rfl, Nat.sub_add_cancel (Nat.pos_of_ne_zero hfree)⟩

theorem leaves_of_setBreaker {taskType : String} {b : CircuitBreaker}
    (h : ∃ phase, Leaves (s.setBreaker taskType b) s' w phase) : ∃ phase, Leaves s s' w phase := by
  obtain ⟨phase, h⟩ := h
  exact ⟨phase, h.queue, h.workers, h.unfinished, h.bulkhead⟩

theorem startAttempt_leaves {granted : Bool} :
    ∃ phase, Leaves s (s.startAttempt service w item attempts now granted) w phase := by
  unfold State.startAttempt
  dsimp only
  split_ifs with _ _ hlocked
  · exact failAttempt_leaves
  · exact leaves_of_setBreaker failAttempt_leaves
  · exact leaves_of_setBreaker ⟨_, rfl, rfl, rfl, rfl⟩
  · refine leaves_of_setBreaker (startHandler_leaves fun hfree => hlocked ?_)
    unfold State.bulkheadLocked
    rw [hfree]
    rfl

theorem execute_leaves {granted : Bool} :
    ∃ phase, Leaves s (s.execute service w item now granted) w phase := by
  unfold State.execute
  split_ifs
  · exact failTask_leaves
  · exact failTask_leaves
  · exact startAttempt_leaves

theorem finishHandler_leaves {outcome : Outcome} : ∃ phase,
    Leaves { s with bulkheadFree := s.bulkheadFree + 1 } (s.finishHandler service w item attempts outcome now) w
      phase := by
  cases outcome with
  | returned output => exact ⟨.waiting, rfl, rfl, rfl, rfl⟩
  | raised e => exact leaves_of_setBreaker failAttempt_leaves
  | timedOut => exact leaves_of_setBreaker failAttempt_leaves
  | cancelled => exact ⟨.stopped, rfl, rfl, rfl, rfl⟩

end leaves

namespace BoundedAt

/-- A worker that holds an item goes on with it or lets it go; in `t` its permit has been given back. -/
theorem leave {worker : Worker} (h : Bounded service s) (hw : s.workers[w]? = some worker)
    (hholds : worker.phase.tasks = 1) (hleaves : ∃ phase, Leaves t s' w phase)
    (ht : t = { s with bulkheadFree := s.bulkheadFree + worker.phase.permits }) : Bounded service s' := by
  obtain ⟨phase, hleaves⟩ := hleaves
  subst ht
  have hpermits := total_set Phase.permits hw ⟨phase, false⟩
  have htasks := total_set Phase.tasks hw ⟨phase, false⟩
  have hle : phase.tasks ≤ 1 := by cases phase <;> simp [Phase.tasks]
  have hbulkhead := hleaves.bulkhead
  have hbefore := h.permits
  have hcount := h.tasks
  unfold Bounded
  rw [hleaves.queue, hleaves.workers, hleaves.unfinished]
  dsimp only at *
  exact ⟨by omega, by omega, h.capacity, h.ordered⟩

theorem idle {worker : Worker} {rest : List Item} (h : Bounded service s) (hw : s.workers[w]? = some worker)
    (hidle : worker.phase.tasks = 0 ∧ worker.phase.permits = 0) (hrest : rest <:+ s.queue)
    (hphase : phase.permits = 0 ∧ rest.length + phase.tasks = s.queue.length) :
    Bounded service ({ s with queue := rest }.setPhase w phase) := by
  have hpermits := total_set Phase.permits hw ⟨phase, false⟩
  have htasks := total_set Phase.tasks hw ⟨phase, false⟩
  have hbefore := h.permits
  have hcount := h.tasks
  unfold Bounded State.setPhase
  dsimp only at *
  exact ⟨by omega, by omega, hrest.length_le.trans h.capacity, h.ordered.sublist hrest.sublist⟩

theorem put {item : Item} (h : Bounded service s) (hroom : s.queue.length < service.queueCapacity) :
    Bounded service (s.put item) := by
  have htotal : Std.Total Item.before := ⟨fun a b => by unfold Item.before; omega⟩
  have htrans : IsTrans Item Item.before := ⟨fun a b c => by unfold Item.before; omega⟩
  have hlength := List.orderedInsert_length Item.before s.queue item
  have htasks := h.tasks
  unfold Bounded State.put
  dsimp only
  exact ⟨h.permits, by omega, by omega, h.ordered.orderedInsert item _⟩

theorem cancelWorkers (h : Bounded service s) : Bounded service s.cancelWorkers := by
  have hsame (f : Phase → ℕ) : total f (s.workers.map Worker.cancel) = total f s.workers := by
    unfold total
    rw [List.map_map]
    rfl
  unfold Bounded State.cancelWorkers
  exact ⟨by rw [hsame]; exact h.permits, by rw [hsame]; exact h.tasks, h.capacity, h.ordered⟩

/-- **Step lemma.** -/
theorem step {event : Event} (h : Bounded service s) (hstep : step service s event = some s') :
    Bounded service s' := by
  cases event with
  | enqueue request =>
    simp only [TaskQueue.step] at hstep
    split_ifs at hstep with hclosed hroom <;> cases hstep
    · exact h
    · exact put (s := { s with items := _ }) h hroom
    · exact h
  | resume ordinal =>
    simp only [TaskQueue.step] at hstep
    split at hstep
    next item hfind =>
      split_ifs at hstep with hroom
      cases hstep
      exact put (s := { s with putters := _ }) h hroom
    next => cases hstep
  | get w now granted =>
    simp only [TaskQueue.step] at hstep
    split at hstep
    next item rest hworker hqueue =>
      cases hstep
      have hw := getElem?_of_worker hworker (by simp)
      have htaken : Bounded service ({ s with queue := rest }.setPhase w (.holding item 0 .executing)) :=
        h.idle hw ⟨rfl, rfl⟩ (by rw [hqueue]; exact List.suffix_cons item rest) ⟨rfl, by rw [hqueue]; rfl⟩
      have hset := List.getElem?_set_self (a := ⟨.holding item 0 .executing, false⟩)
        (List.getElem?_eq_some_iff.mp hw).1
      exact htaken.leave hset rfl execute_leaves rfl
    next => cases hstep
  | enter w now =>
    simp only [TaskQueue.step] at hstep
    split at hstep
    next item attempts hworker =>
      split_ifs at hstep with hfree
      cases hstep
      exact h.leave (getElem?_of_worker hworker (by simp)) rfl (startHandler_leaves hfree) rfl
    next => cases hstep
  | finish w outcome now =>
    simp only [TaskQueue.step] at hstep
    split at hstep
    next item attempts c hworker =>
      cases hstep
      exact h.leave (getElem?_of_worker hworker (by simp)) rfl finishHandler_leaves rfl
    next => cases hstep
  | retry w now granted =>
    simp only [TaskQueue.step] at hstep
    split at hstep
    next item attempts hworker =>
      cases hstep
      exact h.leave (getElem?_of_worker hworker (by simp)) rfl startAttempt_leaves rfl
    next => cases hstep
  | compensated w outcome now =>
    simp only [TaskQueue.step] at hstep
    split at hstep
    next item attempts e c hworker =>
      have hw := getElem?_of_worker hworker (by simp)
      split at hstep <;> cases hstep
      · exact h.leave (t := s) hw rfl ⟨.stopped, rfl, rfl, rfl, rfl⟩ rfl
      · exact h.leave (t := s) hw rfl ⟨.waiting, rfl, rfl, rfl, rfl⟩ rfl
    next => cases hstep
  | cancel w =>
    simp only [TaskQueue.step] at hstep
    split at hstep
    next hworker =>
      cases hstep
      exact h.idle (getElem?_of_worker hworker (by simp)) ⟨rfl, rfl⟩ List.suffix_rfl ⟨rfl, rfl⟩
    next hworker =>
      cases hstep
      exact h.leave (t := s) (getElem?_of_worker hworker (by simp)) rfl ⟨.stopped, rfl, rfl, rfl, rfl⟩ rfl
    next hworker =>
      cases hstep
      exact h.leave (t := s) (getElem?_of_worker hworker (by simp)) rfl ⟨.stopped, rfl, rfl, rfl, rfl⟩ rfl
    next => cases hstep
  | close =>
    simp only [TaskQueue.step] at hstep
    split_ifs at hstep <;> cases hstep
    · exact h.cancelWorkers
    · exact h
  | joined =>
    simp only [TaskQueue.step] at hstep
    split_ifs at hstep
    cases hstep
    exact h.cancelWorkers
  | closed =>
    simp only [TaskQueue.step] at hstep
    split_ifs at hstep
    cases hstep
    exact h

end BoundedAt

theorem bounded_initial (service : Service) : Bounded service (initial service) :=
  ⟨by simp [initial, total, Phase.permits], by simp [initial, total, Phase.tasks], Nat.zero_le _, .nil⟩

/-- **The bounds of the queue hold in every run.** -/
theorem bounded_of_run {events : List Event} (hrun : run (step service) (initial service) events = some s) :
    Bounded service s :=
  run_invariant (fun _ _ _ h hstep => BoundedAt.step h hstep) (bounded_initial service) hrun

theorem bounded_of_run_waitingPut : ∃ s, sampleRun waitingPutEvents = some s ∧ Bounded sampleService s := by
  obtain ⟨s, hrun⟩ := Option.isSome_iff_exists.mp (show (sampleRun waitingPutEvents).isSome by decide)
  exact ⟨s, hrun, bounded_of_run hrun⟩

end CyberControl.TaskQueue
