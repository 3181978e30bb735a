import CyberControl.TaskQueue

/-! # What the task queue resolves

In every run in which no handler or compensator lets a `CancelledError` through, no handler is started late, and
no waiting `enqueue` goes on after `join` was released, all that the queue accepted is resolved exactly once. -/

namespace CyberControl.TaskQueue

variable {service : Service}

/-! ### Places -/

def Phase.item? : Phase → Option Item
  | .holding item _ _ => some item
  | _ => none

/-- The ordinal of the item that the worker holds. -/
def Worker.ordinal? (worker : Worker) : Option ℕ := worker.phase.item?.map (·.ordinal)

/-- The ordinals that workers hold. -/
def held (workers : List Worker) : List ℕ := workers.filterMap Worker.ordinal?

/-- The ordinals of all items that are not done. -/
def State.located (s : State) : List ℕ :=
  s.queue.map (·.ordinal) ++ s.putters.map (·.ordinal) ++ held s.workers

theorem held_cons (worker : Worker) (workers : List Worker) :
    held (worker :: workers) = worker.ordinal?.toList ++ held workers := by
  unfold held
  cases h : worker.ordinal? with
  | none => rw [List.filterMap_cons_none h, Option.toList_none, List.nil_append]
  | some o => rw [List.filterMap_cons_some h, Option.toList_some, List.singleton_append]

variable {workers : List Worker} {w : ℕ}

theorem held_set {a b : Worker} (h : workers[w]? = some a) :
    (held (workers.set w b) ++ a.ordinal?.toList).Perm (held workers ++ b.ordinal?.toList) := by
  induction workers generalizing w with
  | nil => cases h
  | cons c workers ih =>
    cases w with
    | zero =>
      obtain rfl : c = a := Option.some.inj h
      rw [List.set_cons_zero, held_cons, held_cons, List.append_assoc, List.append_assoc]
      refine List.perm_append_comm.trans ?_
      rw [← List.append_assoc]
      exact List.perm_append_comm.append_right _
    | succ w =>
      rw [List.set_cons_succ, held_cons, held_cons, List.append_assoc, List.append_assoc]
      exact (ih h).append_left _

theorem getElem?_set_cases {α : Type} {l : List α} {v : ℕ} {a b : α} (h : (l.set w a)[v]? = some b) :
    w = v ∧ a = b ∨ w ≠ v ∧ l[v]? = some b := by
  by_cases hvw : w = v
  · subst hvw
    have hlt : w < (l.set w a).length := (List.getElem?_eq_some_iff.mp h).1
    rw [List.length_set] at hlt
    rw [List.getElem?_set_self hlt] at h
    exact .inl ⟨rfl, Option.some.inj h⟩
  · rw [List.getElem?_set_ne hvw] at h
    exact .inr ⟨hvw, h⟩

theorem held_same {a b : Worker} (h : workers[w]? = some a)
    (hsame : b.ordinal? = a.ordinal?) : (held (workers.set w b)).Perm (held workers) := by
  have hset := @held_set _ _ _ b h
  rw [hsame] at hset
  exact (List.perm_append_right_iff _).mp hset

theorem held_take {w o : ℕ} {a b : Worker} (h : workers[w]? = some a)
    (ha : a.ordinal? = none) (hb : b.ordinal? = some o) :
    (held (workers.set w b)).Perm (o :: held workers) := by
  have hset := @held_set _ _ _ b h
  rw [ha, hb, Option.toList_none, Option.toList_some, List.append_nil] at hset
  exact hset.trans (List.perm_append_singleton o _)

theorem held_drop {w o : ℕ} {a b : Worker} (h : workers[w]? = some a)
    (ha : a.ordinal? = some o) (hb : b.ordinal? = none) :
    (held workers).Perm (o :: held (workers.set w b)) := by
  have hset := @held_set _ _ _ b h
  rw [ha, hb, Option.toList_none, Option.toList_some, List.append_nil] at hset
  exact hset.symm.trans (List.perm_append_singleton o _)

theorem mem_held {w o : ℕ} {a : Worker} (h : workers[w]? = some a)
    (ha : a.ordinal? = some o) : o ∈ held workers :=
  List.mem_filterMap.mpr ⟨a, List.mem_of_getElem? h, ha⟩

theorem eq_of_held (hnodup : (held workers).Nodup) {v w o : ℕ} {a b : Worker}
    (hv : workers[v]? = some a) (hw : workers[w]? = some b) (ha : a.ordinal? = some o)
    (hb : b.ordinal? = some o) : v = w := by
  by_contra hne
  have hdrop := @held_drop _ _ _ _ ⟨.waiting, false⟩ hv ha rfl
  have hnot := (List.nodup_cons.mp (hdrop.nodup_iff.mp hnodup)).1
  refine hnot (mem_held (w := w) (a := b) ?_ hb)
  rw [List.getElem?_set_ne hne]
  exact hw

/-! ### Logs -/

/-- The log of an item whose future is not resolved, after some attempts. -/
structure Running (item : Item) (attempts : ℕ) (log : Log) : Prop where
  results : log.results = []
  starts : log.starts.length ≤ attempts
  attempts_le : attempts ≤ item.request.maxAttempts
  fresh : ∀ t ∈ log.starts, expired item.request t = false

/-- The log fits what the worker does. -/
def ActivityOk (service : Service) (item : Item) (attempts : ℕ) (activity : Activity) (log : Log) : Prop :=
  Running item attempts log ∧
    match activity with
    | .executing | .backoff => attempts < item.request.maxAttempts ∧ log.compensations = 0
    | .bulkhead => log.starts.length < attempts ∧ log.compensations = 0
    | .handling => log.compensations = 0
    | .compensating _ => log.compensations = 1 ∧ service.compensators item.request.taskType = true

/-- The compensations that a failed task of the type has. -/
def compensationsOf (service : Service) (item : Item) : ℕ :=
  if service.compensators item.request.taskType then 1 else 0

/-- The log of an item whose future is resolved, exactly once. -/
structure Done (service : Service) (item : Item) (log : Log) : Prop where
  result : ∃ r, log.results = [r] ∧
    if r.succeeded then 1 ≤ log.returns ∧ log.compensations = 0
    else log.compensations = compensationsOf service item
  starts : log.starts.length ≤ item.request.maxAttempts
  fresh : ∀ t ∈ log.starts, expired item.request t = false

theorem running_empty (item : Item) : Running item 0 .empty :=
  ⟨rfl, le_rfl, Nat.zero_le _, fun _ h => absurd h List.not_mem_nil⟩

/-! ### The invariant -/

/-- What holds of the worker `w`. -/
def WorkerOk (service : Service) (s : State) (worker : Worker) : Prop :=
  ∀ item attempts activity, worker.phase = .holding item attempts activity →
    item ∈ s.items ∧ ActivityOk service item attempts activity (s.log item.ordinal)

structure Invariant (service : Service) (s : State) : Prop where
  ordinals : s.items.map (·.ordinal) = List.range s.items.length
  nodup : s.located.Nodup
  untouched : ∀ item ∈ s.queue ++ s.putters, item ∈ s.items ∧ s.log item.ordinal = .empty
  workers : ∀ (w : ℕ) (worker : Worker), s.workers[w]? = some worker → WorkerOk service s worker
  done : ∀ item ∈ s.items, item.ordinal ∉ s.located → Done service item (s.log item.ordinal)
  unfinished : s.unfinishedTasks = s.queue.length + (held s.workers).length
  returned : ∀ i ∈ s.returned, i < s.items.length ∧ i ∉ s.putters.map (·.ordinal)
  fresh : ∀ i, s.items.length ≤ i → s.log i = .empty
  alive : s.closing ≠ .cancelling → s.closing ≠ .returned →
    ∀ worker ∈ s.workers, worker.phase ≠ .stopped ∧ worker.cancelRequested = false
  drained : s.closing ≠ .running → s.closing ≠ .joining → s.unfinishedTasks = 0

variable {item : Item}

namespace Invariant
variable {s s' : State}

theorem ordinal_lt (h : Invariant service s) (hitem : item ∈ s.items) :
    item.ordinal < s.items.length := by
  rw [← List.mem_range, ← h.ordinals]
  exact List.mem_map_of_mem hitem

theorem eq_of_ordinal (h : Invariant service s) {a b : Item} (ha : a ∈ s.items) (hb : b ∈ s.items)
    (hsame : a.ordinal = b.ordinal) : a = b := by
  have hnodup : (s.items.map (·.ordinal)).Nodup := by
    rw [h.ordinals]
    exact List.nodup_range
  exact List.inj_on_of_nodup_map hnodup ha hb hsame

theorem held_nodup (h : Invariant service s) : (held s.workers).Nodup :=
  (List.nodup_append.mp h.nodup).2.1

theorem ordinal_ne_of_held (h : Invariant service s) {o : ℕ} (ho : o ∈ held s.workers)
    (hitem : item ∈ s.queue ++ s.putters) : item.ordinal ≠ o := by
  have hdisjoint := (List.nodup_append.mp h.nodup).2.2
  refine hdisjoint _ ?_ _ ho
  rw [← List.map_append]
  exact List.mem_map_of_mem hitem

theorem closing_of_held (h : Invariant service s) {o : ℕ} (ho : o ∈ held s.workers) :
    s.closing = .running ∨ s.closing = .joining := by
  by_contra hclosing
  rw [not_or] at hclosing
  have hdrained := h.drained hclosing.1 hclosing.2
  have hlength := List.length_pos_of_mem ho
  have hunfinished := h.unfinished
  omega

end Invariant

/-! ### Steps of one worker -/

/-- The state changes in the worker, the log of its item, and the parts that no result depends on. -/
structure Updates (s s' : State) (w : ℕ) (item : Item) (phase : Phase) (log : Log) : Prop where
  items : s'.items = s.items
  queue : s'.queue = s.queue
  putters : s'.putters = s.putters
  unfinished : s'.unfinishedTasks = s.unfinishedTasks
  closing : s'.closing = s.closing
  returned : s'.returned = s.returned
  workers : s'.workers = s.workers.set w ⟨phase, false⟩
  log_eq : s'.log = Function.update s.log item.ordinal log

variable {phase : Phase} {worker : Worker} {c : Bool}

namespace Invariant
variable {s s' : State} {log : Log}

theorem located_perm
    (hupdates : Updates s s' w item phase log) (hw : s.workers[w]? = some worker)
    (hsame : (⟨phase, false⟩ : Worker).ordinal? = worker.ordinal?) : s'.located.Perm s.located := by
  unfold State.located
  rw [hupdates.queue, hupdates.putters, hupdates.workers]
  exact (held_same hw hsame).append_left _

theorem workers_update (h : Invariant service s)
    (hupdates : Updates s s' w item phase log) (hw : s.workers[w]? = some worker)
    (hitem : worker.ordinal? = some item.ordinal)
    (hok : ∀ attempts activity item', phase = .holding item' attempts activity →
      item' = item ∧ item ∈ s.items ∧ ActivityOk service item attempts activity log) :
    ∀ (v : ℕ) (worker : Worker), s'.workers[v]? = some worker → WorkerOk service s' worker := by
  intro v other hv item' attempts activity hphase
  rw [hupdates.workers] at hv
  rw [hupdates.items, hupdates.log_eq]
  rcases getElem?_set_cases hv with ⟨-, rfl⟩ | ⟨hvw, hv⟩
  · obtain ⟨rfl, hmem, hactivity⟩ := hok attempts activity item' hphase
    rw [Function.update_self]
    exact ⟨hmem, hactivity⟩
  · have hother : other.ordinal? = some item'.ordinal := by
      unfold Worker.ordinal?
      rw [hphase]
      rfl
    have hne : item'.ordinal ≠ item.ordinal := by
      intro hsame
      rw [hsame] at hother
      exact hvw (eq_of_held h.held_nodup hw hv hitem hother)
    rw [Function.update_of_ne hne]
    exact h.workers v other hv item' attempts activity hphase

theorem rehold (h : Invariant service s) {w attempts attempts' : ℕ}
    {activity activity' : Activity}
    (hw : s.workers[w]? = some ⟨.holding item attempts activity, c⟩)
    (hupdates : Updates s s' w item (.holding item attempts' activity') log)
    (hok : ActivityOk service item attempts' activity' log) : Invariant service s' := by
  have hheld : item.ordinal ∈ held s.workers := mem_held hw rfl
  have hmem : item ∈ s.items := (h.workers w _ hw item attempts activity rfl).1
  have hperm := located_perm hupdates hw rfl
  have hheldPerm : (held s'.workers).Perm (held s.workers) := by
    rw [hupdates.workers]
    exact held_same hw rfl
  refine ⟨?_, hperm.nodup_iff.mpr h.nodup, ?_, ?_, ?_, ?_, ?_, ?_, ?_, ?_⟩
  · rw [hupdates.items]
    exact h.ordinals
  · rw [hupdates.queue, hupdates.putters, hupdates.items, hupdates.log_eq]
    intro other hother
    rw [Function.update_of_ne (h.ordinal_ne_of_held hheld hother)]
    exact h.untouched other hother
  · refine h.workers_update hupdates hw rfl ?_
    intro k a item' hphase
    cases hphase
    exact ⟨rfl, hmem, hok⟩
  · intro other hother hnot
    rw [hperm.mem_iff] at hnot
    rw [hupdates.items] at hother
    have hne : other.ordinal ≠ item.ordinal := by
      intro hsame
      refine hnot ?_
      rw [hsame]
      exact List.mem_append_right _ hheld
    rw [hupdates.log_eq, Function.update_of_ne hne]
    exact h.done other hother hnot
  · rw [hupdates.unfinished, hupdates.queue, hheldPerm.length_eq]
    exact h.unfinished
  · rw [hupdates.returned, hupdates.items, hupdates.putters]
    exact h.returned
  · rw [hupdates.items, hupdates.log_eq]
    intro i hi
    have hlt := h.ordinal_lt hmem
    rw [Function.update_of_ne (by omega)]
    exact h.fresh i hi
  · rw [hupdates.closing, hupdates.workers]
    intro hcancelling hreturned worker hworker
    rcases List.mem_or_eq_of_mem_set hworker with hworker | rfl
    · exact h.alive hcancelling hreturned worker hworker
    · exact ⟨nofun, rfl⟩
  · rw [hupdates.closing, hupdates.unfinished]
    exact h.drained

theorem release (h : Invariant service s) {w attempts : ℕ} {activity : Activity} {t : State}
    (hw : s.workers[w]? = some ⟨.holding item attempts activity, c⟩)
    (hupdates : Updates s t w item .waiting log) (hdone : Done service item log) :
    Invariant service t.taskDone := by
  have hheld : item.ordinal ∈ held s.workers := mem_held hw rfl
  have hmem : item ∈ s.items := (h.workers w _ hw item attempts activity rfl).1
  have hdrop : (held s.workers).Perm (item.ordinal :: held t.workers) := by
    rw [hupdates.workers]
    exact held_drop hw rfl rfl
  have hlocated : s.located.Perm (item.ordinal :: t.located) := by
    unfold State.located
    rw [hupdates.queue, hupdates.putters]
    exact (hdrop.append_left _).trans List.perm_middle
  have hnodup := List.nodup_cons.mp (hlocated.nodup_iff.mp h.nodup)
  have hunfinished := h.unfinished
  rw [hdrop.length_eq, List.length_cons] at hunfinished
  refine ⟨?_, hnodup.2, ?_, ?_, ?_, ?_, ?_, ?_, ?_, ?_⟩
  · show t.items.map (·.ordinal) = _
    rw [State.taskDone, hupdates.items]
    exact h.ordinals
  · show ∀ item ∈ t.queue ++ t.putters, item ∈ t.items ∧ t.log item.ordinal = .empty
    rw [hupdates.queue, hupdates.putters, hupdates.items, hupdates.log_eq]
    intro other hother
    rw [Function.update_of_ne (h.ordinal_ne_of_held hheld hother)]
    exact h.untouched other hother
  · have hworkers := h.workers_update hupdates hw rfl (fun _ _ _ hphase => Phase.noConfusion hphase)
    exact hworkers
  · show ∀ item ∈ t.items, item.ordinal ∉ t.located → Done service item (t.log item.ordinal)
    rw [hupdates.items, hupdates.log_eq]
    intro other hother hnot
    by_cases hsame : other.ordinal = item.ordinal
    · rw [h.eq_of_ordinal hother hmem hsame, Function.update_self]
      exact hdone
    · rw [Function.update_of_ne hsame]
      refine h.done other hother ?_
      rw [hlocated.mem_iff, List.mem_cons, not_or]
      exact ⟨hsame, hnot⟩
  · show t.unfinishedTasks - 1 = t.queue.length + (held t.workers).length
    rw [hupdates.unfinished, hupdates.queue]
    omega
  · show ∀ i ∈ t.returned, i < t.items.length ∧ i ∉ t.putters.map (·.ordinal)
    rw [hupdates.returned, hupdates.items, hupdates.putters]
    exact h.returned
  · show ∀ i, t.items.length ≤ i → t.log i = .empty
    rw [hupdates.items, hupdates.log_eq]
    intro i hi
    have hlt := h.ordinal_lt hmem
    rw [Function.update_of_ne (by omega)]
    exact h.fresh i hi
  · intro _ _ worker hworker
    have hworker : worker ∈ t.workers := hworker
    rw [hupdates.workers] at hworker
    rcases List.mem_or_eq_of_mem_set hworker with hworker | rfl
    · rcases h.closing_of_held hheld with hclosing | hclosing
      all_goals exact h.alive (by rw [hclosing]; exact nofun) (by rw [hclosing]; exact nofun) worker hworker
    · exact ⟨nofun, rfl⟩
  · intro hrunning hjoining
    show t.unfinishedTasks - 1 = 0
    unfold State.taskDone at hrunning hjoining
    dsimp only at hrunning hjoining
    split_ifs at hrunning hjoining with hzero
    · exact hzero.1
    · rw [hupdates.closing] at hrunning hjoining
      rcases h.closing_of_held hheld with hclosing | hclosing
      · exact absurd hclosing hrunning
      · exact absurd hclosing hjoining

end Invariant

/-! ### What a worker does between two waits -/

/-- The worker goes on with its item, or is done with it. -/
def Advances (service : Service) (s s' : State) (w : ℕ) (item : Item) : Prop :=
  (∃ attempts activity log, Updates s s' w item (.holding item attempts activity) log ∧
    ActivityOk service item attempts activity log) ∨
  ∃ t log, Updates s t w item .waiting log ∧ Done service item log ∧ s' = t.taskDone

theorem Invariant.advance {s s' : State} (h : Invariant service s) {w attempts : ℕ}
    {activity : Activity} (hw : s.workers[w]? = some ⟨.holding item attempts activity, c⟩)
    (hadvances : Advances service s s' w item) : Invariant service s' := by
  rcases hadvances with ⟨_, _, _, hupdates, hok⟩ | ⟨t, _, hupdates, hdone, rfl⟩
  · exact h.rehold hw hupdates hok
  · exact h.release hw hupdates hdone

/-- Only the breakers and the permits of the bulkhead differ. -/
structure SameTasks (s t : State) : Prop where
  items : t.items = s.items
  queue : t.queue = s.queue
  putters : t.putters = s.putters
  unfinished : t.unfinishedTasks = s.unfinishedTasks
  closing : t.closing = s.closing
  returned : t.returned = s.returned
  workers : t.workers = s.workers
  log_eq : t.log = s.log

theorem Updates.of_same {s t s' : State} {log : Log}
    (h : Updates t s' w item phase log) (hsame : SameTasks s t) : Updates s s' w item phase log := by
  refine ⟨h.items.trans hsame.items, h.queue.trans hsame.queue, h.putters.trans hsame.putters,
    h.unfinished.trans hsame.unfinished, h.closing.trans hsame.closing, h.returned.trans hsame.returned, ?_, ?_⟩
  · rw [h.workers, hsame.workers]
  · rw [h.log_eq, hsame.log_eq]

theorem Advances.of_same {s t s' : State} (h : Advances service t s' w item)
    (hsame : SameTasks s t) : Advances service s s' w item := by
  rcases h with ⟨attempts, activity, log, hupdates, hok⟩ | ⟨u, log, hupdates, hdone, rfl⟩
  · exact Or.inl ⟨attempts, activity, log, hupdates.of_same hsame, hok⟩
  · exact Or.inr ⟨u, log, hupdates.of_same hsame, hdone, rfl⟩

section advances
variable {s : State} {w attempts now : ℕ} {item : Item} {e : Exn}

theorem sameTasks_setBreaker {taskType : String} {b : CircuitBreaker} : SameTasks s (s.setBreaker taskType b) :=
  ⟨rfl, rfl, rfl, rfl, rfl, rfl, rfl, rfl⟩

theorem updates_setPhase :
    Updates s (s.setPhase w phase) w item phase (s.log item.ordinal) :=
  ⟨rfl, rfl, rfl, rfl, rfl, rfl, rfl, (Function.update_eq_self _ _).symm⟩

theorem startHandler_advances (h : Running item attempts (s.log item.ordinal))
    (hstarts : (s.log item.ordinal).starts.length < attempts)
    (hcompensations : (s.log item.ordinal).compensations = 0) (hfresh : expired item.request now = false) :
    Advances service s (s.startHandler w item attempts now) w item := by
  refine Or.inl ⟨attempts, .handling, _, ⟨rfl, rfl, rfl, rfl, rfl, rfl, rfl, rfl⟩, ⟨?_, hcompensations⟩⟩
  refine ⟨h.results, ?_, h.attempts_le, ?_⟩
  · rw [List.length_append, List.length_singleton]
    omega
  · intro t ht
    rcases List.mem_append.mp ht with ht | ht
    · exact h.fresh t ht
    · rw [List.mem_singleton.mp ht]
      exact hfresh

theorem resolve_advances {t : State} {log : Log} {result : TaskResult}
    (hsame : SameTasks (s.setLog item log) t)
    (hdone : Done service item { log with results := log.results ++ [result] }) :
    Advances service s (t.resolve w item result) w item := by
  have hlog : t.log item.ordinal = log := by
    rw [hsame.log_eq]
    exact Function.update_self ..
  refine Or.inr ⟨(t.setLog item { log with results := log.results ++ [result] }).setPhase w .waiting, _,
    ⟨hsame.items, hsame.queue, hsame.putters, hsame.unfinished, hsame.closing, hsame.returned, ?_, ?_⟩, hdone,
    ?_⟩
  · show t.workers.set w _ = _
    rw [hsame.workers]
    rfl
  · show Function.update t.log item.ordinal _ = _
    rw [hsame.log_eq]
    exact Function.update_idem ..
  · rw [State.resolve, hlog]

theorem resolveFailed_advances (h : Running item attempts (s.log item.ordinal))
    (hcompensations : (s.log item.ordinal).compensations = compensationsOf service item) :
    Advances service s (s.resolveFailed w item attempts e now) w item := by
  unfold State.resolveFailed
  refine @resolve_advances _ _ _ _ _ (s.log item.ordinal) _ ?_ ?_
  · exact ⟨rfl, rfl, rfl, rfl, rfl, rfl, rfl, (Function.update_eq_self _ _).symm⟩
  · refine ⟨⟨failedResult item attempts e now, ?_, hcompensations⟩, h.starts.trans h.attempts_le, h.fresh⟩
    dsimp only
    rw [h.results, List.nil_append]

theorem failTask_advances (h : Running item attempts (s.log item.ordinal))
    (hcompensations : (s.log item.ordinal).compensations = 0) :
    Advances service s (s.failTask service w item attempts e now) w item := by
  unfold State.failTask
  split_ifs with hregistered
  · refine Or.inl ⟨attempts, .compensating e, _, ⟨rfl, rfl, rfl, rfl, rfl, rfl, rfl, rfl⟩, ?_⟩
    refine ⟨⟨h.results, h.starts, h.attempts_le, h.fresh⟩, ?_, hregistered⟩
    dsimp only
    rw [hcompensations]
  · refine resolveFailed_advances h ?_
    rw [hcompensations, compensationsOf, if_neg hregistered]

theorem failAttempt_advances (h : Running item attempts (s.log item.ordinal))
    (hcompensations : (s.log item.ordinal).compensations = 0) :
    Advances service s (s.failAttempt service w item attempts e now) w item := by
  unfold State.failAttempt
  split_ifs with hlast
  · exact failTask_advances h hcompensations
  · rw [not_or] at hlast
    exact Or.inl ⟨attempts, .backoff, _, updates_setPhase, h, by omega, hcompensations⟩

/-- The handler is not started in this step: the token bucket or the breaker refuses, or the worker waits for
the bulkhead. -/
def Held (s : State) (item : Item) (now : ℕ) (granted : Bool) : Prop :=
  granted = false ∨ ((s.breakers item.request.taskType).enter resetTimeout now).2 = false ∨ s.bulkheadLocked = true

theorem startAttempt_advances {granted : Bool} (h : Running item attempts (s.log item.ordinal))
    (hattempts : attempts < item.request.maxAttempts)
    (hcompensations : (s.log item.ordinal).compensations = 0)
    (hfresh : Held s item now granted ∨ expired item.request now = false) :
    Advances service s (s.startAttempt service w item attempts now granted) w item := by
  have hnext : Running item (attempts + 1) (s.log item.ordinal) :=
    ⟨h.results, Nat.le_succ_of_le h.starts, hattempts, h.fresh⟩
  have hstarts := h.starts
  unfold State.startAttempt
  dsimp only
  split_ifs with hgranted hentered hlocked
  · exact failAttempt_advances hnext hcompensations
  · exact (@failAttempt_advances service (s.setBreaker _ _) w _ now item _ hnext hcompensations).of_same
      sameTasks_setBreaker
  · refine Or.inl ⟨attempts + 1, .bulkhead, _, updates_setPhase.of_same sameTasks_setBreaker, hnext, ?_,
      hcompensations⟩
    show (s.log item.ordinal).starts.length < attempts + 1
    omega
  · have hnow : expired item.request now = false := by
      rcases hfresh with (hrefused | hrefused | hwait) | hnow
      · exact absurd hrefused hgranted
      · exact absurd hrefused hentered
      · exact absurd hwait hlocked
      · exact hnow
    exact (@startHandler_advances service (s.setBreaker _ _) w _ now item hnext (by
      show (s.log item.ordinal).starts.length < attempts + 1
      omega) hcompensations hnow).of_same sameTasks_setBreaker

theorem execute_advances {granted : Bool} (hlog : s.log item.ordinal = .empty) :
    Advances service s (s.execute service w item now granted) w item := by
  have hrunning : Running item 0 (s.log item.ordinal) := by
    rw [hlog]
    exact running_empty item
  have hcompensations : (s.log item.ordinal).compensations = 0 := by
    rw [hlog]
    rfl
  unfold State.execute
  split_ifs with hexpired hmissing
  · exact failTask_advances hrunning hcompensations
  · exact failTask_advances hrunning hcompensations
  · have hbounds := item.request.maxAttempts_bounds
    exact startAttempt_advances hrunning (by omega) hcompensations
      (Or.inr (by rw [Bool.not_eq_true] at hexpired; exact hexpired))

theorem finishHandler_advances {outcome : Outcome} (h : Running item attempts (s.log item.ordinal))
    (hcompensations : (s.log item.ordinal).compensations = 0) (houtcome : outcome ≠ .cancelled) :
    Advances service s (s.finishHandler service w item attempts outcome now) w item := by
  have hfailed : ∀ (t : State) (e : Exn), SameTasks s t →
      Advances service s (t.failAttempt service w item attempts e now) w item := by
    intro t e hsame
    have hlog : t.log item.ordinal = s.log item.ordinal := by rw [hsame.log_eq]
    exact (failAttempt_advances (hlog ▸ h) (by rw [hlog, hcompensations])).of_same hsame
  unfold State.finishHandler
  cases outcome with
  | returned output =>
    refine @resolve_advances _ _ _ _ _
      { s.log item.ordinal with returns := (s.log item.ordinal).returns + 1 } _ ?_ ?_
    · exact ⟨rfl, rfl, rfl, rfl, rfl, rfl, rfl, rfl⟩
    · refine ⟨⟨⟨item.request.taskId, true, attempts, some output, none, now⟩, ?_, Nat.le_add_left ..,
        hcompensations⟩, h.starts.trans h.attempts_le, h.fresh⟩
      dsimp only
      rw [h.results, List.nil_append]
  | raised e => exact hfailed _ e ⟨rfl, rfl, rfl, rfl, rfl, rfl, rfl, rfl⟩
  | timedOut => exact hfailed _ _ ⟨rfl, rfl, rfl, rfl, rfl, rfl, rfl, rfl⟩
  | cancelled => exact absurd rfl houtcome

end advances

/-! ### The other steps -/

namespace Invariant
variable {s : State}

theorem initial (service : Service) : Invariant service (initial service) := by
  have hheld : held (TaskQueue.initial service).workers = [] := by
    refine List.filterMap_eq_nil_iff.mpr fun worker hworker => ?_
    rw [List.eq_of_mem_replicate hworker]
    rfl
  have hlocated : (TaskQueue.initial service).located = [] := hheld
  refine ⟨rfl, ?_, ?_, ?_, ?_, ?_, ?_, fun _ _ => rfl, ?_, fun _ _ => rfl⟩
  · rw [hlocated]
    exact List.nodup_nil
  · exact fun _ h => absurd h List.not_mem_nil
  · intro w worker hworker item attempts activity hphase
    rw [List.eq_of_mem_replicate (List.mem_of_getElem? hworker)] at hphase
    cases hphase
  · exact fun _ h => absurd h List.not_mem_nil
  · rw [hheld]
    rfl
  · exact fun _ h => absurd h List.not_mem_nil
  · intro _ _ worker hworker
    rw [List.eq_of_mem_replicate hworker]
    exact ⟨nofun, rfl⟩

theorem newItem (h : Invariant service s) (request : TaskRequest) :
    Invariant service { s with
      items := s.items ++ [⟨s.items.length, request⟩]
      putters := s.putters ++ [⟨s.items.length, request⟩] } := by
  have hfresh := h.fresh s.items.length le_rfl
  have hlt : ∀ i ∈ s.located, i < s.items.length := by
    intro i hi
    unfold State.located at hi
    rw [← List.map_append, List.mem_append, List.mem_map] at hi
    rcases hi with ⟨item, hitem, rfl⟩ | hi
    · exact h.ordinal_lt (h.untouched item hitem).1
    · obtain ⟨worker, hworker, hordinal⟩ := List.mem_filterMap.mp hi
      obtain ⟨w, hw⟩ := List.getElem?_of_mem hworker
      obtain ⟨item, hphase, rfl⟩ := Option.map_eq_some_iff.mp hordinal
      cases hcase : worker.phase with
      | waiting | stopped =>
        rw [hcase] at hphase
        cases hphase
      | holding held attempts activity =>
        rw [hcase] at hphase
        cases hphase
        exact h.ordinal_lt (h.workers w worker hw _ _ _ hcase).1
  have hperm : (State.located { s with
      items := s.items ++ [⟨s.items.length, request⟩]
      putters := s.putters ++ [⟨s.items.length, request⟩] }).Perm (s.items.length :: s.located) := by
    unfold State.located
    dsimp only
    rw [List.map_append, List.map_singleton, ← List.append_assoc, List.append_assoc _ _ (held s.workers)]
    exact List.perm_middle
  refine ⟨?_, ?_, ?_, ?_, ?_, h.unfinished, ?_, ?_, h.alive, h.drained⟩
  · dsimp only
    rw [List.map_append, h.ordinals, List.map_singleton, List.length_append, List.length_singleton,
      List.range_succ]
  · rw [hperm.nodup_iff, List.nodup_cons]
    exact ⟨fun hmem => (hlt _ hmem).false, h.nodup⟩
  · intro item hitem
    dsimp only at hitem ⊢
    rw [← List.append_assoc] at hitem
    rcases List.mem_append.mp hitem with hitem | hitem
    · exact ⟨List.mem_append_left _ (h.untouched item hitem).1, (h.untouched item hitem).2⟩
    · rw [List.mem_singleton.mp hitem]
      exact ⟨List.mem_append_right _ (List.mem_singleton_self _), hfresh⟩
  · intro w worker hw item attempts activity hphase
    obtain ⟨hmem, hok⟩ := h.workers w worker hw item attempts activity hphase
    exact ⟨List.mem_append_left _ hmem, hok⟩
  · intro item hitem hnot
    rw [hperm.mem_iff, List.mem_cons, not_or] at hnot
    rcases List.mem_append.mp hitem with hitem | hitem
    · exact h.done item hitem hnot.2
    · rw [List.mem_singleton.mp hitem] at hnot
      exact absurd rfl hnot.1
  · intro i hi
    obtain ⟨hlength, hnot⟩ := h.returned i hi
    dsimp only
    rw [List.length_append, List.map_append, List.mem_append, not_or]
    refine ⟨by omega, hnot, ?_⟩
    rw [List.map_singleton, List.mem_singleton]
    exact hlength.ne
  · intro i hi
    dsimp only at hi ⊢
    rw [List.length_append] at hi
    exact h.fresh i (by omega)

theorem put (h : Invariant service s) (hclosing : s.closing = .running ∨ s.closing = .joining)
    {rest : List Item} (hperm : s.putters.Perm (item :: rest)) :
    Invariant service ({ s with putters := rest }.put item) := by
  have hmem : item ∈ s.putters := hperm.mem_iff.mpr (List.mem_cons_self ..)
  have hqueue : (s.queue.orderedInsert Item.before item).Perm (item :: s.queue) :=
    List.perm_orderedInsert _ _ _
  have hordinals : (s.putters.map (·.ordinal)).Perm (item.ordinal :: rest.map (·.ordinal)) := hperm.map _
  have hlocated : (State.located ({ s with putters := rest }.put item)).Perm s.located := by
    unfold State.located State.put
    dsimp only
    refine List.Perm.append_right _ ?_
    calc (s.queue.orderedInsert Item.before item).map (·.ordinal) ++ rest.map (·.ordinal)
        |>.Perm (item.ordinal :: s.queue.map (·.ordinal) ++ rest.map (·.ordinal)) :=
          (hqueue.map _).append_right _
      _ |>.Perm (s.queue.map (·.ordinal) ++ (item.ordinal :: rest.map (·.ordinal))) := List.perm_middle.symm
      _ |>.Perm (s.queue.map (·.ordinal) ++ s.putters.map (·.ordinal)) := hordinals.symm.append_left _
  have hnodup : (s.putters.map (·.ordinal)).Nodup :=
    (List.nodup_append.mp (List.nodup_append.mp h.nodup).1).2.1
  have hnot : item.ordinal ∉ rest.map (·.ordinal) := (List.nodup_cons.mp (hordinals.nodup_iff.mp hnodup)).1
  have hitem := h.untouched item (List.mem_append_right _ hmem)
  refine ⟨h.ordinals, hlocated.nodup_iff.mpr h.nodup, ?_, h.workers, ?_, ?_, ?_, h.fresh, h.alive, ?_⟩
  · intro other hother
    refine h.untouched other ?_
    rcases List.mem_append.mp hother with hother | hother
    · rcases List.mem_cons.mp (hqueue.mem_iff.mp hother) with rfl | hother
      · exact List.mem_append_right _ hmem
      · exact List.mem_append_left _ hother
    · exact List.mem_append_right _ (hperm.mem_iff.mpr (List.mem_cons_of_mem _ hother))
  · intro other hother hlocation
    rw [hlocated.mem_iff] at hlocation
    exact h.done other hother hlocation
  · show s.unfinishedTasks + 1 = (s.queue.orderedInsert Item.before item).length + (held s.workers).length
    rw [hqueue.length_eq, List.length_cons, h.unfinished]
    omega
  · intro i hi
    rcases List.mem_append.mp hi with hi | hi
    · obtain ⟨hlength, hother⟩ := h.returned i hi
      exact ⟨hlength, fun hrest => hother (hordinals.mem_iff.mpr (List.mem_cons_of_mem _ hrest))⟩
    · rw [List.mem_singleton.mp hi]
      exact ⟨h.ordinal_lt hitem.1, hnot⟩
  · intro hrunning hjoining
    rcases hclosing with hclosing | hclosing
    · exact absurd hclosing hrunning
    · exact absurd hclosing hjoining

theorem take (h : Invariant service s) {rest : List Item}
    (hw : s.workers[w]? = some ⟨.waiting, false⟩) (hqueue : s.queue = item :: rest) :
    Invariant service ({ s with queue := rest }.setPhase w (.holding item 0 .executing)) ∧
      s.log item.ordinal = .empty := by
  have hitem := h.untouched item (by rw [hqueue]; exact List.mem_append_left _ (List.mem_cons_self ..))
  have htake : (held (s.workers.set w ⟨.holding item 0 .executing, false⟩)).Perm
      (item.ordinal :: held s.workers) := held_take hw rfl rfl
  have hlocated : (State.located ({ s with queue := rest }.setPhase w (.holding item 0 .executing))).Perm
      s.located := by
    unfold State.located State.setPhase
    dsimp only
    rw [hqueue, List.map_cons]
    exact (htake.append_left _).trans List.perm_middle
  refine ⟨⟨h.ordinals, hlocated.nodup_iff.mpr h.nodup, ?_, ?_, ?_, ?_, h.returned, h.fresh, ?_, h.drained⟩,
    hitem.2⟩
  · intro other hother
    refine h.untouched other ?_
    rw [hqueue]
    exact List.mem_cons_of_mem _ hother
  · intro v worker hv other attempts activity hphase
    have hv : (s.workers.set w ⟨.holding item 0 .executing, false⟩)[v]? = some worker := hv
    rcases getElem?_set_cases hv with ⟨-, rfl⟩ | ⟨-, hv⟩
    · cases hphase
      refine ⟨hitem.1, ?_⟩
      show ActivityOk service item 0 .executing (s.log item.ordinal)
      have hbounds := item.request.maxAttempts_bounds
      rw [hitem.2]
      exact ⟨running_empty item, by omega, rfl⟩
    · exact h.workers v worker hv other attempts activity hphase
  · intro other hother hnot
    rw [hlocated.mem_iff] at hnot
    exact h.done other hother hnot
  · show s.unfinishedTasks = rest.length + (held (s.workers.set w _)).length
    have hunfinished := h.unfinished
    rw [hqueue, List.length_cons] at hunfinished
    rw [htake.length_eq, List.length_cons]
    omega
  · intro hcancelling hreturned worker hworker
    rcases List.mem_or_eq_of_mem_set hworker with hworker | rfl
    · exact h.alive hcancelling hreturned worker hworker
    · exact ⟨nofun, rfl⟩

theorem cancelWorkers (h : Invariant service s) (hzero : s.unfinishedTasks = 0) :
    Invariant service s.cancelWorkers := by
  have hheld : held s.cancelWorkers.workers = held s.workers := by
    unfold State.cancelWorkers held
    rw [List.filterMap_map]
    exact List.filterMap_congr fun _ _ => rfl
  have hlocated : s.cancelWorkers.located = s.located := by
    unfold State.located
    rw [hheld]
    rfl
  refine ⟨h.ordinals, ?_, h.untouched, ?_, ?_, ?_, h.returned, h.fresh, fun hclosing => absurd rfl hclosing,
    fun _ _ => hzero⟩
  · rw [hlocated]
    exact h.nodup
  · intro w worker hw item attempts activity hholding
    unfold State.cancelWorkers at hw
    rw [List.getElem?_map, Option.map_eq_some_iff] at hw
    obtain ⟨before, hbefore, rfl⟩ := hw
    exact h.workers w before hbefore item attempts activity hholding
  · rw [hlocated]
    exact h.done
  · rw [hheld]
    exact h.unfinished

theorem stop (h : Invariant service s) (hw : s.workers[w]? = some ⟨.waiting, true⟩) :
    Invariant service (s.setPhase w .stopped) := by
  have hclosing : ¬ (s.closing ≠ .cancelling ∧ s.closing ≠ .returned) := by
    rintro ⟨hcancelling, hreturned⟩
    have halive := (h.alive hcancelling hreturned _ (List.mem_of_getElem? hw)).2
    cases halive
  have hheld : (held (s.workers.set w ⟨.stopped, false⟩)).Perm (held s.workers) := held_same hw rfl
  have hlocated : (s.setPhase w .stopped).located.Perm s.located := hheld.append_left _
  refine ⟨h.ordinals, hlocated.nodup_iff.mpr h.nodup, h.untouched, ?_, ?_, ?_, h.returned, h.fresh, ?_,
    h.drained⟩
  · intro v worker hv item attempts activity hphase
    have hv : (s.workers.set w ⟨.stopped, false⟩)[v]? = some worker := hv
    rcases getElem?_set_cases hv with ⟨-, rfl⟩ | ⟨-, hv⟩
    · cases hphase
    · exact h.workers v worker hv item attempts activity hphase
  · intro item hitem hnot
    rw [hlocated.mem_iff] at hnot
    exact h.done item hitem hnot
  · show s.unfinishedTasks = s.queue.length + (held (s.workers.set w _)).length
    rw [hheld.length_eq]
    exact h.unfinished
  · intro hcancelling hreturned
    exact absurd ⟨hcancelling, hreturned⟩ hclosing

end Invariant

/-! ### Runs -/

/-- What a step has to meet: no handler and no compensator lets a `CancelledError` through; no `enqueue` goes
on in `put` once `join` is released; no handler is started late, after a wait for the bulkhead or between two
attempts. -/
def Meets (s : State) : Event → Prop
  | .finish _ outcome _ | .compensated _ outcome _ => outcome ≠ .cancelled
  | .resume _ => s.closing = .running ∨ s.closing = .joining
  | .enter w now => ∀ item attempts, (s.worker w).phase = .holding item attempts .bulkhead →
      expired item.request now = false
  | .retry w now granted => ∀ item attempts, (s.worker w).phase = .holding item attempts .backoff →
      Held s item now granted ∨ expired item.request now = false
  | _ => True

variable {s : State}

theorem getElem?_of_worker (h : s.worker w = worker)
    (hne : worker.phase ≠ .stopped) : s.workers[w]? = some worker := by
  unfold State.worker at h
  cases hw : s.workers[w]? with
  | some found =>
    rw [hw] at h
    exact congrArg some h
  | none =>
    rw [hw] at h
    exact absurd (congrArg Worker.phase h).symm hne

theorem Invariant.step {s s' : State} {event : Event} (h : Invariant service s) (hmeets : Meets s event)
    (hstep : step service s event = some s') : Invariant service s' := by
  cases event with
  | enqueue request =>
    simp only [TaskQueue.step] at hstep
    split_ifs at hstep with hclosing hroom
    · cases hstep
      exact h
    · cases hstep
      rw [not_not] at hclosing
      exact (h.newItem request).put (Or.inl hclosing) (List.perm_append_singleton _ _)
    · cases hstep
      exact h.newItem request
  | resume ordinal =>
    simp only [TaskQueue.step] at hstep
    split at hstep
    next item hfind =>
      split_ifs at hstep
      cases hstep
      obtain ⟨hordinal, before, after, hputters, hbefore⟩ := List.find?_eq_some_iff_append.mp hfind
      have herase : s.putters.eraseP (·.ordinal = ordinal) = before ++ after := by
        rw [hputters, List.eraseP_append_right _ (fun a ha => by simpa using hbefore a ha)]
        exact congrArg (before ++ ·) (List.eraseP_cons_of_pos hordinal)
      rw [herase]
      refine h.put hmeets ?_
      rw [hputters]
      exact List.perm_middle
    next => cases hstep
  | get w now granted =>
    simp only [TaskQueue.step] at hstep
    split at hstep
    next item rest hworker hqueue =>
      cases hstep
      have hw := getElem?_of_worker hworker nofun
      obtain ⟨htaken, hlog⟩ := h.take hw hqueue
      have hset : (State.setPhase { s with queue := rest } w (.holding item 0 .executing)).workers[w]? =
          some ⟨.holding item 0 .executing, false⟩ :=
        List.getElem?_set_self (List.getElem?_eq_some_iff.mp hw).1
      exact htaken.advance hset (execute_advances hlog)
    next => cases hstep
  | enter w now =>
    simp only [TaskQueue.step] at hstep
    split at hstep
    next item attempts hworker =>
      split_ifs at hstep
      cases hstep
      have hw := getElem?_of_worker hworker nofun
      obtain ⟨_, hrunning, hstarts, hcompensations⟩ := h.workers w _ hw _ _ _ rfl
      exact h.advance hw (startHandler_advances hrunning hstarts hcompensations
        (hmeets item attempts (by rw [hworker])))
    next => cases hstep
  | finish w outcome now =>
    simp only [TaskQueue.step] at hstep
    split at hstep
    next item attempts c hworker =>
      cases hstep
      have hw := getElem?_of_worker hworker nofun
      obtain ⟨_, hrunning, hcompensations⟩ := h.workers w _ hw _ _ _ rfl
      exact h.advance hw (finishHandler_advances hrunning hcompensations hmeets)
    next => cases hstep
  | retry w now granted =>
    simp only [TaskQueue.step] at hstep
    split at hstep
    next item attempts hworker =>
      cases hstep
      have hw := getElem?_of_worker hworker nofun
      obtain ⟨_, hrunning, hattempts, hcompensations⟩ := h.workers w _ hw _ _ _ rfl
      exact h.advance hw (startAttempt_advances hrunning hattempts hcompensations
        (hmeets item attempts (by rw [hworker])))
    next => cases hstep
  | compensated w outcome now =>
    simp only [TaskQueue.step] at hstep
    split at hstep
    next item attempts e c hworker =>
      have hw := getElem?_of_worker hworker nofun
      obtain ⟨_, hrunning, hcompensations, hregistered⟩ := h.workers w _ hw _ _ _ rfl
      split at hstep
      next => exact absurd rfl hmeets
      next =>
        cases hstep
        refine h.advance hw (resolveFailed_advances hrunning ?_)
        rw [hcompensations, compensationsOf, if_pos hregistered]
    next => cases hstep
  | cancel w =>
    simp only [TaskQueue.step] at hstep
    have hnone : ∀ item attempts activity, s.worker w ≠ ⟨.holding item attempts activity, true⟩ := by
      intro item attempts activity hworker
      have hw := getElem?_of_worker hworker nofun
      rcases h.closing_of_held (mem_held hw rfl) with hclosing | hclosing
      all_goals
        have halive := (h.alive (by rw [hclosing]; exact nofun) (by rw [hclosing]; exact nofun) _
          (List.mem_of_getElem? hw)).2
        cases halive
    split at hstep
    next hworker =>
      cases hstep
      exact h.stop (getElem?_of_worker hworker nofun)
    next item attempts hworker => exact absurd hworker (hnone _ _ _)
    next item attempts hworker => exact absurd hworker (hnone _ _ _)
    next => cases hstep
  | close =>
    simp only [TaskQueue.step] at hstep
    split_ifs at hstep with hclosing hzero
    · cases hstep
      exact h.cancelWorkers hzero
    · cases hstep
      rw [not_not] at hclosing
      refine ⟨h.ordinals, h.nodup, h.untouched, h.workers, h.done, h.unfinished, h.returned, h.fresh, ?_,
        fun _ hjoining => absurd rfl hjoining⟩
      intro _ _
      exact h.alive (by rw [hclosing]; exact nofun) (by rw [hclosing]; exact nofun)
  | joined =>
    simp only [TaskQueue.step] at hstep
    split_ifs at hstep with hclosing
    cases hstep
    exact h.cancelWorkers (h.drained (by rw [hclosing]; exact nofun) (by rw [hclosing]; exact nofun))
  | closed =>
    simp only [TaskQueue.step] at hstep
    split_ifs at hstep with hclosing
    cases hstep
    exact ⟨h.ordinals, h.nodup, h.untouched, h.workers, h.done, h.unfinished, h.returned, h.fresh,
      fun _ hreturned => absurd rfl hreturned,
      fun _ _ => h.drained (by rw [hclosing.1]; exact nofun) (by rw [hclosing.1]; exact nofun)⟩

/-- Every accepted task is resolved exactly once. -/
structure ResolvedOnce (service : Service) (s : State) : Prop where
  resolved : s.closing = .returned → ∀ i ∈ s.returned, (s.log i).results.length = 1
  once : ∀ i, (s.log i).results.length ≤ 1
  attempts : ∀ item ∈ s.items, (s.log item.ordinal).starts.length ≤ item.request.maxAttempts
  fresh : ∀ item ∈ s.items, ∀ t ∈ (s.log item.ordinal).starts, expired item.request t = false
  succeeded : ∀ item ∈ s.items, ∀ r ∈ (s.log item.ordinal).results, r.succeeded = true →
    1 ≤ (s.log item.ordinal).returns ∧ (s.log item.ordinal).compensations = 0
  failed : ∀ item ∈ s.items, ∀ r ∈ (s.log item.ordinal).results, r.succeeded = false →
    (s.log item.ordinal).compensations = compensationsOf service item
  alive : s.closing = .running → ∀ worker ∈ s.workers, worker.phase ≠ .stopped

theorem Invariant.log_cases (h : Invariant service s) (hitem : item ∈ s.items) :
    (∃ attempts, Running item attempts (s.log item.ordinal)) ∨ Done service item (s.log item.ordinal) := by
  by_cases hlocated : item.ordinal ∈ s.located
  · left
    unfold State.located at hlocated
    rw [← List.map_append, List.mem_append, List.mem_map] at hlocated
    rcases hlocated with ⟨other, hother, hsame⟩ | hheld
    · rw [← hsame, (h.untouched other hother).2]
      exact ⟨0, running_empty item⟩
    · obtain ⟨worker, hworker, hordinal⟩ := List.mem_filterMap.mp hheld
      obtain ⟨w, hw⟩ := List.getElem?_of_mem hworker
      obtain ⟨other, hphase, hsame⟩ := Option.map_eq_some_iff.mp hordinal
      cases hcase : worker.phase with
      | waiting | stopped =>
        rw [hcase] at hphase
        cases hphase
      | holding held attempts activity =>
        rw [hcase] at hphase
        cases hphase
        obtain ⟨hmem, hok⟩ := h.workers w worker hw _ _ _ hcase
        rw [h.eq_of_ordinal hmem hitem hsame] at hok
        exact ⟨attempts, hok.1⟩
  · exact Or.inr (h.done item hitem hlocated)

theorem Invariant.resolvedOnce (h : Invariant service s) : ResolvedOnce service s := by
  have hitems : ∀ i < s.items.length, ∃ item ∈ s.items, item.ordinal = i := by
    intro i hi
    rw [← List.mem_range, ← h.ordinals] at hi
    exact List.mem_map.mp hi
  refine ⟨?_, ?_, ?_, ?_, ?_, ?_, ?_⟩
  · intro hclosing i hi
    obtain ⟨hlt, hputters⟩ := h.returned i hi
    obtain ⟨item, hitem, rfl⟩ := hitems i hlt
    have hzero := h.drained (by rw [hclosing]; exact nofun) (by rw [hclosing]; exact nofun)
    rw [h.unfinished, Nat.add_eq_zero_iff, List.length_eq_zero_iff, List.length_eq_zero_iff] at hzero
    have hnot : item.ordinal ∉ s.located := by
      unfold State.located
      rw [hzero.1, hzero.2, List.map_nil, List.nil_append, List.append_nil]
      exact hputters
    obtain ⟨r, hresults, _⟩ := (h.done item hitem hnot).result
    rw [hresults, List.length_singleton]
  · intro i
    by_cases hi : i < s.items.length
    · obtain ⟨item, hitem, rfl⟩ := hitems i hi
      rcases h.log_cases hitem with ⟨_, hrunning⟩ | hdone
      · rw [hrunning.results]
        exact Nat.zero_le _
      · obtain ⟨r, hresults, _⟩ := hdone.result
        rw [hresults, List.length_singleton]
    · rw [h.fresh i (by omega)]
      exact Nat.zero_le _
  · intro item hitem
    rcases h.log_cases hitem with ⟨_, hrunning⟩ | hdone
    · exact hrunning.starts.trans hrunning.attempts_le
    · exact hdone.starts
  · intro item hitem
    rcases h.log_cases hitem with ⟨_, hrunning⟩ | hdone
    · exact hrunning.fresh
    · exact hdone.fresh
  · intro item hitem r hr hsucceeded
    rcases h.log_cases hitem with ⟨_, hrunning⟩ | hdone
    · rw [hrunning.results] at hr
      cases hr
    · obtain ⟨r', hresults, houtcome⟩ := hdone.result
      rw [hresults, List.mem_singleton] at hr
      rw [← hr, if_pos hsucceeded] at houtcome
      exact houtcome
  · intro item hitem r hr hfailed
    rcases h.log_cases hitem with ⟨_, hrunning⟩ | hdone
    · rw [hrunning.results] at hr
      cases hr
    · obtain ⟨r', hresults, houtcome⟩ := hdone.result
      rw [hresults, List.mem_singleton] at hr
      rw [← hr, if_neg (by rw [hfailed]; exact Bool.noConfusion)] at houtcome
      exact houtcome
  · intro hclosing worker hworker
    exact (h.alive (by rw [hclosing]; exact nofun) (by rw [hclosing]; exact nofun) worker hworker).1

/-- **Every accepted task is resolved exactly once**, in every run whose steps meet the condition. -/
theorem resolved_of_meets {events : List Event} {s : State}
    (hmeets : Transition.AllSteps (step service) Meets (initial service) events)
    (hrun : Transition.run (step service) (initial service) events = some s) : ResolvedOnce service s :=
  (Transition.run_invariant_of (fun _ _ _ h hC hstep => Invariant.step h hC hstep) (Invariant.initial service)
    hmeets hrun).resolvedOnce

/-! ### A waiting put -/

/-- One worker and room for one task. -/
def sampleService : Service where
  workerCount := 1
  queueCapacity := 1
  taskConcurrency := 16
  handlers _ := true
  compensators _ := false
  circuitFailureThreshold _ := 5
  positive := by decide

def sampleRequest (expiresAt : Option ℕ) : TaskRequest := ⟨"t", .NORMAL, 1, 3, expiresAt, by decide⟩

def sampleRun (events : List Event) : Option State :=
  Transition.run (step sampleService) (initial sampleService) events

/-- A task that fails in three attempts, one that is done and one that has expired when a worker takes it. -/
def orderlyEvents : List Event :=
  [.enqueue (sampleRequest none), .get 0 5 true, .enqueue (sampleRequest (some 9)), .finish 0 .timedOut 6,
    .retry 0 7 false, .retry 0 8 false, .get 0 8 true, .enqueue (sampleRequest (some 9)),
    .finish 0 (.returned .null) 8, .close, .get 0 9 true, .joined, .cancel 0, .closed]

theorem resolved_orderly : ∃ s, sampleRun orderlyEvents = some s ∧ ResolvedOnce sampleService s := by
  cases hrun : sampleRun orderlyEvents with
  | none => exact absurd (congrArg Option.isSome hrun) (by decide)
  | some s =>
    refine ⟨s, rfl, resolved_of_meets ?_ hrun⟩
    simp [orderlyEvents, Transition.AllSteps, Meets, Held]

/-- The third `enqueue` waits in `put` while `close` waits in `join`, and goes on when the last task is done;
`join` is released already. -/
def waitingPutEvents : List Event :=
  [.enqueue (sampleRequest none), .get 0 5 true, .enqueue (sampleRequest none), .enqueue (sampleRequest none),
    .close, .finish 0 (.returned .null) 6, .get 0 6 true, .finish 0 (.returned .null) 6, .resume 2, .joined,
    .cancel 0, .closed]

/-- **A waiting put is lost**: `close` has returned, and the future of the third task is not resolved. -/
theorem waiting_put_lost : ∃ s, sampleRun waitingPutEvents = some s ∧ ¬ ResolvedOnce sampleService s := by
  have hlost : (sampleRun waitingPutEvents).any fun s =>
      s.closing = .returned ∧ 2 ∈ s.returned ∧ (s.log 2).results.length ≠ 1 := by decide
  obtain ⟨s, hrun, hs⟩ := (Option.any_eq_true _ _).mp hlost
  obtain ⟨hclosing, hreturned, hresults⟩ := of_decide_eq_true hs
  exact ⟨s, hrun, fun h => hresults (h.resolved hclosing 2 hreturned)⟩

end CyberControl.TaskQueue
