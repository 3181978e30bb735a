import CyberControl.Idempotency
import CyberControl.Transition
import Mathlib.Data.List.AList

/-! # The asynchronous message bus

`AsyncMessageBus` (`messaging/bus.py`) over the in-memory idempotency store, as a step function
on an explicit state.  A publish runs from one `await` to the next without interruption; between
two of its awaits any other publish may run.  The state therefore records, for every partition,
the `Point` at which the publish that holds the partition lock is suspended, and the publishes
that still wait for a partition lock (`waiting`).  One action is one atomic segment:

* `publish e now` calls `publish(e)` at clock time `now` (the closed and expiry checks);
* `acquire e` gives the free partition lock to a waiting publish of `e`;
* `advance p` lets the call awaited by the lock holder of `p` return normally: a method of the
  store takes effect, a handler (or the middleware around the handlers) returns;
* `fail p x` makes the awaited handler, middleware or failure handler raise the exception `x`;
* `cancel p` and `cancelWaiting e` deliver `CancelledError` at the point where a publish is
  suspended.  `CancelledError` is no `Exception`, so no handler of the bus catches it;
* `close` closes the bus.

`trace` is a history variable: what has happened so far, oldest event first.  It is written by
the steps and read by none. -/

namespace CyberControl.Messaging

open Idempotency Transition

/-! ### Envelopes and results -/

/-- The delivery metadata of an envelope that the bus reads. -/
structure Delivery where
  idempotencyKey : String
  attempt : ℕ
  availableAt : ℕ
  expiresAt : Option ℕ
deriving DecidableEq

/-- `Topic3EnvelopeV1`: the fields the bus reads; `body` stands for the rest of the document. -/
structure Envelope where
  tenantId : String
  partitionKey : String
  sequence : ℕ
  eventType : String
  createdAt : ℕ
  delivery : Delivery
  body : String
deriving DecidableEq

/-- The key of `_expected`, `_pending` and `_partition_locks`. -/
abbrev Partition := String × String

def Envelope.partition (e : Envelope) : Partition := (e.tenantId, e.partitionKey)

/-- The document that `delivery_digest` hashes: the retry-mutated delivery fields are reset. -/
def Envelope.meaning (e : Envelope) : Envelope :=
  { e with delivery := { e.delivery with attempt := 1, availableAt := e.createdAt } }

inductive DispatchStatus where
  | PROCESSED
  | BUFFERED
  | DUPLICATE
  | IN_FLIGHT
deriving DecidableEq, Repr

structure DispatchResult where
  status : DispatchStatus
  partitionKey : String
  sequence : ℕ
  nextExpectedSequence : ℕ

/-! ### Errors of `publish` -/

def busClosed : Exn :=
  .liyan { code := .INTERNAL, safeMessage := "The message bus is closed.",
           category := .MESSAGING, statusCode := 503 }

def messageExpired : Exn :=
  .liyan { code := .MESSAGE_EXPIRED, safeMessage := "The message expired before dispatch.",
           category := .MESSAGING, statusCode := 410 }

def sequenceStale : Exn :=
  .liyan (MessageSequenceError .MESSAGE_SEQUENCE_STALE
    "The message sequence is older than the committed partition cursor.")

def bufferFull : Exn :=
  .liyan { code := .MESSAGE_BUFFER_FULL, safeMessage := "The partition ordering buffer is full.",
           category := .MESSAGING, retriable := true, statusCode := 503 }

def slotOccupied : Exn :=
  .liyan (MessageSequenceError .MESSAGE_SEQUENCE_GAP
    "A different message already occupies the buffered sequence.")

def handlerMissing : Exn :=
  .liyan { code := .MESSAGE_HANDLER_MISSING,
           safeMessage := "No message handler is registered for the event type.",
           category := .MESSAGING, statusCode := 422 }

/-! ### State -/

abbrev Handler := String

/-- What is fixed for the life of a bus: the hash, the registered handlers, whether a failure
handler is set, and the bound of a gap buffer. -/
structure Config where
  sha256Hex : Envelope → Digest
  handlers : String → List Handler
  hasFailureHandler : Bool
  maxGapBuffer : ℕ

def Config.deliveryDigest (c : Config) (e : Envelope) : Digest := c.sha256Hex e.meaning

/-- An envelope that `_execute_reserved` is working on: the message of the publish itself
(`head`), or a message that its drain loop took out of the gap buffer. -/
structure Job where
  envelope : Envelope
  digest : Digest
  head : Envelope
  draining : Bool

/-- Where the publish that holds a partition lock is suspended. -/
inductive Point where
  /-- `await self._idempotency.reserve`, with the `expected` read before it. -/
  | reserving (e : Envelope) (expected : ℕ)
  /-- `await self._idempotency.abort` before raising `x`. -/
  | rejecting (e : Envelope) (x : Exn)
  /-- `await self._idempotency.mark_processing`. -/
  | marking (job : Job)
  /-- Inside the middleware, before the handlers. -/
  | entering (job : Job)
  /-- Inside the first handler of `rest`; after the handlers when `rest` is empty. -/
  | handling (job : Job) (rest : List Handler)
  /-- `await self._idempotency.abort` after the exception `x`. -/
  | aborting (job : Job) (x : Exn)
  /-- `await self._failure_handler`. -/
  | reporting (job : Job) (x : Exn)
  /-- `await self._idempotency.complete`. -/
  | completing (job : Job)

/-- The envelope that `publish` was called with. -/
def Point.head : Point → Envelope
  | .reserving e _ => e
  | .rejecting e _ => e
  | .marking job => job.head
  | .entering job => job.head
  | .handling job _ => job.head
  | .aborting job _ => job.head
  | .reporting job _ => job.head
  | .completing job => job.head

/-- The message under execution, if any. -/
def Point.job? : Point → Option Job
  | .reserving _ _ => none
  | .rejecting _ _ => none
  | .marking job => some job
  | .entering job => some job
  | .handling job _ => some job
  | .aborting job _ => some job
  | .reporting job _ => some job
  | .completing job => some job

inductive Event where
  | started (e : Envelope) (h : Handler)
  | finished (e : Envelope) (h : Handler)
  | completed (e : Envelope)
  | returned (e : Envelope) (r : DispatchResult)
  | raised (e : Envelope) (x : Exn)
  | cancelled (e : Envelope)

structure Bus where
  records : Records
  expected : Partition → ℕ
  pending : Partition → AList fun _ : ℕ => Envelope × Digest
  waiting : List Envelope
  active : Partition → Option Point
  closed : Bool
  trace : List Event

/-- A new bus over a store that holds `records`. -/
def Bus.init (records : Records) : Bus where
  records
  expected _ := 0
  pending _ := ∅
  waiting := []
  active _ := none
  closed := false
  trace := []

/-! ### Atomic segments -/

namespace Bus

variable (c : Config) (s : Bus) (p : Partition)

/-- Append to the history. -/
def log (ev : Event) : Bus := { s with trace := s.trace ++ [ev] }

/-- The publish that holds the lock of `p` suspends at `pt`. -/
def suspend (pt : Point) : Bus := { s with active := Function.update s.active p (some pt) }

/-- The publish that holds the lock of `p` ends with `ev` and releases the lock. -/
def release (ev : Event) : Bus :=
  { s with active := Function.update s.active p none, trace := s.trace ++ [ev] }

/-- Replace the gap buffer of `p`. -/
def setPending (d : AList fun _ : ℕ => Envelope × Digest) : Bus :=
  { s with pending := Function.update s.pending p d }

/-- `complete` has taken effect, then `self._expected[partition] += 1`. -/
def commit (records : Records) : Bus :=
  { s with records, expected := Function.update s.expected p (s.expected p + 1) }

/-- `return DispatchResult(...)` of the publish of `e`. -/
def reply (e : Envelope) (status : DispatchStatus) (nextExpected : ℕ) : Bus :=
  s.release p (.returned e ⟨status, e.partitionKey, e.sequence, nextExpected⟩)

/-- `_drain_partition` from the head of its loop: take the next message in order out of the gap
buffer, or return from `publish`. -/
def drainPartition (head : Envelope) : Bus :=
  match (s.pending p).lookup (s.expected p) with
  | some (e, digest) =>
    (s.setPending p ((s.pending p).erase (s.expected p))).suspend p
      (.marking ⟨e, digest, head, true⟩)
  | none => s.reply p head .PROCESSED (s.expected p)

/-- An exception leaves `_execute_reserved`: `_drain_partition` swallows it and returns,
`publish` lets it through. -/
def leave (job : Job) (x : Exn) : Bus :=
  if job.draining then s.reply p job.head .PROCESSED (s.expected p)
  else s.release p (.raised job.head x)

/-- `publish` after a successful reservation. -/
def dispatchReserved (e : Envelope) (expected : ℕ) : Bus :=
  if e.sequence < expected then s.suspend p (.rejecting e sequenceStale)
  else if e.sequence > expected then
    if (s.pending p).entries.length ≥ c.maxGapBuffer then s.suspend p (.rejecting e bufferFull)
    else if ((s.pending p).lookup e.sequence).isSome then s.suspend p (.rejecting e slotOccupied)
    else
      (s.setPending p ((s.pending p).insert e.sequence (e, c.deliveryDigest e))).reply p e
        .BUFFERED expected
  else s.suspend p (.marking ⟨e, c.deliveryDigest e, e, false⟩)

/-- The answer of `reserve` to the publish of `e`. -/
def afterReserve (e : Envelope) (expected : ℕ) : Except Exn (ReservationDecision × Records) → Bus
  | .error x => s.release p (.raised e x)
  | .ok (.RESERVED, records) => dispatchReserved c { s with records } p e expected
  | .ok (.DUPLICATE_COMPLETED, _) => s.reply p e .DUPLICATE expected
  | .ok (_, _) => s.reply p e .IN_FLIGHT expected

/-- `_dispatch_handlers`, up to its first suspension. -/
def dispatchHandlers (job : Job) : Bus :=
  match c.handlers job.envelope.eventType with
  | [] => s.suspend p (.aborting job handlerMissing)
  | h :: hs => (s.log (.started job.envelope h)).suspend p (.handling job (h :: hs))

/-- The awaited call returns. -/
def advance : Point → Bus
  | .reserving e expected =>
    s.afterReserve c p e expected
      (reserve s.records e.delivery.idempotencyKey (c.deliveryDigest e))
  | .rejecting e x =>
    match abort s.records e.delivery.idempotencyKey (c.deliveryDigest e) with
    | .error x' => s.release p (.raised e x')
    | .ok records => { s with records }.release p (.raised e x)
  | .marking job =>
    match markProcessing s.records job.envelope.delivery.idempotencyKey job.digest with
    | .error x => s.leave p job x
    | .ok records => { s with records }.suspend p (.entering job)
  | .entering job => s.dispatchHandlers c p job
  | .handling job [] => s.suspend p (.completing job)
  | .handling job [h] => (s.log (.finished job.envelope h)).suspend p (.handling job [])
  | .handling job (h :: h' :: hs) =>
    ((s.log (.finished job.envelope h)).log (.started job.envelope h')).suspend p
      (.handling job (h' :: hs))
  | .aborting job x =>
    match abort s.records job.envelope.delivery.idempotencyKey job.digest with
    | .error x' => s.leave p job x'
    | .ok records =>
      if c.hasFailureHandler then { s with records }.suspend p (.reporting job x)
      else { s with records }.leave p job x
  | .reporting job x => s.leave p job x
  | .completing job =>
    match complete s.records job.envelope.delivery.idempotencyKey job.digest with
    | .error x => s.leave p job x
    | .ok records =>
      ((s.commit p records).log (.completed job.envelope)).drainPartition p job.head

/-- The awaited call raises `x`: only handlers, middleware and the failure handler do. -/
def fail (x : Exn) : Point → Option Bus
  | .entering job => some (s.suspend p (.aborting job x))
  | .handling job _ => some (s.suspend p (.aborting job x))
  | .reporting job x' => some (s.leave p job x')
  | _ => none

/-- The checks of `publish` before the partition lock, at clock time `now`. -/
def assertDeliverable (e : Envelope) (now : ℕ) : Except Exn Unit :=
  if s.closed then .error busClosed
  else if e.delivery.expiresAt.any (· ≤ now) then .error messageExpired
  else .ok ()

/-- The segment of `publish` before the partition lock. -/
def publish (e : Envelope) (now : ℕ) : Bus :=
  match s.assertDeliverable e now with
  | .error x => s.log (.raised e x)
  | .ok () => { s with waiting := s.waiting ++ [e] }

def restorePartitionCursor (tenantId partitionKey : String) (nextExpected : ℕ) :
    Except Exn Bus :=
  if tenantId = "" ∨ partitionKey = "" then
    .error (.valueError "tenant_id and partition_key are required")
  else if (s.pending (tenantId, partitionKey)).entries ≠ [] then
    .error (.runtimeError "cannot restore a partition while gap-buffered messages exist")
  else if nextExpected < s.expected (tenantId, partitionKey) then
    .error (.runtimeError "cannot move a partition cursor backwards")
  else .ok { s with expected := Function.update s.expected (tenantId, partitionKey) nextExpected }

end Bus

/-! ### What the segments change -/

namespace Bus

variable {s : Bus} {p q : Partition}

theorem assertDeliverable_eq_ok {e : Envelope} {now : ℕ} :
    s.assertDeliverable e now = .ok () ↔
      s.closed = false ∧ e.delivery.expiresAt.any (· ≤ now) = false := by
  unfold assertDeliverable
  cases s.closed <;> cases e.delivery.expiresAt.any (· ≤ now) <;> simp

theorem of_active_suspend {pt pt' : Point} (h : (s.suspend p pt).active q = some pt') :
    (q = p ∧ pt' = pt) ∨ (q ≠ p ∧ s.active q = some pt') := by
  by_cases hqp : q = p
  · subst hqp
    simp only [suspend, Function.update_self, Option.some.injEq] at h
    exact .inl ⟨rfl, h.symm⟩
  · simp only [suspend, Function.update_of_ne hqp] at h
    exact .inr ⟨hqp, h⟩

theorem of_active_release {ev : Event} {pt : Point} (h : (s.release p ev).active q = some pt) :
    q ≠ p ∧ s.active q = some pt := by
  by_cases hqp : q = p
  · simp [release, hqp] at h
  · simp only [release, Function.update_of_ne hqp] at h
    exact ⟨hqp, h⟩

theorem of_lookup_insert {m n : ℕ} {ed ed' : Envelope × Digest}
    (h : ((s.setPending p ((s.pending p).insert m ed)).pending q).lookup n = some ed') :
    (q = p ∧ n = m ∧ ed' = ed) ∨ (s.pending q).lookup n = some ed' := by
  by_cases hqp : q = p
  · subst hqp
    simp only [setPending, Function.update_self] at h
    by_cases hnm : n = m
    · subst hnm
      rw [AList.lookup_insert, Option.some.injEq] at h
      exact .inl ⟨rfl, rfl, h.symm⟩
    · rw [AList.lookup_insert_ne hnm] at h
      exact .inr h
  · simp only [setPending, Function.update_of_ne hqp] at h
    exact .inr h

theorem of_lookup_erase {m n : ℕ} {ed : Envelope × Digest}
    (h : ((s.setPending p ((s.pending p).erase m)).pending q).lookup n = some ed) :
    ¬ (q = p ∧ n = m) ∧ (s.pending q).lookup n = some ed := by
  by_cases hqp : q = p
  · subst hqp
    simp only [setPending, Function.update_self] at h
    by_cases hnm : n = m
    · rw [hnm, AList.lookup_erase] at h
      cases h
    · rw [AList.lookup_erase_ne hnm] at h
      exact ⟨fun hq => hnm hq.2, h⟩
  · simp only [setPending, Function.update_of_ne hqp] at h
    exact ⟨fun hq => hqp hq.1, h⟩

end Bus

/-! ### The step function -/

inductive Action where
  | publish (e : Envelope) (now : ℕ)
  | acquire (e : Envelope)
  | advance (p : Partition)
  | fail (p : Partition) (x : Exn)
  | cancel (p : Partition)
  | cancelWaiting (e : Envelope)
  | close

/-- One atomic segment of one publish. -/
def step (c : Config) (s : Bus) : Action → Option Bus
  | .publish e now => some (s.publish e now)
  | .acquire e =>
    if e ∈ s.waiting ∧ s.active e.partition = none then
      some ({ s with waiting := s.waiting.erase e }.suspend e.partition
        (.reserving e (s.expected e.partition)))
    else none
  | .advance p => (s.active p).map (s.advance c p)
  | .fail p x => (s.active p).bind (s.fail p x)
  | .cancel p => (s.active p).map fun pt => s.release p (.cancelled pt.head)
  | .cancelWaiting e =>
    if e ∈ s.waiting then some ({ s with waiting := s.waiting.erase e }.log (.cancelled e))
    else none
  | .close => some { s with closed := true }

/-- What one action can do. -/
inductive Bus.Step (c : Config) (s : Bus) : Action → Bus → Prop
  | publish (e : Envelope) (now : ℕ) : Step c s (.publish e now) (s.publish e now)
  | acquire {e : Envelope} (hmem : e ∈ s.waiting) (hfree : s.active e.partition = none) :
    Step c s (.acquire e) ({ s with waiting := s.waiting.erase e }.suspend e.partition
      (.reserving e (s.expected e.partition)))
  | advance {p : Partition} {pt : Point} (hpt : s.active p = some pt) :
    Step c s (.advance p) (s.advance c p pt)
  | failEntering {p : Partition} {job : Job} (x : Exn) (hpt : s.active p = some (.entering job)) :
    Step c s (.fail p x) (s.suspend p (.aborting job x))
  | failHandling {p : Partition} {job : Job} {rest : List Handler} (x : Exn)
    (hpt : s.active p = some (.handling job rest)) : Step c s (.fail p x) (s.suspend p (.aborting job x))
  | failReporting {p : Partition} {job : Job} {x' : Exn} (x : Exn)
    (hpt : s.active p = some (.reporting job x')) : Step c s (.fail p x) (s.leave p job x')
  | cancel {p : Partition} {pt : Point} (hpt : s.active p = some pt) :
    Step c s (.cancel p) (s.release p (.cancelled pt.head))
  | cancelWaiting {e : Envelope} (hmem : e ∈ s.waiting) :
    Step c s (.cancelWaiting e) ({ s with waiting := s.waiting.erase e }.log (.cancelled e))
  | close : Step c s .close { s with closed := true }

theorem step_cases {c : Config} {s s' : Bus} {a : Action} (h : step c s a = some s') : Bus.Step c s a s' := by
  cases a with
  | publish e now =>
    cases h
    exact .publish e now
  | acquire e =>
    obtain ⟨⟨hmem, hfree⟩, rfl⟩ := guarded_eq_some.mp h
    exact .acquire hmem hfree
  | advance p =>
    obtain ⟨pt, hpt, rfl⟩ := Option.map_eq_some_iff.mp h
    exact .advance hpt
  | fail p x =>
    obtain ⟨pt, hpt, h⟩ := Option.bind_eq_some_iff.mp h
    cases pt with
    | entering job =>
      cases h
      exact .failEntering x hpt
    | handling job rest =>
      cases h
      exact .failHandling x hpt
    | reporting job x' =>
      cases h
      exact .failReporting x hpt
    | _ => cases h
  | cancel p =>
    obtain ⟨pt, hpt, rfl⟩ := Option.map_eq_some_iff.mp h
    exact .cancel hpt
  | cancelWaiting e =>
    obtain ⟨hmem, rfl⟩ := guarded_eq_some.mp h
    exact .cancelWaiting hmem
  | close =>
    cases h
    exact .close

/-! ### One publish without interruption -/

/-- The publish of `e` waits for the answer of `reserve`. -/
def Bus.atReserve (s : Bus) (e : Envelope) : Bus :=
  { s with waiting := (s.waiting ++ [e]).erase e }.suspend e.partition
    (.reserving e (s.expected e.partition))

/-- An open bus with an idle partition takes a fresh message to `reserve` and its answer. -/
theorem run_publish {c : Config} {s : Bus} {e : Envelope} {now : ℕ} (hopen : s.closed = false)
    (hfresh : e.delivery.expiresAt.any (· ≤ now) = false) (hidle : s.active e.partition = none) :
    run (step c) s [.publish e now, .acquire e, .advance e.partition] =
      some ((s.atReserve e).afterReserve c e.partition e (s.expected e.partition)
        (reserve s.records e.delivery.idempotencyKey (c.deliveryDigest e))) := by
  have h₁ : step c s (.publish e now) = some { s with waiting := s.waiting ++ [e] } := by
    simp [step, Bus.publish, Bus.assertDeliverable, hopen, hfresh]
  have h₂ : step c { s with waiting := s.waiting ++ [e] } (.acquire e) = some (s.atReserve e) := by
    simp [step, hidle, Bus.atReserve]
  have h₃ : step c (s.atReserve e) (.advance e.partition) =
      some ((s.atReserve e).advance c e.partition (.reserving e (s.expected e.partition))) := by
    simp [step, Bus.atReserve, Bus.suspend]
  simp only [run, h₁, h₂, h₃, Option.bind_some, Bus.advance]
  rfl

end CyberControl.Messaging
