import CyberControl.MessageBus

/-! # The outbox sink over the message bus

`MessageBusOutboxSink` (`persistence/outbox_publisher.py`) delivers a claimed outbox message: it
moves the bus cursor of the partition to the durable cursor and publishes the envelope.  A
message whose handler has run may come again, when the publication could not be recorded. -/

namespace CyberControl.Messaging

open Idempotency Transition

/-- `OutboxMessage`: the fields the sink reads. -/
structure OutboxMessage where
  tenantId : String
  envelope : Envelope
  publishedCursor : Option ℕ

def outboxGap : Exn :=
  .liyan { code := .MESSAGE_SEQUENCE_GAP,
           safeMessage := "The Outbox partition does not have a contiguous durable cursor.",
           category := .MESSAGING, retriable := true, statusCode := 409 }

def notDurable : Exn :=
  .liyan { code := .MESSAGE_SEQUENCE_GAP,
           safeMessage := "The Outbox delivery was not durably completed by the consumer.",
           category := .MESSAGING, retriable := true, statusCode := 409 }

namespace OutboxMessage

variable (m : OutboxMessage)

/-- The sink up to `restore_partition_cursor`; `durable` is what the repository answers when the
message carries no cursor. -/
def restore (s : Bus) (durable : ℕ) : Except Exn Bus :=
  if m.envelope.tenantId ≠ m.tenantId then
    .error (.valueError "Outbox and Envelope tenant identities do not match")
  else if m.envelope.sequence ≠ m.publishedCursor.getD durable then .error outboxGap
  else s.restorePartitionCursor m.tenantId m.envelope.partitionKey (m.publishedCursor.getD durable)

/-- The sink after `publish` has ended. -/
def result : Event → Except Exn Unit
  | .returned _ r =>
    if r.status = .BUFFERED ∨ r.status = .IN_FLIGHT then .error notDurable else .ok ()
  | .raised _ x => .error x
  | _ => .error (.other "CancelledError")

/-- The first segment of the sink: from its call to the partition lock of the bus. -/
def deliver (s : Bus) (durable now : ℕ) : Bus :=
  match m.restore s durable with
  | .error _ => s
  | .ok s' => s'.publish m.envelope now

/-- What `append` guarantees of a stored message: its tenant is that of its envelope, and neither
key of the partition is empty. -/
structure WellFormed : Prop where
  tenant : m.envelope.tenantId = m.tenantId
  tenantId_ne : m.tenantId ≠ ""
  partitionKey_ne : m.envelope.partitionKey ≠ ""

end OutboxMessage

/-- What one publisher process does with its bus. -/
inductive ProcessAction where
  | deliver (m : OutboxMessage) (durable now : ℕ)
  | bus (a : Action)

def processStep (c : Config) (s : Bus) : ProcessAction → Option Bus
  | .deliver m durable now => some (m.deliver s durable now)
  | .bus a => step c s a

/-- Delivering `m` at `now` ends without an exception and runs no handler: the history grows by
the answer of the bus only. -/
def Redelivers (c : Config) (s : Bus) (m : OutboxMessage) (durable now : ℕ) : Prop :=
  ∃ s₁ s₂ ev, m.restore s durable = .ok s₁ ∧ s₁.assertDeliverable m.envelope now = .ok () ∧
    run (step c) s₁ [.publish m.envelope now, .acquire m.envelope,
      .advance m.envelope.partition] = some s₂ ∧
    s₂.trace = s.trace ++ [ev] ∧ OutboxMessage.result ev = .ok () ∧ s₂.records = s.records

/-! ### The cursor passes what the bus completes -/

/-- A suspension point that is not ahead of the cursor. -/
structure Point.Behind (p : Partition) (expected : ℕ) (pt : Point) : Prop where
  head : pt.head.partition = p
  job : ∀ job ∈ pt.job?, job.envelope.partition = p ∧ job.envelope.sequence ≤ expected
  reserving : ∀ e n, pt = .reserving e n → n ≤ expected

variable {pt : Point}

theorem Point.Behind.mono {p : Partition} {n n' : ℕ} (h : pt.Behind p n)
    (hn : n ≤ n') : pt.Behind p n' :=
  ⟨h.head, fun job hj => ⟨(h.job job hj).1, Nat.le_trans (h.job job hj).2 hn⟩,
    fun e m he => Nat.le_trans (h.reserving e m he) hn⟩

/-- **The cursor invariant.** -/
structure Passed (s : Bus) : Prop where
  completed : ∀ e, Event.completed e ∈ s.trace → e.sequence < s.expected e.partition
  active : ∀ p pt, s.active p = some pt → pt.Behind p (s.expected p)
  buffered : ∀ p n e d, (s.pending p).lookup n = some (e, d) → e.partition = p ∧ e.sequence = n

variable {n : ℕ}

namespace Passed

variable {c : Config} {s : Bus} {p : Partition}

theorem init (records : Records) : Passed (Bus.init records) where
  completed e h := by simp [Bus.init] at h
  active p pt h := by simp [Bus.init] at h
  buffered p n e d h := by simp [Bus.init] at h

theorem of_records (h : Passed s) (records : Records) : Passed { s with records } :=
  ⟨h.completed, h.active, h.buffered⟩

theorem log {ev : Event} (h : Passed s) (hev : ∀ e, ev ≠ .completed e) : Passed (s.log ev) where
  completed e he := by
    simp only [Bus.log, List.mem_append, List.mem_singleton] at he
    exact h.completed e (he.resolve_right (hev e).symm)
  active := h.active
  buffered := h.buffered

theorem suspend (h : Passed s) (hpt : pt.Behind p (s.expected p)) :
    Passed (s.suspend p pt) where
  completed := h.completed
  buffered := h.buffered
  active q pt' hq := by
    rcases Bus.of_active_suspend hq with ⟨rfl, rfl⟩ | ⟨-, hq⟩
    · exact hpt
    · exact h.active q pt' hq

theorem release {ev : Event} (h : Passed s) (hev : ∀ e, ev ≠ .completed e) :
    Passed (s.release p ev) where
  completed := (h.log hev).completed
  buffered := h.buffered
  active q pt hq := h.active q pt (Bus.of_active_release hq).2

variable {e : Envelope}

theorem reply {status : DispatchStatus} (h : Passed s) :
    Passed (s.reply p e status n) :=
  h.release (by simp)

theorem leave {job : Job} {x : Exn} (h : Passed s) : Passed (s.leave p job x) := by
  unfold Bus.leave
  split
  · exact h.reply
  · exact h.release (by simp)

theorem moveCursor (h : Passed s) (hn : s.expected p ≤ n) :
    Passed { s with expected := Function.update s.expected p n } := by
  have hle : ∀ q, s.expected q ≤ Function.update s.expected p n q := by
    intro q
    by_cases hqp : q = p
    · subst hqp
      simpa using hn
    · simp [Function.update_of_ne hqp]
  exact ⟨fun e he => Nat.lt_of_lt_of_le (h.completed e he) (hle _),
    fun q pt hq => (h.active q pt hq).mono (hle q), h.buffered⟩

theorem drainPartition {head : Envelope} (h : Passed s) (hhead : head.partition = p) :
    Passed (s.drainPartition p head) := by
  unfold Bus.drainPartition
  split
  · rename_i e d hl
    obtain ⟨hep, hes⟩ := h.buffered p _ e d hl
    have herase : Passed (s.setPending p ((s.pending p).erase (s.expected p))) :=
      ⟨h.completed, h.active, fun q n e' d' hn => h.buffered q n e' d' (Bus.of_lookup_erase hn).2⟩
    exact herase.suspend ⟨hhead, by simp [Point.job?, hep, hes, Bus.setPending], by simp⟩
  · exact h.reply

theorem complete {job : Job} {records : Records} (h : Passed s)
    (hj : job.envelope.partition = p ∧ job.envelope.sequence ≤ s.expected p) :
    Passed ((s.commit p records).log (.completed job.envelope)) := by
  have hmove : Passed (s.commit p records) :=
    (h.of_records records).moveCursor (Nat.le_succ _)
  refine ⟨fun e he => ?_, hmove.active, hmove.buffered⟩
  simp only [Bus.log, List.mem_append, List.mem_singleton, Event.completed.injEq] at he
  rcases he with he | rfl
  · exact hmove.completed e he
  · simp only [Bus.log, Bus.commit, hj.1, Function.update_self]
    omega

theorem dispatchReserved (h : Passed s) (he : e.partition = p)
    (hn : n ≤ s.expected p) : Passed (s.dispatchReserved c p e n) := by
  unfold Bus.dispatchReserved
  have hrej : ∀ x, Passed (s.suspend p (.rejecting e x)) := fun x =>
    h.suspend ⟨he, by simp [Point.job?], by simp⟩
  split
  · exact hrej _
  · split
    · split
      · exact hrej _
      · split
        · exact hrej _
        · refine Passed.reply ⟨h.completed, h.active, fun q m e' d' hm => ?_⟩
          rcases Bus.of_lookup_insert hm with ⟨rfl, rfl, hed⟩ | hm
          · obtain ⟨rfl, -⟩ := Prod.mk.inj hed
            exact ⟨he, rfl⟩
          · exact h.buffered q m e' d' hm
    · exact h.suspend ⟨he, by simp [Point.job?, he]; omega, by simp⟩

/-- **Step lemma for a returning call.** -/
theorem advance (h : Passed s) (hpt : s.active p = some pt) :
    Passed (s.advance c p pt) := by
  have hb := h.active p pt hpt
  cases pt with
  | reserving e n =>
    simp only [Bus.advance, Bus.afterReserve]
    split
    · exact h.release (by simp)
    · exact (h.of_records _).dispatchReserved hb.head (hb.reserving e n rfl)
    · exact h.reply
    · exact h.reply
  | rejecting e x =>
    simp only [Bus.advance]
    split
    · exact h.release (by simp)
    · exact (h.of_records _).release (by simp)
  | marking job =>
    simp only [Bus.advance]
    split
    · exact h.leave
    · exact (h.of_records _).suspend ⟨hb.head, hb.job, by simp⟩
  | entering job =>
    simp only [Bus.advance, Bus.dispatchHandlers]
    split
    · exact h.suspend ⟨hb.head, hb.job, by simp⟩
    · exact (h.log (by simp)).suspend ⟨hb.head, hb.job, by simp⟩
  | handling job rest =>
    cases rest with
    | nil => exact h.suspend ⟨hb.head, hb.job, by simp⟩
    | cons x xs =>
      have hfinished : Passed (s.log (.finished job.envelope x)) := h.log (by simp)
      cases xs with
      | nil => exact hfinished.suspend ⟨hb.head, hb.job, by simp⟩
      | cons y ys => exact (hfinished.log (by simp)).suspend ⟨hb.head, hb.job, by simp⟩
  | aborting job x =>
    simp only [Bus.advance]
    split
    · exact h.leave
    · split
      · exact (h.of_records _).suspend ⟨hb.head, hb.job, by simp⟩
      · exact (h.of_records _).leave
  | reporting job x => exact h.leave
  | completing job =>
    simp only [Bus.advance]
    split
    · exact h.leave
    · exact (h.complete (hb.job job rfl)).drainPartition hb.head

theorem publish {now : ℕ} (h : Passed s) : Passed (s.publish e now) := by
  unfold Bus.publish
  split
  · exact h.log (by simp)
  · exact ⟨h.completed, h.active, h.buffered⟩

theorem step {s' : Bus} {a : Action} (h : Passed s) (hs : Messaging.step c s a = some s') :
    Passed s' := by
  cases step_cases hs with
  | publish e now => exact h.publish
  | @acquire e hmem hfree =>
    have hw : Passed { s with waiting := s.waiting.erase e } :=
      ⟨h.completed, h.active, h.buffered⟩
    exact hw.suspend ⟨rfl, by simp [Point.job?], by simp +contextual⟩
  | advance hpt => exact h.advance hpt
  | failEntering x hpt | failHandling x hpt =>
    have hb := h.active _ _ hpt
    exact h.suspend ⟨hb.head, hb.job, by simp⟩
  | failReporting x hpt => exact h.leave
  | cancel hpt => exact h.release (by simp)
  | @cancelWaiting e hmem =>
    have hw : Passed { s with waiting := s.waiting.erase e } :=
      ⟨h.completed, h.active, h.buffered⟩
    exact hw.log (by simp)
  | close => exact ⟨h.completed, h.active, h.buffered⟩

end Passed

/-! ### Redelivery -/

theorem Bus.restorePartitionCursor_eq_ok {s s' : Bus} {t k : String} :
    s.restorePartitionCursor t k n = .ok s' ↔ t ≠ "" ∧ k ≠ "" ∧ (s.pending (t, k)).entries = [] ∧
      s.expected (t, k) ≤ n ∧ s' = { s with expected := Function.update s.expected (t, k) n } := by
  unfold Bus.restorePartitionCursor
  split
  · rename_i hempty
    simp only [reduceCtorEq, false_iff]
    rintro ⟨ht, hk, -⟩
    exact hempty.elim ht hk
  · rename_i hne
    rw [not_or] at hne
    split
    · rename_i hp
      simp [hp]
    · rename_i hp
      split
      · rename_i hlt
        simp only [reduceCtorEq, false_iff]
        rintro ⟨-, -, -, hle, -⟩
        omega
      · rename_i hle
        simp only [Except.ok.injEq]
        constructor
        · rintro rfl
          exact ⟨hne.1, hne.2, not_not.mp hp, by omega, rfl⟩
        · rintro ⟨-, -, -, -, rfl⟩
          rfl

theorem Bus.restorePartitionCursor_behind {s : Bus} {t k : String} (ht : t ≠ "")
    (hk : k ≠ "") (hlt : n < s.expected (t, k)) :
    ∃ text, s.restorePartitionCursor t k n = .error (.runtimeError text) := by
  unfold Bus.restorePartitionCursor
  rw [if_neg (by simp [ht, hk]), if_pos hlt]
  split <;> exact ⟨_, rfl⟩

variable {m : OutboxMessage}

theorem OutboxMessage.WellFormed.restore (hm : m.WellFormed)
    (hcursor : m.publishedCursor = some m.envelope.sequence) (s : Bus) (durable : ℕ) :
    m.restore s durable =
      s.restorePartitionCursor m.tenantId m.envelope.partitionKey m.envelope.sequence := by
  simp [OutboxMessage.restore, hm.tenant, hcursor]

theorem OutboxMessage.WellFormed.partition (hm : m.WellFormed) :
    m.envelope.partition = (m.tenantId, m.envelope.partitionKey) := by
  rw [Envelope.partition, hm.tenant]

theorem OutboxMessage.restore_eq_ok {s s' : Bus} {durable : ℕ}
    (h : m.restore s durable = .ok s') :
    ∃ p n, s.expected p ≤ n ∧ s' = { s with expected := Function.update s.expected p n } := by
  unfold OutboxMessage.restore at h
  split at h
  · cases h
  · split at h
    · cases h
    · obtain ⟨-, -, -, hle, rfl⟩ := Bus.restorePartitionCursor_eq_ok.mp h
      exact ⟨_, _, hle, rfl⟩

variable {c : Config}

theorem Passed.processStep {s s' : Bus} {a : ProcessAction} (h : Passed s)
    (hs : Messaging.processStep c s a = some s') : Passed s' := by
  cases a with
  | bus a => exact h.step hs
  | deliver m durable now =>
    simp only [Messaging.processStep, Option.some.injEq] at hs
    subst hs
    unfold OutboxMessage.deliver
    split
    · exact h
    · rename_i s₁ hs₁
      obtain ⟨p, n, hle, rfl⟩ := OutboxMessage.restore_eq_ok hs₁
      exact (h.moveCursor hle).publish

theorem passed_of_run {records : Records} {as : List ProcessAction} {s : Bus}
    (h : run (processStep c) (Bus.init records) as = some s) : Passed s :=
  run_invariant (fun _ _ _ hI hs => hI.processStep hs) (Passed.init records) h

theorem duplicate_of_completed {s : Bus} {e : Envelope} {now : ℕ}
    (hopen : s.closed = false) (hfresh : e.delivery.expiresAt.any (· ≤ now) = false)
    (hidle : s.active e.partition = none)
    (hdone : s.records e.delivery.idempotencyKey =
      some ⟨e.delivery.idempotencyKey, c.deliveryDigest e, .COMPLETED⟩) :
    ∃ s', run (step c) s [.publish e now, .acquire e, .advance e.partition] = some s' ∧
      s'.records = s.records ∧ s'.trace = s.trace ++
        [.returned e ⟨.DUPLICATE, e.partitionKey, e.sequence, s.expected e.partition⟩] := by
  refine ⟨_, run_publish hopen hfresh hidle, ?_⟩
  rw [reserve_some hdone rfl]
  exact ⟨rfl, rfl⟩

/-- **Redelivery.**  In every state a process can reach, a message whose record is completed is
delivered again without an exception and without running a handler exactly when the bus accepts
it and the cursor in memory has not passed it; when this bus has run the handlers of the message
it always has, and the sink raises. -/
theorem redelivery_succeeds_iff (c : Config) (records : Records) (as : List ProcessAction) (s : Bus)
    (h : run (processStep c) (Bus.init records) as = some s) (m : OutboxMessage)
    (durable now : ℕ) (hm : m.WellFormed) (hcursor : m.publishedCursor = some m.envelope.sequence)
    (hidle : s.active m.envelope.partition = none)
    (hdone : s.records m.envelope.delivery.idempotencyKey =
      some ⟨m.envelope.delivery.idempotencyKey, c.deliveryDigest m.envelope, .COMPLETED⟩) :
    (Redelivers c s m durable now ↔
      s.closed = false ∧ m.envelope.delivery.expiresAt.any (· ≤ now) = false ∧
        s.expected m.envelope.partition ≤ m.envelope.sequence ∧
        (s.pending m.envelope.partition).entries = []) ∧
    (Event.completed m.envelope ∈ s.trace →
      ∃ text, m.restore s durable = .error (.runtimeError text)) := by
  have hrestore := hm.restore hcursor s durable
  have hpart := hm.partition
  refine ⟨⟨?_, ?_⟩, fun hcompleted => ?_⟩
  · rintro ⟨s₁, s₂, ev, hs₁, hok, -⟩
    rw [hrestore, Bus.restorePartitionCursor_eq_ok, ← hpart] at hs₁
    obtain ⟨-, -, hpending, hle, rfl⟩ := hs₁
    obtain ⟨hopen, hfresh⟩ := Bus.assertDeliverable_eq_ok.mp hok
    exact ⟨hopen, hfresh, hle, hpending⟩
  · rintro ⟨hopen, hfresh, hle, hpending⟩
    let s₁ : Bus := { s with expected := Function.update s.expected m.envelope.partition m.envelope.sequence }
    have hs₁ : m.restore s durable = .ok s₁ := by
      rw [hrestore, Bus.restorePartitionCursor_eq_ok, ← hpart]
      exact ⟨hm.tenantId_ne, hm.partitionKey_ne, hpending, hle, rfl⟩
    have hagain := @duplicate_of_completed c s₁ m.envelope now hopen hfresh hidle hdone
    obtain ⟨s₂, hrun, hrec, htr⟩ := hagain
    exact ⟨s₁, s₂, _, hs₁, Bus.assertDeliverable_eq_ok.mpr ⟨hopen, hfresh⟩, hrun, htr, rfl, hrec⟩
  · have hlt := (passed_of_run h).completed _ hcompleted
    rw [hrestore]
    exact Bus.restorePartitionCursor_behind hm.tenantId_ne hm.partitionKey_ne (hpart ▸ hlt)

/-- A new process delivers what another process has completed. -/
theorem redelivery_succeeds_new_process :
    let c : Config := ⟨fun e => e.delivery.idempotencyKey, fun _ => ["h"], false, 2⟩
    let m : OutboxMessage := ⟨"t", ⟨"t", "p", 3, "ev", 0, ⟨"k3", 1, 0, none⟩, ""⟩, some 3⟩
    let records : Records := Function.update (fun _ => none) "k3" (some ⟨"k3", "k3", .COMPLETED⟩)
    Redelivers c (Bus.init records) m 3 0 := by
  intro c m records
  have hm : m.WellFormed := ⟨rfl, by decide, by decide⟩
  exact ((redelivery_succeeds_iff c records [] _ rfl m 3 0 hm rfl rfl rfl).1).mpr
    ⟨rfl, rfl, by decide, rfl⟩

/-- The process that ran the handlers of a message cannot deliver it a second time. -/
theorem redelivery_raises_same_process :
    let c : Config := ⟨fun e => e.delivery.idempotencyKey, fun _ => ["h"], false, 2⟩
    let m : OutboxMessage := ⟨"t", ⟨"t", "p", 0, "ev", 0, ⟨"k0", 1, 0, none⟩, ""⟩, some 0⟩
    ∃ s, run (processStep c) (Bus.init fun _ => none) (.deliver m 0 0 :: .bus (.acquire m.envelope) ::
        List.replicate 6 (.bus (.advance ("t", "p")))) = some s ∧
      s.trace.getLast? = some (.returned m.envelope ⟨.PROCESSED, "p", 0, 1⟩) ∧
      s.records "k0" = some ⟨"k0", "k0", .COMPLETED⟩ ∧
      m.restore s 0 = .error (.runtimeError "cannot move a partition cursor backwards") ∧
      ¬ Redelivers c s m 0 0 := by
  intro c m
  refine ⟨_, rfl, rfl, rfl, rfl, ?_⟩
  rintro ⟨s₁, s₂, ev, hs₁, -⟩
  cases hs₁

end CyberControl.Messaging
