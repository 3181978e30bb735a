import CyberControl.MessageBus

/-! # Expired messages on the bus

`publish` checks `expires_at` when it is called; a handler starts after the partition lock, the idempotency
store, the middleware and perhaps the gap buffer.  Here every segment of the bus runs at a time, and the calls
of `publish` and the handlers that are started are recorded with it. -/

namespace CyberControl.Messaging

open Idempotency Transition

/-! ### Starts -/

def Event.start? : Event → Option (Envelope × Handler)
  | .started e h => some (e, h)
  | .finished _ _ => none
  | .completed _ => none
  | .returned _ _ => none
  | .raised _ _ => none
  | .cancelled _ => none

def Bus.started (s : Bus) : List (Envelope × Handler) := s.trace.filterMap Event.start?

/-- The handler that waits for the awaited call to return. -/
def Point.next (c : Config) : Point → List (Envelope × Handler)
  | .entering job => ((c.handlers job.envelope.eventType).take 1).map (job.envelope, ·)
  | .handling job rest => ((rest.drop 1).take 1).map (job.envelope, ·)
  | .reserving _ _ => []
  | .rejecting _ _ => []
  | .marking _ => []
  | .aborting _ _ => []
  | .reporting _ _ => []
  | .completing _ => []

/-- The handler that an action starts. -/
def startsAt (c : Config) (s : Bus) : Action → List (Envelope × Handler)
  | .advance p => (s.active p).elim [] (·.next c)
  | .publish _ _ => []
  | .acquire _ => []
  | .fail _ _ => []
  | .cancel _ => []
  | .cancelWaiting _ => []
  | .close => []

section started
variable {c : Config} {s s' : Bus} {p : Partition}

@[simp] theorem started_log (ev : Event) : (s.log ev).started = s.started ++ ev.start?.toList := by
  unfold Bus.started Bus.log
  rw [List.filterMap_append]
  cases h : ev.start? with
  | none => simp [h]
  | some start => simp [h]

@[simp] theorem started_suspend (pt : Point) : (s.suspend p pt).started = s.started := rfl

@[simp] theorem started_release (ev : Event) :
    (s.release p ev).started = s.started ++ ev.start?.toList := started_log ev

@[simp] theorem started_setPending (d : AList fun _ : ℕ => Envelope × Digest) :
    (s.setPending p d).started = s.started := rfl

@[simp] theorem started_commit (records : Records) : (s.commit p records).started = s.started := rfl

@[simp] theorem started_records (records : Records) : ({ s with records } : Bus).started = s.started := rfl

@[simp] theorem started_reply (e : Envelope) (status : DispatchStatus) (n : ℕ) :
    (s.reply p e status n).started = s.started := by
  simp [Bus.reply, Event.start?]

@[simp] theorem started_drainPartition (head : Envelope) : (s.drainPartition p head).started = s.started := by
  unfold Bus.drainPartition
  split
  · simp
  · simp

@[simp] theorem started_leave (job : Job) (x : Exn) : (s.leave p job x).started = s.started := by
  unfold Bus.leave
  split_ifs
  · simp
  · simp [Event.start?]

@[simp] theorem started_dispatchReserved (e : Envelope) (n : ℕ) :
    (s.dispatchReserved c p e n).started = s.started := by
  unfold Bus.dispatchReserved
  split_ifs <;> simp

theorem started_afterReserve (e : Envelope) (n : ℕ) (answer : Except Exn (ReservationDecision × Records)) :
    (s.afterReserve c p e n answer).started = s.started := by
  unfold Bus.afterReserve
  split <;> simp [Event.start?]

/-- **What a returning call starts.** -/
theorem started_advance (pt : Point) : (s.advance c p pt).started = s.started ++ pt.next c := by
  cases pt with
  | reserving e n => simp [Bus.advance, started_afterReserve, Point.next]
  | rejecting e x =>
    simp only [Bus.advance, Point.next, List.append_nil]
    split <;> simp [Event.start?]
  | marking job =>
    simp only [Bus.advance, Point.next, List.append_nil]
    split <;> simp
  | entering job =>
    simp only [Bus.advance, Bus.dispatchHandlers, Point.next]
    cases c.handlers job.envelope.eventType with
    | nil => simp
    | cons h hs => simp [Event.start?]
  | handling job rest =>
    cases rest with
    | nil => simp [Bus.advance, Point.next]
    | cons h rest =>
      cases rest with
      | nil => simp [Bus.advance, Point.next, Event.start?]
      | cons h' rest => simp [Bus.advance, Point.next, Event.start?]
  | aborting job x =>
    simp only [Bus.advance, Point.next, List.append_nil]
    split
    · simp
    · split_ifs <;> simp
  | reporting job x => simp [Bus.advance, Point.next]
  | completing job =>
    simp only [Bus.advance, Point.next, List.append_nil]
    split <;> simp [Event.start?]

/-- **What a step starts.** -/
theorem started_of_step {a : Action} (h : step c s a = some s') :
    s'.started = s.started ++ startsAt c s a := by
  cases step_cases h with
  | publish e now =>
    unfold Bus.publish
    split
    · simp [startsAt, Event.start?]
    · simp [startsAt, Bus.started]
  | acquire hmem hfree => simp [startsAt, Bus.started, Bus.suspend]
  | advance hpt =>
    rw [started_advance, startsAt, hpt]
    rfl
  | failEntering x hpt | failHandling x hpt | failReporting x hpt => simp [startsAt]
  | cancel hpt => simp [startsAt, Event.start?]
  | cancelWaiting hmem => simp [startsAt, Bus.started, Bus.log, Event.start?]
  | close => simp [startsAt, Bus.started]

end started

/-! ### Messages on the way -/

/-- The message has expired at `now`. -/
def Envelope.Expired (e : Envelope) (now : ℕ) : Prop := ∃ time, e.delivery.expiresAt = some time ∧ time ≤ now

instance (e : Envelope) (now : ℕ) : Decidable (e.Expired now) :=
  match h : e.delivery.expiresAt with
  | none => .isFalse fun ⟨_, hsome, _⟩ => nomatch h.symm.trans hsome
  | some time => decidable_of_iff (time ≤ now)
      ⟨fun hle => ⟨time, h, hle⟩, fun ⟨_, hsome, hle⟩ => by
        cases Option.some.inj (h.symm.trans hsome)
        exact hle⟩

/-- The message that the suspended call is about. -/
def Point.carried (pt : Point) : Envelope := pt.job?.elim pt.head (·.envelope)

/-- The message waits for a partition lock, is worked on, or is in a gap buffer. -/
def Bus.Carries (s : Bus) (e : Envelope) : Prop :=
  e ∈ s.waiting ∨ (∃ p pt, s.active p = some pt ∧ pt.carried = e) ∨
    ∃ p n digest, (s.pending p).lookup n = some (e, digest)

section carried
variable {c : Config} {s s' : Bus} {p : Partition} {e : Envelope}

theorem of_carries_suspend {pt : Point} (h : (s.suspend p pt).Carries e) : s.Carries e ∨ e = pt.carried := by
  rcases h with h | ⟨q, pt', h, rfl⟩ | h
  · exact .inl (.inl h)
  · rcases Bus.of_active_suspend h with ⟨-, rfl⟩ | ⟨-, h⟩
    · exact .inr rfl
    · exact .inl (.inr (.inl ⟨q, pt', h, rfl⟩))
  · exact .inl (.inr (.inr h))

theorem of_carries_release {ev : Event} (h : (s.release p ev).Carries e) : s.Carries e := by
  rcases h with h | ⟨q, pt, h, rfl⟩ | h
  · exact .inl h
  · exact .inr (.inl ⟨q, pt, (Bus.of_active_release h).2, rfl⟩)
  · exact .inr (.inr h)

theorem of_carries_leave {job : Job} {x : Exn} (h : (s.leave p job x).Carries e) : s.Carries e := by
  unfold Bus.leave at h
  split_ifs at h <;> exact of_carries_release h

theorem of_carries_drainPartition {head : Envelope} (h : (s.drainPartition p head).Carries e) :
    s.Carries e := by
  unfold Bus.drainPartition at h
  split at h
  · next next digest hnext =>
      rcases of_carries_suspend h with (h | h | ⟨q, n, digest', h⟩) | rfl
      · exact .inl h
      · exact .inr (.inl h)
      · exact .inr (.inr ⟨q, n, digest', (Bus.of_lookup_erase h).2⟩)
      · exact .inr (.inr ⟨p, s.expected p, digest, hnext⟩)
  · exact of_carries_release h

theorem of_carries_dispatchReserved {e' : Envelope} {n : ℕ}
    (h : (s.dispatchReserved c p e' n).Carries e) : s.Carries e ∨ e = e' := by
  unfold Bus.dispatchReserved at h
  split_ifs at h
  · exact of_carries_suspend h
  · exact of_carries_suspend h
  · exact of_carries_suspend h
  · rcases of_carries_release h with h | h | ⟨q, m, digest, h⟩
    · exact .inl (.inl h)
    · exact .inl (.inr (.inl h))
    · rcases Bus.of_lookup_insert h with ⟨-, -, heq⟩ | h
      · cases heq
        exact .inr rfl
      · exact .inl (.inr (.inr ⟨q, m, digest, h⟩))
  · exact of_carries_suspend h

theorem of_carries_advance {pt : Point} (h : (s.advance c p pt).Carries e) :
    s.Carries e ∨ e = pt.carried := by
  cases pt with
  | reserving e' n =>
    simp only [Bus.advance, Bus.afterReserve] at h
    split at h
    · exact .inl (of_carries_release h)
    · have hreserved := of_carries_dispatchReserved h
      exact hreserved
    · exact .inl (of_carries_release h)
    · exact .inl (of_carries_release h)
  | rejecting e' x =>
    simp only [Bus.advance] at h
    split at h
    all_goals
      have hreleased := of_carries_release h
      exact .inl hreleased
  | marking job =>
    simp only [Bus.advance] at h
    split at h
    · exact .inl (of_carries_leave h)
    · have hentering := of_carries_suspend h
      exact hentering
  | entering job =>
    simp only [Bus.advance, Bus.dispatchHandlers] at h
    split at h
    all_goals
      have hnext := of_carries_suspend h
      exact hnext
  | handling job rest =>
    rcases rest with _ | ⟨_, _ | ⟨_, _⟩⟩
    all_goals
      rw [Bus.advance] at h
      have hnext := of_carries_suspend h
      exact hnext
  | aborting job x =>
    simp only [Bus.advance] at h
    split at h
    · exact .inl (of_carries_leave h)
    · split_ifs at h
      · have hreporting := of_carries_suspend h
        exact hreporting
      · have hleft := of_carries_leave h
        exact .inl hleft
  | reporting job x => exact .inl (of_carries_leave h)
  | completing job =>
    simp only [Bus.advance] at h
    split at h
    · exact .inl (of_carries_leave h)
    · have hdrained := of_carries_drainPartition h
      exact .inl hdrained

/-- **Only `publish` brings in a message**, and it lets no expired one in. -/
theorem of_carries_step {a : Action} (h : step c s a = some s') (he : s'.Carries e) :
    s.Carries e ∨ ∃ now, a = .publish e now ∧ ¬ e.Expired now := by
  cases step_cases h with
  | publish e' now =>
    unfold Bus.publish at he
    split at he
    · exact .inl he
    · next hok =>
        rcases he with he | he
        · rcases List.mem_append.mp he with he | he
          · exact .inl (.inl he)
          · cases List.mem_singleton.mp he
            refine .inr ⟨now, rfl, ?_⟩
            rintro ⟨time, htime, hle⟩
            have hfresh := (Bus.assertDeliverable_eq_ok.mp hok).2
            simp [htime, hle] at hfresh
        · exact .inl (.inr he)
  | acquire hwaiting hfree =>
    left
    rcases of_carries_suspend he with (he | he) | rfl
    · exact .inl (List.mem_of_mem_erase he)
    · exact .inr he
    · exact .inl hwaiting
  | @advance p pt hpt =>
    rcases of_carries_advance he with he | rfl
    · exact .inl he
    · exact .inl (.inr (.inl ⟨p, pt, hpt, rfl⟩))
  | failEntering x hpt | failHandling x hpt =>
    exact .inl ((of_carries_suspend he).elim id fun heq => .inr (.inl ⟨_, _, hpt, heq.symm⟩))
  | failReporting x hpt => exact .inl (of_carries_leave he)
  | cancel hpt => exact .inl (of_carries_release he)
  | cancelWaiting hmem =>
    left
    rcases he with he | he
    · exact .inl (List.mem_of_mem_erase he)
    · exact .inr he
  | close => exact .inl he

theorem carries_of_startsAt {a : Action} {start : Envelope × Handler} (h : start ∈ startsAt c s a) :
    s.Carries start.1 := by
  cases a with
  | advance p =>
    cases hpt : s.active p with
    | none => simp [startsAt, hpt] at h
    | some pt =>
      refine .inr (.inl ⟨p, pt, hpt, ?_⟩)
      rw [startsAt, hpt, Option.elim_some] at h
      cases pt with
      | entering job =>
        obtain ⟨_, -, rfl⟩ := List.mem_map.mp h
        rfl
      | handling job rest =>
        obtain ⟨_, -, rfl⟩ := List.mem_map.mp h
        rfl
      | _ => cases h
  | _ => cases h

end carried

/-! ### Times -/

/-- A segment of the bus, or `restore_partition_cursor`. -/
inductive BusCall where
  | act (a : Action)
  | restorePartitionCursor (tenantId partitionKey : String) (nextExpected : ℕ)

def busStep (c : Config) (s : Bus) : BusCall → Option Bus
  | .act a => step c s a
  | .restorePartitionCursor tenantId partitionKey nextExpected =>
    match s.restorePartitionCursor tenantId partitionKey nextExpected with
    | .ok s' => some s'
    | .error _ => some s

def BusCall.starts (c : Config) (s : Bus) : BusCall → List (Envelope × Handler)
  | .act a => startsAt c s a
  | .restorePartitionCursor _ _ _ => []

/-- The clock that `publish` reads shows `now`. -/
def BusCall.At (now : ℕ) : BusCall → Prop
  | .act (.publish _ time) => time = now
  | _ => True

instance (now : ℕ) : DecidablePred (BusCall.At now)
  | .act (.publish _ time) => inferInstanceAs (Decidable (time = now))
  | .act (.acquire _) => .isTrue trivial
  | .act (.advance _) => .isTrue trivial
  | .act (.fail _ _) => .isTrue trivial
  | .act (.cancel _) => .isTrue trivial
  | .act (.cancelWaiting _) => .isTrue trivial
  | .act .close => .isTrue trivial
  | .restorePartitionCursor _ _ _ => .isTrue trivial

/-- The publish that a call is, with its time. -/
def BusCall.published : BusCall → List (Envelope × ℕ)
  | .act (.publish e now) => [(e, now)]
  | _ => []

/-- A bus with the calls of `publish` and the handlers that it has started, each with its time. -/
structure Timed where
  bus : Bus
  published : List (Envelope × ℕ)
  starts : List ((Envelope × Handler) × ℕ)

def Timed.init (records : Records) : Timed := ⟨.init records, [], []⟩

/-- A call at a time; the handlers that are new in the history started then. -/
def timedStep (c : Config) (s : Timed) (call : ℕ × BusCall) : Option Timed :=
  if call.2.At call.1 then
    (busStep c s.bus call.2).map fun bus =>
      ⟨bus, s.published ++ call.2.published,
        s.starts ++ (bus.started.drop s.bus.started.length).map (·, call.1)⟩
  else none

section timed
variable {c : Config} {s s' : Timed}

theorem started_of_busStep {b b' : Bus} {call : BusCall} (h : busStep c b call = some b') :
    b'.started = b.started ++ call.starts c b := by
  cases call with
  | act a => exact started_of_step h
  | restorePartitionCursor tenantId partitionKey nextExpected =>
    rw [busStep] at h
    unfold Bus.restorePartitionCursor at h
    split_ifs at h
    all_goals
      cases h
      simp [BusCall.starts, Bus.started]

variable {call : ℕ × BusCall}

theorem starts_of_timedStep (h : timedStep c s call = some s') :
    s'.starts = s.starts ++ (call.2.starts c s.bus).map (·, call.1) := by
  unfold timedStep at h
  split_ifs at h
  obtain ⟨bus, hbus, rfl⟩ := Option.map_eq_some_iff.mp h
  rw [started_of_busStep hbus, List.drop_left]

/-- Each message that the bus carries had not expired at a call of `publish` with it. -/
def Timed.Checked (s : Timed) : Prop :=
  ∀ e, s.bus.Carries e → ∃ time, (e, time) ∈ s.published ∧ ¬ e.Expired time

theorem checked_of_timedStep (hs : s.Checked) (h : timedStep c s call = some s') :
    s'.Checked := by
  unfold timedStep at h
  split_ifs at h
  obtain ⟨bus, hbus, rfl⟩ := Option.map_eq_some_iff.mp h
  intro e he
  obtain he | ⟨now, hcall, hfresh⟩ : s.bus.Carries e ∨
      ∃ now, call.2 = .act (.publish e now) ∧ ¬ e.Expired now := by
    cases hcall : call.2 with
    | act a =>
      rw [hcall] at hbus
      exact (of_carries_step hbus he).imp_right fun ⟨now, heq, hfresh⟩ => ⟨now, by rw [heq], hfresh⟩
    | restorePartitionCursor tenantId partitionKey nextExpected =>
      rw [hcall, busStep] at hbus
      unfold Bus.restorePartitionCursor at hbus
      split_ifs at hbus
      all_goals
        cases hbus
        exact .inl he
  · obtain ⟨time, hmem, hfresh⟩ := hs e he
    exact ⟨time, List.mem_append_left _ hmem, hfresh⟩
  · refine ⟨now, List.mem_append_right _ ?_, hfresh⟩
    rw [hcall]
    exact List.mem_singleton_self _

/-- No handler was started for an expired message. -/
def StartedUnexpired (s : Timed) : Prop := ∀ start ∈ s.starts, ¬ start.1.1.Expired start.2

/-- The message had not expired at the first time, and has at the second. -/
def Envelope.ExpiresBetween (e : Envelope) (first second : ℕ) : Prop :=
  ¬ e.Expired first ∧ e.Expired second

instance (e : Envelope) (first second : ℕ) : Decidable (e.ExpiresBetween first second) :=
  inferInstanceAs (Decidable (_ ∧ _))

/-- The call that a handler waits for returns before the message of the handler, not yet expired when it was
published, expires. -/
def ReturnsInTime (c : Config) (s : Timed) (call : ℕ × BusCall) : Prop :=
  ∀ start ∈ call.2.starts c s.bus, ∀ publish ∈ s.published, publish.1 = start.1 →
    ¬ start.1.ExpiresBetween publish.2 call.1

instance (s : Timed) : Decidable (StartedUnexpired s) := inferInstanceAs (Decidable (∀ _ ∈ _, _))

instance (c : Config) (s : Timed) : DecidablePred (ReturnsInTime c s) := fun _ =>
  inferInstanceAs (Decidable (∀ _ ∈ _, _))

theorem returnsInTime_iff (hs : s.Checked) :
    ReturnsInTime c s call ↔ ∀ start ∈ call.2.starts c s.bus, ¬ start.1.Expired call.1 := by
  refine forall₂_congr fun start hstart => ⟨fun h hexpired => ?_, fun h publish _ _ hbetween => h hbetween.2⟩
  have hcarries : s.bus.Carries start.1 := by
    cases hcall : call.2 with
    | act a =>
      rw [hcall] at hstart
      exact carries_of_startsAt hstart
    | restorePartitionCursor tenantId partitionKey nextExpected =>
      rw [hcall] at hstart
      cases hstart
  -- what the bus carries was let in by the check of a publish
  obtain ⟨time, hmem, hfresh⟩ := hs start.1 hcarries
  exact h _ hmem rfl ⟨hfresh, hexpired⟩

/-- **Handlers start for unexpired messages** exactly when no message expires between a publish of it and the
return of a call that a handler waits for with it. -/
theorem handlers_start_unexpired {records : Records} {calls : List (ℕ × BusCall)}
    (h : run (timedStep c) (.init records) calls = some s) :
    StartedUnexpired s ↔ AllSteps (timedStep c) (ReturnsInTime c) (.init records) calls := by
  have hinit : (Timed.init records).Checked := by
    rintro e (he | ⟨p, pt, he, -⟩ | ⟨p, n, digest, he⟩)
    · cases he
    · cases he
    · cases he
  have hiff := run_iff_allSteps (I := Timed.Checked) (P := StartedUnexpired) (C := ReturnsInTime c)
    (fun t call t' ht hstep => ⟨checked_of_timedStep ht hstep, ?_⟩) hinit h
  · rw [hiff]
    exact and_iff_right fun start hstart => nomatch hstart
  · rw [returnsInTime_iff ht]
    unfold StartedUnexpired
    rw [starts_of_timedStep hstep]
    simp only [List.mem_append, List.mem_map]
    constructor
    · intro hall
      refine ⟨fun start hstart => hall start (.inl hstart), fun start hstart => ?_⟩
      exact hall (start, call.1) (.inr ⟨start, hstart, rfl⟩)
    · rintro ⟨hold, hnew⟩ start (hstart | ⟨fresh, hfresh, rfl⟩)
      · exact hold start hstart
      · exact hnew fresh hfresh

section sample

def expiryConfig : Config := ⟨fun e => e.delivery.idempotencyKey, fun _ => ["h"], false, 2⟩

def lastingMessage : Envelope := ⟨"t", "p", 0, "ev", 0, ⟨"k0", 1, 0, none⟩, ""⟩

def shortMessage (sequence : ℕ) : Envelope := ⟨"t", "p", sequence, "ev", 0, ⟨"k1", 1, 0, some 10⟩, ""⟩

/-- A publish of a message, with `n` returns of awaited calls. -/
def publishAt (e : Envelope) (now n : ℕ) : List (ℕ × BusCall) :=
  [(now, .act (.publish e now)), (now, .act (.acquire e))]
    ++ List.replicate n (now, .act (.advance e.partition))

theorem handlers_start_unexpired_sample :
    ∃ s ∈ run (timedStep expiryConfig) (.init fun _ => none) (publishAt (shortMessage 0) 5 5),
      s.starts ≠ [] ∧ StartedUnexpired s := by
  have htime : AllSteps (timedStep expiryConfig) (ReturnsInTime expiryConfig) (.init fun _ => none)
      (publishAt (shortMessage 0) 5 5) := by decide +kernel
  exact ⟨_, rfl, by decide +kernel, (handlers_start_unexpired rfl).mpr htime⟩

/-- **A message that expires on the way** is handled: in the gap buffer, and behind a slow middleware. -/
theorem expired_on_the_way :
    (∃ s ∈ run (timedStep expiryConfig) (.init fun _ => none)
        (publishAt (shortMessage 1) 5 1 ++ publishAt lastingMessage 20 8), ¬ StartedUnexpired s) ∧
      ∃ s ∈ run (timedStep expiryConfig) (.init fun _ => none)
        (publishAt (shortMessage 0) 5 2 ++ [(12, .act (.advance ("t", "p")))]), ¬ StartedUnexpired s :=
  ⟨⟨_, rfl, by decide +kernel⟩, _, rfl, by decide +kernel⟩

end sample

end timed

end CyberControl.Messaging
