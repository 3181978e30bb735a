import CyberControl.Errors

/-! # The in-memory idempotency store

`InMemoryIdempotencyStore` (`messaging/idempotency.py`): one record for each idempotency key,
with the digest of the message that reserved it and its state.  Every method runs under the
store's lock and suspends nowhere inside it, so it is a function from the records to a result
and the new records. -/

namespace CyberControl.Idempotency

/-- A hexadecimal SHA-256 digest. -/
abbrev Digest := String

inductive IdempotencyState where
  | BUFFERED
  | PROCESSING
  | COMPLETED
deriving DecidableEq, Repr

inductive ReservationDecision where
  | RESERVED
  | DUPLICATE_BUFFERED
  | DUPLICATE_PROCESSING
  | DUPLICATE_COMPLETED

/-- `ReservationDecision(f"DUPLICATE_{state}")`. -/
def ReservationDecision.duplicate : IdempotencyState → ReservationDecision
  | .BUFFERED => .DUPLICATE_BUFFERED
  | .PROCESSING => .DUPLICATE_PROCESSING
  | .COMPLETED => .DUPLICATE_COMPLETED

@[simp] theorem ReservationDecision.duplicate_ne_reserved (st : IdempotencyState) :
    ReservationDecision.duplicate st ≠ .RESERVED := by
  cases st <;> simp [duplicate]

structure IdempotencyRecord where
  key : String
  digest : Digest
  state : IdempotencyState

/-- `self._records`. -/
abbrev Records := String → Option IdempotencyRecord

/-- The conflict raised by `_assert_digest`. -/
def duplicateConflict : Exn :=
  .liyan (MessageConflictError .MESSAGE_DUPLICATE_CONFLICT
    "The idempotency key was reused for different message content.")

def assertDigest (existing : IdempotencyRecord) (digest : Digest) : Except Exn Unit :=
  if existing.digest ≠ digest then .error duplicateConflict else .ok ()

def reserve (records : Records) (key : String) (digest : Digest) :
    Except Exn (ReservationDecision × Records) :=
  match records key with
  | none => .ok (.RESERVED, Function.update records key (some ⟨key, digest, .BUFFERED⟩))
  | some existing => do
    assertDigest existing digest
    return (.duplicate existing.state, records)

def transition (records : Records) (key : String) (digest : Digest) (state : IdempotencyState) :
    Except Exn Records :=
  match records key with
  | none => .error (.runtimeError "idempotency reservation is missing")
  | some existing => do
    assertDigest existing digest
    return Function.update records key (some ⟨key, digest, state⟩)

def markProcessing (records : Records) (key : String) (digest : Digest) : Except Exn Records :=
  transition records key digest .PROCESSING

def complete (records : Records) (key : String) (digest : Digest) : Except Exn Records :=
  transition records key digest .COMPLETED

def abort (records : Records) (key : String) (digest : Digest) : Except Exn Records :=
  match records key with
  | none => .ok records
  | some existing => do
    assertDigest existing digest
    return if existing.state ≠ .COMPLETED then Function.update records key none else records

/-! ### What a successful call has done -/

variable {records records' : Records} {key : String} {digest : Digest}

theorem assertDigest_ok {existing : IdempotencyRecord} {u : Unit}
    (h : assertDigest existing digest = .ok u) : existing.digest = digest := by
  unfold assertDigest at h
  split at h
  · cases h
  · rename_i hd
    exact not_not.mp hd

theorem assertDigest_self (existing : IdempotencyRecord) :
    assertDigest existing existing.digest = .ok () := by
  simp [assertDigest]

theorem reserve_ok {decision : ReservationDecision}
    (h : reserve records key digest = .ok (decision, records')) :
    (decision = .RESERVED ∧ records key = none ∧
        records' = Function.update records key (some ⟨key, digest, .BUFFERED⟩)) ∨
      ∃ existing, records key = some existing ∧ existing.digest = digest ∧
        decision = .duplicate existing.state ∧ records' = records := by
  unfold reserve at h
  cases hr : records key with
  | none =>
    rw [hr] at h
    cases h
    exact .inl ⟨rfl, rfl, rfl⟩
  | some existing =>
    rw [hr] at h
    obtain ⟨hdigest, hresult⟩ := unit_bind_eq_ok.mp h
    cases hresult
    exact .inr ⟨existing, rfl, assertDigest_ok hdigest, rfl, rfl⟩

theorem reserve_none (h : records key = none) :
    reserve records key digest =
      .ok (.RESERVED, Function.update records key (some ⟨key, digest, .BUFFERED⟩)) := by
  simp [reserve, h]

theorem reserve_some {existing : IdempotencyRecord} (h : records key = some existing)
    (hd : existing.digest = digest) :
    reserve records key digest = .ok (.duplicate existing.state, records) := by
  subst hd
  simp [reserve, h, assertDigest_self, bind, Except.bind, pure, Except.pure]

theorem transition_ok {state : IdempotencyState}
    (h : transition records key digest state = .ok records') :
    ∃ existing, records key = some existing ∧ existing.digest = digest ∧
      records' = Function.update records key (some ⟨key, digest, state⟩) := by
  unfold transition at h
  cases hr : records key with
  | none =>
    rw [hr] at h
    cases h
  | some existing =>
    rw [hr] at h
    obtain ⟨hdigest, hresult⟩ := unit_bind_eq_ok.mp h
    exact ⟨existing, rfl, assertDigest_ok hdigest, (Except.ok.inj hresult).symm⟩

theorem abort_ok (h : abort records key digest = .ok records') :
    (records key = none ∧ records' = records) ∨
      ∃ existing, records key = some existing ∧ existing.digest = digest ∧
        records' = if existing.state ≠ .COMPLETED then Function.update records key none
          else records := by
  unfold abort at h
  cases hr : records key with
  | none =>
    rw [hr] at h
    cases h
    exact .inl ⟨rfl, rfl⟩
  | some existing =>
    rw [hr] at h
    obtain ⟨hdigest, hresult⟩ := unit_bind_eq_ok.mp h
    exact .inr ⟨existing, rfl, assertDigest_ok hdigest, (Except.ok.inj hresult).symm⟩

/-! ### What a refused call has met -/

theorem transition_error {state : IdempotencyState} {x : Exn}
    (h : transition records key digest state = .error x) :
    ∀ existing, records key = some existing → existing.digest ≠ digest := by
  rintro existing hr rfl
  simp [transition, hr, assertDigest_self, bind, Except.bind, pure, Except.pure] at h

theorem abort_error {x : Exn} (h : abort records key digest = .error x) :
    ∀ existing, records key = some existing → existing.digest ≠ digest := by
  rintro existing hr rfl
  simp [abort, hr, assertDigest_self, bind, Except.bind, pure, Except.pure] at h

end CyberControl.Idempotency
