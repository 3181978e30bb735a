import CyberControl.VerificationChallenges

/-! # Reconciliation jobs

The rows of `identity_reconciliation_jobs` of one tenant and the transactions that write them:
claiming and finishing a job, scheduling the job of a registration, and arming, expediting and
completing the compensation of an account.  `none` is an exception. -/

namespace CyberControl.Reconciliation

open VerificationChallenges (RegistrationState seconds)

/-! ### Rows -/

/-- `ReconciliationState` -/
inductive ReconciliationState
  | pending
  | running
  | completed
  | failed
  deriving DecidableEq, Repr

/-- The check constraint `operation` -/
inductive JobOperation
  | finalizeProjection
  | deleteKeycloakUser
  | updateKeycloakUser
  | setKeycloakStatus
  deriving DecidableEq, Repr

/-- `job_document` -/
structure JobDocument where
  storageKey : ℕ
  requestDigest : ℕ
  compensationSnapshot : Option ℕ
  deriving DecidableEq

/-- `IdentityReconciliationJobModel`; times in microseconds. -/
structure Job where
  jobId : ℕ
  correlationId : ℕ
  registrationId : Option ℕ
  accountId : Option ℕ
  keycloakUserId : Option ℕ
  operation : JobOperation
  claimToken : Option ℕ
  claimedBy : Option ℕ
  state : ReconciliationState
  attemptCount : ℕ
  maxAttempts : ℕ
  nextAttemptAt : ℤ
  lastErrorCode : Option String
  jobDocument : JobDocument
  createdAt : ℤ
  updatedAt : ℤ
  completedAt : Option ℤ

/-- `claim_ownership` -/
def Job.claimOwnership (job : Job) : Bool :=
  (job.state = .running ∧ job.claimToken.isSome ∧ job.claimedBy.isSome) ∨
    (job.state ≠ .running ∧ job.claimToken = none ∧ job.claimedBy = none)

/-- The check constraints that tie several columns together or bound one. -/
def Job.valid (job : Job) : Bool :=
  (job.registrationId.isSome ∨ job.accountId.isSome) ∧ job.claimOwnership ∧
    1 ≤ job.maxAttempts ∧ job.maxAttempts ≤ 64

/-- The partial index `uq_identity_reconciliation_jobs_active_account`. -/
def Job.activeFor (job : Job) (accountId : ℕ) : Bool :=
  job.accountId = some accountId ∧ job.operation ≠ .finalizeProjection ∧
    (job.state = .pending ∨ job.state = .running)

/-- Two rows with a common key of one of the unique constraints. -/
def Job.conflicts (a b : Job) : Bool :=
  a.jobId = b.jobId ∨ (a.correlationId = b.correlationId ∧ a.operation = b.operation) ∨
    a.accountId.any fun accountId => a.activeFor accountId ∧ b.activeFor accountId

/-- The rows, when they meet the constraints of the table. -/
def admitJobs (jobs : List Job) : Option (List Job) :=
  if jobs.all Job.valid ∧ jobs.Pairwise fun a b => a.conflicts b = false then some jobs else none

/-- `AccountStatus` -/
inductive AccountStatus
  | active
  | disabled
  | reconciliationRequired
  deriving DecidableEq, Repr

/-- The columns of `IdentityAccountModel` that the transactions on jobs read and write. -/
structure Account where
  accountId : ℕ
  oidcSubject : ℕ
  status : AccountStatus
  disabledReasonCode : Option String
  profileVersion : ℕ

/-- The latest snapshot of a registration. -/
structure Registration where
  state : RegistrationState
  accountId : Option ℕ

/-- The rows of one tenant. -/
structure Store where
  jobs : List Job
  accounts : List Account
  registrations : ℕ → Option Registration

structure Settings where
  claimLease : ℤ
  httpTimeout : ℤ

/-- Replace the rows with an identifier. -/
def updateJob (jobs : List Job) (jobId : ℕ) (f : Job → Job) : List Job :=
  jobs.map fun job => if job.jobId = jobId then f job else job

def updateAccount (accounts : List Account) (accountId : ℕ) (f : Account → Account) : List Account :=
  accounts.map fun account => if account.accountId = accountId then f account else account

def Store.setRegistration (store : Store) (registrationId : ℕ) (latest : Registration) : Store :=
  { store with registrations := Function.update store.registrations registrationId (some latest) }

/-- Write the rows back. -/
def Store.save (store : Store) (jobs : List Job) : Option Store :=
  (admitJobs jobs).map fun jobs => { store with jobs }

variable (settings : Settings)

/-! ### Claiming jobs -/

/-- The rows that `claim` selects. -/
def due (now : ℤ) (row : Job) : Bool :=
  (row.state = .pending ∧ row.nextAttemptAt ≤ now ∧ row.attemptCount < row.maxAttempts) ∨
    (row.state = .running ∧ row.updatedAt ≤ now - settings.claimLease)

def Job.leaseExhausted (row : Job) : Bool := row.maxAttempts ≤ row.attemptCount

def claimRow (instanceId token : ℕ) (now : ℤ) (row : Job) : Job :=
  { row with
    state := .running
    claimToken := some token
    claimedBy := some instanceId
    attemptCount := if row.leaseExhausted then row.attemptCount else row.attemptCount + 1
    updatedAt := now }

/-- An entry of `claimed` -/
structure Claim where
  jobId : ℕ
  registrationId : Option ℕ
  accountId : Option ℕ
  keycloakUserId : Option ℕ
  operation : JobOperation
  attemptCount : ℕ
  maxAttempts : ℕ
  leaseExhausted : Bool
  claimToken : ℕ
  jobDocument : JobDocument
  deriving DecidableEq

/-- The entry for a row, which was `row` before the claim. -/
def claimOf (token : ℕ) (row : Job) : Claim where
  jobId := row.jobId
  registrationId := row.registrationId
  accountId := row.accountId
  keycloakUserId := row.keycloakUserId
  operation := row.operation
  attemptCount := if row.leaseExhausted then row.attemptCount else row.attemptCount + 1
  maxAttempts := row.maxAttempts
  leaseExhausted := row.leaseExhausted
  claimToken := token
  jobDocument := row.jobDocument

/-- One round of the loop of `claim`. -/
def claimOne (store : Store) (instanceId jobId token : ℕ) (now : ℤ) : Option (Store × Claim) := do
  let row ← store.jobs.find? fun row => row.jobId = jobId ∧ due settings now row
  let store ← store.save (updateJob store.jobs jobId (claimRow instanceId token now))
  some (store, claimOf token row)

/-! ### Finishing a job -/

/-- `2 ** min(attempt_count, 8)` seconds, at most five minutes. -/
def backoff (attemptCount : ℕ) : ℤ := seconds (min 300 (2 ^ min attemptCount 8))

def JobOperation.isAccountCompensation (operation : JobOperation) : Bool :=
  operation = .updateKeycloakUser ∨ operation = .setKeycloakStatus

/-- The row of a job that succeeded. -/
def finishSucceeded (now : ℤ) (row : Job) : Job :=
  { row with
    claimToken := none, claimedBy := none, state := .completed, completedAt := some now
    lastErrorCode := none, updatedAt := now }

/-- The row of a job that failed, with the attempts of the claim. -/
def finishFailed (failureCode : String) (attemptCount maxAttempts : ℕ) (now : ℤ) (row : Job) : Job :=
  { row with
    claimToken := none, claimedBy := none
    state := if maxAttempts ≤ attemptCount then .failed else .pending
    nextAttemptAt := now + backoff attemptCount
    lastErrorCode := some failureCode, updatedAt := now }

/-- The account of a compensation that ran out of attempts. -/
def requireReconciliation (account : Account) : Account :=
  if account.status = .reconciliationRequired then account
  else
    { account with
      status := .reconciliationRequired
      disabledReasonCode := some "IDENTITY_RECONCILIATION_FAILED"
      profileVersion := account.profileVersion + 1 }

/-- The accounts after a failed attempt; an account that is not there is an exception. -/
def exhaustAccount (accounts : List Account) (row : Job) (attemptCount maxAttempts : ℕ) :
    Option (List Account) :=
  match row.accountId with
  | none => some accounts
  | some accountId =>
    if maxAttempts ≤ attemptCount ∧ row.operation.isAccountCompensation then
      if accounts.any fun account => account.accountId = accountId then
        some (updateAccount accounts accountId requireReconciliation)
      else none
    else some accounts

/-- The `operation` of `_finish_reconciliation_job`: whether the claim still held the job. -/
def finishReconciliationJob (store : Store) (jobId claimToken : ℕ) (succeeded : Bool)
    (failureCode : String) (attemptCount maxAttempts : ℕ) (now : ℤ) : Option (Bool × Store) :=
  match store.jobs.find? fun row =>
      row.jobId = jobId ∧ row.state = .running ∧ row.claimToken = some claimToken with
  | none => some (false, store)
  | some row =>
    if succeeded then do
      let store ← store.save (updateJob store.jobs jobId (finishSucceeded now))
      some (true, store)
    else do
      let accounts ← exhaustAccount store.accounts row attemptCount maxAttempts
      let store ← store.save
        (updateJob store.jobs jobId (finishFailed failureCode attemptCount maxAttempts now))
      some (true, { store with accounts })

/-! ### The job of a registration -/

/-- The row that scheduling a registration inserts. -/
def newRegistrationJob (jobId registrationId keycloakUserId : ℕ) (accountId : Option ℕ)
    (failureCode : String) (jobDocument : JobDocument) (now : ℤ) : Job where
  jobId := jobId
  correlationId := registrationId
  registrationId := some registrationId
  accountId := accountId
  keycloakUserId := some keycloakUserId
  operation := .finalizeProjection
  claimToken := none
  claimedBy := none
  state := .pending
  attemptCount := 0
  maxAttempts := 8
  nextAttemptAt := now
  lastErrorCode := some failureCode
  jobDocument := jobDocument
  createdAt := now
  updatedAt := now
  completedAt := none

/-- `set_` of `on_conflict_do_update` -/
def reschedule (excluded : Job) (row : Job) : Job :=
  { row with
    state := .pending
    keycloakUserId := excluded.keycloakUserId
    nextAttemptAt := excluded.nextAttemptAt
    lastErrorCode := excluded.lastErrorCode
    jobDocument := excluded.jobDocument
    updatedAt := excluded.updatedAt }

/-- The `index_elements` agree. -/
def Job.sameTarget (a b : Job) : Bool :=
  a.correlationId = b.correlationId ∧ a.operation = b.operation

/-- `insert` with `on_conflict_do_update` -/
def upsert (jobs : List Job) (excluded : Job) : List Job :=
  if jobs.any fun row => row.sameTarget excluded then
    jobs.map fun row => if row.sameTarget excluded then reschedule excluded row else row
  else jobs ++ [excluded]

/-- The `operation` of `_schedule_registration_reconciliation` -/
def scheduleRegistrationReconciliation (store : Store) (registrationId keycloakUserId : ℕ)
    (failureCode : String) (storageKey requestDigest jobId : ℕ) (now : ℤ) : Option Store :=
  match store.registrations registrationId with
  | none => some store
  | some latest =>
    if latest.state = .completed then some store
    else
      let excluded := newRegistrationJob jobId registrationId keycloakUserId latest.accountId
        failureCode ⟨storageKey, requestDigest, none⟩ now
      (store.setRegistration registrationId { latest with state := .projectionPending }).save
        (upsert store.jobs excluded)

/-- The snapshot that `_prepare_registration_transaction` appends to a registration. -/
def prepareRegistration (store : Store) (registrationId : ℕ) : Store :=
  match store.registrations registrationId with
  | some ⟨.completed, _⟩ => store
  | _ => store.setRegistration registrationId ⟨.keycloakPending, none⟩

/-- `_finalize_registration`: the registration has a snapshot, and its last one is completed
afterwards. -/
def finalizeRegistration (store : Store) (registrationId accountId : ℕ) : Option Store :=
  (store.registrations registrationId).map fun latest =>
    if latest.state = .completed then store
    else store.setRegistration registrationId ⟨.completed, some accountId⟩

/-! ### The compensation of an account -/

/-- The row that `_arm_account_compensation` inserts. -/
def newAccountJob (jobId correlationId accountId userId : ℕ) (jobDocument : JobDocument) (now : ℤ) :
    Job where
  jobId := jobId
  correlationId := correlationId
  registrationId := none
  accountId := some accountId
  keycloakUserId := some userId
  operation := .updateKeycloakUser
  claimToken := none
  claimedBy := none
  state := .pending
  attemptCount := 0
  maxAttempts := 8
  nextAttemptAt := now + max (seconds 15) (settings.httpTimeout * 3)
  lastErrorCode := none
  jobDocument := jobDocument
  createdAt := now
  updatedAt := now
  completedAt := none

/-- The `operation` of `_arm_account_compensation`, after the check of the idempotency record. -/
def armAccountCompensation (store : Store) (accountId expectedVersion userId : ℕ)
    (jobDocument : JobDocument) (jobId correlationId : ℕ) (now : ℤ) : Option Store := do
  let account ← store.accounts.find? fun account => account.accountId = accountId
  if account.profileVersion ≠ expectedVersion ∨ account.status = .reconciliationRequired ∨
      account.oidcSubject ≠ userId then none
  else if store.jobs.any fun job => job.activeFor accountId then none
  else
    store.save
      (store.jobs ++ [newAccountJob settings jobId correlationId accountId userId jobDocument now])

/-- The `operation` of `_queue_account_compensation` -/
def queueAccountCompensation (store : Store) (jobId : ℕ) (failureCode : String) (now : ℤ) :
    Option Store :=
  match store.jobs.find? fun row => row.jobId = jobId with
  | none => some store
  | some row =>
    if row.state ≠ .pending then some store
    else store.save (updateJob store.jobs jobId fun row =>
      { row with nextAttemptAt := now, lastErrorCode := some failureCode, updatedAt := now })

/-- `_complete_reconciliation_job_in_transaction` -/
def completeReconciliationJob (store : Store) (jobId : ℕ) (now : ℤ) : Option Store := do
  let row ← store.jobs.find? fun row => row.jobId = jobId
  if row.state ≠ .pending then none
  else store.save (updateJob store.jobs jobId fun row =>
    { row with
      state := .completed, completedAt := some now, lastErrorCode := none, updatedAt := now })

/-- What `_commit_profile_update`, `_commit_contact_change` and `_commit_account_status` write into
the account. -/
inductive Mutation
  | profile
  | contact
  | status (enabled : Bool) (reasonCode : Option String)

def Mutation.apply (mutation : Mutation) (account : Account) : Account :=
  match mutation with
  | .profile | .contact => { account with profileVersion := account.profileVersion + 1 }
  | .status enabled reasonCode =>
    { account with
      status := if enabled then .active else .disabled
      disabledReasonCode := if enabled then none else some (reasonCode.getD "ADMIN_DISABLED")
      profileVersion := account.profileVersion + 1 }

/-- The commit of a mutation, as far as it writes the account and the job. -/
def commitMutation (store : Store) (mutation : Mutation) (accountId expectedVersion jobId : ℕ)
    (now : ℤ) : Option Store := do
  let account ← store.accounts.find? fun account => account.accountId = accountId
  if account.profileVersion ≠ expectedVersion then none
  else
    completeReconciliationJob
      { store with accounts := updateAccount store.accounts accountId mutation.apply } jobId now

/-! ### Workers and callers -/

/-- A claim in the hands of a worker; `outcome` is how performing the job ended. -/
structure Held where
  claim : Claim
  outcome : Option Bool
  deriving DecidableEq

/-- A job that a worker performed, with the state of the row when it began. -/
structure Performed where
  claim : Claim
  state : Option ReconciliationState

/-- The store, the claims that are held, the tokens drawn so far, the compensations armed so far
and the jobs performed so far. -/
structure World where
  store : Store
  held : List Held
  tokens : List ℕ
  armed : List ℕ
  performed : List Performed

def World.initial (accounts : List Account) : World := ⟨⟨[], accounts, fun _ => none⟩, [], [], [], []⟩

/-- What any worker or caller does next.  A crash is an action that never comes. -/
inductive Action
  | claim (instanceId : ℕ) (picked : List (ℕ × ℕ)) (now : ℤ)
  | perform (token : ℕ) (succeeded : Bool) (accountId : ℕ)
  | finish (token : ℕ) (succeeded : Bool) (failureCode : String) (now : ℤ)
  | schedule (registrationId keycloakUserId : ℕ) (failureCode : String)
      (storageKey requestDigest jobId : ℕ) (now : ℤ)
  | prepare (registrationId : ℕ)
  | finalize (registrationId accountId : ℕ)
  | arm (accountId expectedVersion userId : ℕ) (jobDocument : JobDocument)
      (jobId correlationId : ℕ) (now : ℤ)
  | queue (jobId : ℕ) (failureCode : String) (now : ℤ)
  | commit (mutation : Mutation) (accountId expectedVersion jobId : ℕ) (now : ℤ)

/-- `claim` of `_reconcile_tenant`: the order and the limit of the query, and the rows locked by
others, pick some of the due rows; a token is never drawn twice. -/
def claimAll (w : World) (instanceId : ℕ) (now : ℤ) : List (ℕ × ℕ) → Option World
  | [] => some w
  | (jobId, token) :: picked =>
    if token ∈ w.tokens then none
    else do
      let (store, claim) ← claimOne settings w.store instanceId jobId token now
      claimAll
        { w with store, held := w.held ++ [⟨claim, none⟩], tokens := w.tokens ++ [token] }
        instanceId now picked

def failureOf (claim : Claim) (failureCode : String) : String :=
  if claim.leaseExhausted then "RECONCILIATION_CLAIM_LEASE_EXPIRED" else failureCode

/-- The effect of performing a job: a registration is finalized, an account restored outside the
store, and anything else refused. -/
def performJob (store : Store) (claim : Claim) (succeeded : Bool) (accountId : ℕ) : Option Store :=
  if succeeded = false then some store
  else
    match claim.operation with
    | .finalizeProjection => do
      let registrationId ← claim.registrationId
      finalizeRegistration store registrationId accountId
    | .updateKeycloakUser | .setKeycloakStatus => claim.accountId.map fun _ => store
    | .deleteKeycloakUser => none

/-- One action of the system. -/
def step (w : World) : Action → Option World
  | .claim instanceId picked now => claimAll settings w instanceId now picked
  | .perform token succeeded accountId => do
    let held ← w.held.find? fun held =>
      held.claim.claimToken = token ∧ held.outcome = none ∧ held.claim.leaseExhausted = false
    let store ← performJob w.store held.claim succeeded accountId
    let row := w.store.jobs.find? fun row => row.jobId = held.claim.jobId
    some { w with
      store
      held := w.held.map fun h =>
        if h = held then { h with outcome := some succeeded } else h
      performed := w.performed ++ [⟨held.claim, row.map (·.state)⟩] }
  | .finish token succeeded failureCode now => do
    let held ← w.held.find? fun held => held.claim.claimToken = token ∧
      (if held.claim.leaseExhausted then succeeded = false
      else held.outcome.any fun performed => !succeeded || performed)
    let (_, store) ← finishReconciliationJob w.store held.claim.jobId token succeeded
      (failureOf held.claim failureCode) held.claim.attemptCount held.claim.maxAttempts now
    some { w with store, held := w.held.filter fun h => h.claim.claimToken ≠ token }
  | .schedule registrationId keycloakUserId failureCode storageKey requestDigest jobId now => do
    let store ← scheduleRegistrationReconciliation w.store registrationId keycloakUserId failureCode
      storageKey requestDigest jobId now
    some { w with store }
  | .prepare registrationId => some { w with store := prepareRegistration w.store registrationId }
  | .finalize registrationId accountId => do
    let store ← finalizeRegistration w.store registrationId accountId
    some { w with store }
  | .arm accountId expectedVersion userId jobDocument jobId correlationId now => do
    let store ← armAccountCompensation settings w.store accountId expectedVersion userId jobDocument
      jobId correlationId now
    some { w with store, armed := w.armed ++ [jobId] }
  | .queue jobId failureCode now =>
    if jobId ∈ w.armed then do
      let store ← queueAccountCompensation w.store jobId failureCode now
      some { w with store }
    else none
  | .commit mutation accountId expectedVersion jobId now =>
    if jobId ∈ w.armed then do
      let store ← commitMutation w.store mutation accountId expectedVersion jobId now
      some { w with store }
    else none

end CyberControl.Reconciliation
