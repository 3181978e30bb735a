import CyberControl.Transition
import Mathlib.Algebra.Order.Ring.Int
import Mathlib.Data.List.Nodup

/-! # Verification challenges

The transactions of `IdentityService` on the verification challenges of one tenant: request,
verification, the two transactions of a registration, and the commit of a contact change.  `none` is an
exception, which rolls the transaction back. -/

namespace CyberControl.VerificationChallenges

/-! ### Rows -/

/-- `ContactChannel` -/
inductive ContactChannel
  | email
  | phone
  deriving DecidableEq, Repr

/-- `ChallengePurpose` -/
inductive ChallengePurpose
  | register
  | changeEmail
  | changePhone
  | recovery
  deriving DecidableEq, Repr

/-- `ChallengeState` -/
inductive ChallengeState
  | pending
  | verified
  | consumed
  | expired
  | locked
  deriving DecidableEq, Repr

/-- The states of a challenge that nothing changes any more. -/
def ChallengeState.final : ChallengeState → Bool
  | .pending | .verified => false
  | .consumed | .expired | .locked => true

/-- `IdentityVerificationChallengeModel`; times in microseconds. -/
structure Challenge where
  challengeId : ℕ
  registrationId : Option ℕ
  accountId : Option ℕ
  channel : ContactChannel
  purpose : ChallengePurpose
  identifierDigest : ℕ
  codeDigest : ℕ
  state : ChallengeState
  attemptCount : ℕ
  maxAttempts : ℕ
  createdAt : ℤ
  lastSentAt : ℤ
  expiresAt : ℤ
  verifiedAt : Option ℤ
  consumedAt : Option ℤ
  updatedAt : ℤ

structure ChallengeKey where
  channel : ContactChannel
  purpose : ChallengePurpose
  identifierDigest : ℕ
  accountId : Option ℕ
  deriving DecidableEq

def Challenge.key (c : Challenge) : ChallengeKey :=
  ⟨c.channel, c.purpose, c.identifierDigest, c.accountId⟩

/-- `RegistrationState` -/
inductive RegistrationState
  | keycloakPending
  | projectionPending
  | completed
  deriving DecidableEq, Repr

/-- `IdentityRegistrationSnapshotModel`; the digest of the storage key stands for the key. -/
structure RegistrationSnapshot where
  registrationId : ℕ
  registrationVersion : ℕ
  accountId : Option ℕ
  channel : ContactChannel
  identifierDigest : ℕ
  idempotencyKey : ℕ
  state : RegistrationState

/-- The columns of `IdentityAccountModel` that a registration reads. -/
structure Account where
  accountId : ℕ
  oidcSubject : ℕ

/-- The operations under which a record is reserved. -/
inductive Operation
  | challengeRequest
  | challengeVerify
  | register
  deriving DecidableEq, Repr

/-- `result_payload` -/
inductive Payload
  | receipt (challengeId : ℕ)
  | rejected (errorCode : String)
  | registration (registrationId accountId : ℕ)

/-- `IdempotencyRecordModel` -/
structure IdempotencyRecord where
  operation : Operation
  requestDigest : ℕ
  completed : Bool
  leaseExpiresAt : Option ℤ
  result : Option Payload

abbrev Records := ℕ → Option IdempotencyRecord

/-- The rows of one tenant. -/
structure Database where
  challenges : List Challenge
  registrations : List RegistrationSnapshot
  accounts : List Account
  records : Records

def Database.empty : Database := ⟨[], [], [], fun _ => none⟩

/-- A duration in microseconds. -/
def seconds (n : ℕ) : ℤ := n * 1000000

/-- The settings, the keyed digest of a code, and how the database orders rows of one creation
time. -/
structure Service where
  ttlSeconds : ℕ
  cooldownSeconds : ℕ
  maxAttempts : ℕ
  processingLeaseSeconds : ℕ
  ttl_bounds : 30 ≤ ttlSeconds ∧ ttlSeconds ≤ 3600
  cooldown_bounds : 1 ≤ cooldownSeconds ∧ cooldownSeconds ≤ 3600
  maxAttempts_bounds : 1 ≤ maxAttempts ∧ maxAttempts ≤ 20
  verificationCodeDigest : ℕ → String → ℕ
  digest_injective : ∀ challengeId, Function.Injective (verificationCodeDigest challengeId)
  newest : List Challenge → Option Challenge
  newest_eq_none : ∀ l, newest l = none → l = []
  newest_spec : ∀ l c, newest l = some c → c ∈ l ∧ ∀ d ∈ l, d.createdAt ≤ c.createdAt

variable (service : Service)

/-! ### Idempotency records -/

/-- The lease that a reservation takes. -/
def leaseFrom (now : ℤ) : Option ℤ := some (now + seconds service.processingLeaseSeconds)

/-- `_reserve_idempotency`: the stored result of a duplicate, or the reserved record. -/
def reserveIdempotency (records : Records) (operation : Operation) (key requestDigest : ℕ) (now : ℤ) :
    Option (Option Payload × Records) :=
  match records key with
  | none =>
    some (none, Function.update records key (some
      { operation, requestDigest, completed := false, leaseExpiresAt := leaseFrom service now,
        result := none }))
  | some record =>
    if record.operation ≠ operation ∨ record.requestDigest ≠ requestDigest then none
    else if record.completed then record.result.map fun payload => (some payload, records)
    else if record.leaseExpiresAt.any fun lease => now < lease then none
    else some (none, Function.update records key
      (some { record with leaseExpiresAt := leaseFrom service now }))

/-- `_complete_idempotency` -/
def completeIdempotency (records : Records) (key : ℕ) (payload : Payload) : Option Records :=
  (records key).map fun record => Function.update records key
    (some { record with completed := true, leaseExpiresAt := none, result := some payload })

/-- `_release_idempotency_in_transaction` -/
def releaseIdempotency (records : Records) (key : ℕ) (now : ℤ) : Records :=
  match records key with
  | none => records
  | some record =>
    if record.completed then records
    else Function.update records key
      (some { record with leaseExpiresAt := some (now - seconds 1) })

/-! ### Requesting a challenge -/

/-- What `_request_challenge_transaction` returns: the code if one is sent, and the challenge of
the receipt. -/
structure RequestResult where
  code : Option String
  payload : Payload

/-- The states in which a challenge takes part in the cooldown. -/
def ChallengeState.active (state : ChallengeState) : Bool := state = .pending ∨ state = .verified

/-- `latest` -/
def latestChallenge (challenges : List Challenge) (key : ChallengeKey) : Option Challenge :=
  service.newest (challenges.filter fun c => c.key = key ∧ c.state.active)

/-- The challenge is alive and its code was sent a moment ago. -/
def inCooldown (latest : Challenge) (now : ℤ) : Bool :=
  now < latest.expiresAt ∧ now < latest.lastSentAt + seconds service.cooldownSeconds

def newChallenge (key : ChallengeKey) (challengeId : ℕ) (code : String) (now : ℤ) : Challenge where
  challengeId := challengeId
  registrationId := none
  accountId := key.accountId
  channel := key.channel
  purpose := key.purpose
  identifierDigest := key.identifierDigest
  codeDigest := service.verificationCodeDigest challengeId code
  state := .pending
  attemptCount := 0
  maxAttempts := service.maxAttempts
  createdAt := now
  lastSentAt := now
  expiresAt := now + seconds service.ttlSeconds
  verifiedAt := none
  consumedAt := none
  updatedAt := now

/-- `_request_challenge_transaction`, within the rate limits.  `challengeId` and `code` are the
random values it draws; the primary key refuses a used identifier. -/
def requestChallenge (db : Database) (key : ChallengeKey) (storageKey requestDigest challengeId : ℕ)
    (code : String) (now : ℤ) : Option (RequestResult × Database) := do
  let (duplicate, records) ←
    reserveIdempotency service db.records .challengeRequest storageKey requestDigest now
  match duplicate with
  | some payload => some (⟨none, payload⟩, db)
  | none =>
    match (latestChallenge service db.challenges key).filter fun c => inCooldown service c now with
    | some latest =>
      let payload := Payload.receipt latest.challengeId
      let records ← completeIdempotency records storageKey payload
      some (⟨none, payload⟩, { db with records })
    | none =>
      if db.challenges.any fun c => c.challengeId = challengeId then none
      else
        let payload := Payload.receipt challengeId
        let records ← completeIdempotency records storageKey payload
        some (⟨some code, payload⟩,
          { db with
            challenges := db.challenges ++ [newChallenge service key challengeId code now]
            records })

/-! ### Verifying a code -/

/-- Replace the row of a challenge. -/
def updateChallenge (challenges : List Challenge) (challengeId : ℕ) (f : Challenge → Challenge) :
    List Challenge :=
  challenges.map fun c => if c.challengeId = challengeId then f c else c

/-- `verification_code_matches` -/
def codeMatches (row : Challenge) (code : String) : Bool :=
  service.verificationCodeDigest row.challengeId code = row.codeDigest

def challengeInvalid : String := "IDENTITY_CHALLENGE_INVALID"

def challengeExpired : String := "IDENTITY_CHALLENGE_EXPIRED"

/-- A wrong code: the attempt is counted, the last one locks the challenge. -/
def rejectAttempt (now : ℤ) (row : Challenge) : Challenge :=
  { row with
    attemptCount := row.attemptCount + 1
    state := if row.maxAttempts ≤ row.attemptCount + 1 then .locked else row.state
    updatedAt := now }

/-- What presenting a code does to the row of a challenge, and the answer. -/
def verifyRow (row : Challenge) (code : String) (now : ℤ) : Challenge × Payload :=
  if row.expiresAt ≤ now ∧ row.state.active then
    ({ row with state := .expired, updatedAt := now }, .rejected challengeExpired)
  else if row.state ≠ .pending then (row, .rejected challengeInvalid)
  else if codeMatches service row code = false then
    (rejectAttempt now row, .rejected challengeInvalid)
  else
    ({ row with state := .verified, verifiedAt := some now, updatedAt := now },
      .receipt row.challengeId)

/-- `_verify_challenge_transaction` -/
def verifyChallengeRow (challenges : List Challenge) (challengeId : ℕ) (code : String) (now : ℤ) :
    List Challenge × Payload :=
  match challenges.find? fun c => c.challengeId = challengeId with
  | none => (challenges, .rejected challengeInvalid)
  | some row =>
    (updateChallenge challenges challengeId fun c => (verifyRow service c code now).1,
      (verifyRow service row code now).2)

/-- `_verify_challenge_idempotent_transaction`: the answer, and whether the code was looked at. -/
def verifyChallenge (db : Database) (challengeId : ℕ) (code : String)
    (storageKey requestDigest : ℕ) (now : ℤ) : Option (Bool × Payload × Database) := do
  let (duplicate, records) ←
    reserveIdempotency service db.records .challengeVerify storageKey requestDigest now
  match duplicate with
  | some payload => some (false, payload, db)
  | none =>
    let (challenges, payload) := verifyChallengeRow service db.challenges challengeId code now
    let records ← completeIdempotency records storageKey payload
    some (true, payload, { db with challenges, records })

/-! ### Registration -/

/-- `order_by(registration_version.desc()).limit(1)`: the versions of a registration are appended
in their order. -/
def latestSnapshot (registrations : List RegistrationSnapshot) (p : RegistrationSnapshot → Bool) :
    Option RegistrationSnapshot :=
  (registrations.filter p).getLast?

/-- `_append_registration_snapshot`, with the unique constraint on the version. -/
def appendSnapshot (registrations : List RegistrationSnapshot) (snapshot : RegistrationSnapshot) :
    Option (List RegistrationSnapshot) :=
  if registrations.any fun r => r.registrationId = snapshot.registrationId ∧
      r.registrationVersion = snapshot.registrationVersion then none
  else some (registrations ++ [snapshot])

/-- Whether a registration may use the challenge. -/
def registrationChallenge (channel : ContactChannel) (identifierDigest registrationId : ℕ) (now : ℤ)
    (c : Challenge) : Bool :=
  c.channel = channel ∧ c.purpose = .register ∧ c.identifierDigest = identifierDigest ∧
    c.state = .verified ∧ now < c.expiresAt ∧
    (c.registrationId = none ∨ c.registrationId = some registrationId)

/-- The part of `_prepare_registration_transaction` that binds the challenge. -/
def bindChallenge (db : Database) (channel : ContactChannel) (identifierDigest challengeId : ℕ)
    (storageKey registrationId version : ℕ) (now : ℤ) : Option Database := do
  let challenge ← db.challenges.find? fun c => c.challengeId = challengeId
  if registrationChallenge channel identifierDigest registrationId now challenge = false then none
  else
    let registrations ← appendSnapshot db.registrations
      { registrationId, registrationVersion := version, accountId := none, channel,
        identifierDigest, idempotencyKey := storageKey, state := .keycloakPending }
    some { db with
      challenges := updateChallenge db.challenges challengeId fun c =>
        { c with registrationId := some registrationId, updatedAt := now }
      registrations }

/-- `_prepare_registration_transaction`; `freshId` is the random identifier of a new
registration. -/
def prepareRegistration (db : Database) (channel : ContactChannel) (identifierDigest challengeId : ℕ)
    (storageKey requestDigest freshId : ℕ) (now : ℤ) : Option Database := do
  let (duplicate, records) ←
    reserveIdempotency service db.records .register storageKey requestDigest now
  match duplicate with
  | some _ => some db
  | none =>
    match latestSnapshot db.registrations fun r => r.idempotencyKey = storageKey with
    | none =>
      bindChallenge { db with records } channel identifierDigest challengeId storageKey freshId 1
        now
    | some latest =>
      if latest.identifierDigest ≠ identifierDigest ∨ latest.channel ≠ channel then none
      else if latest.state = .completed then do
        let accountId ← latest.accountId
        let _ ← db.accounts.find? fun a => a.accountId = accountId
        let records ← completeIdempotency records storageKey
          (.registration latest.registrationId accountId)
        some { db with records }
      else
        bindChallenge { db with records } channel identifierDigest challengeId storageKey
          latest.registrationId (latest.registrationVersion + 1) now

/-- `_schedule_registration_reconciliation`, as far as it writes a snapshot. -/
def scheduleReconciliation (db : Database) (registrationId : ℕ) : Option Database :=
  match latestSnapshot db.registrations fun r => r.registrationId = registrationId with
  | none => some db
  | some latest =>
    if latest.state = .completed then some db
    else do
      let registrations ← appendSnapshot db.registrations
        { latest with
          registrationVersion := latest.registrationVersion + 1
          state := .projectionPending }
      some { db with registrations }

/-- `account`: the projection of the Keycloak user, or a new one. -/
def accountOf (accounts : List Account) (oidcSubject freshId : ℕ) : Option (ℕ × List Account) :=
  match accounts.find? fun a => a.oidcSubject = oidcSubject with
  | some account => some (account.accountId, accounts)
  | none =>
    if accounts.any fun a => a.accountId = freshId then none
    else some (freshId, accounts ++ [⟨freshId, oidcSubject⟩])

/-- The row of a challenge that a registration has used up. -/
def consumeFor (accountId : ℕ) (now : ℤ) (c : Challenge) : Challenge :=
  { c with
    accountId := some accountId
    state := .consumed
    consumedAt := some (c.consumedAt.getD now)
    updatedAt := now }

/-- The snapshot that ends a registration, unless it is there. -/
def completeRegistration (registrations : List RegistrationSnapshot) (latest : RegistrationSnapshot)
    (accountId : ℕ) : Option (List RegistrationSnapshot) :=
  if latest.state = .completed then some registrations
  else appendSnapshot registrations
    { latest with
      registrationVersion := latest.registrationVersion + 1
      accountId := some accountId
      state := .completed }

/-- The `operation` of `_finalize_registration`.  The callers, `_register` and the reconciler, hold
the registration that `_prepare_registration_transaction` has stored for this key. -/
def finalizeRegistration (db : Database) (registrationId challengeId : ℕ)
    (storageKey requestDigest : ℕ) (oidcSubject freshId : ℕ) (now : ℤ) : Option Database := do
  if db.registrations.all fun r =>
      r.registrationId ≠ registrationId ∨ r.idempotencyKey ≠ storageKey then none
  else
  let record ← db.records storageKey
  if record.requestDigest ≠ requestDigest then none
  else if record.completed then some db
  else do
    let latest ← latestSnapshot db.registrations fun r => r.registrationId = registrationId
    let (accountId, accounts) ← accountOf db.accounts oidcSubject freshId
    let challenge ← db.challenges.find? fun c =>
      c.challengeId = challengeId ∧ c.registrationId = some registrationId
    if challenge.state ≠ .verified ∧ challenge.state ≠ .consumed then none
    else do
      let registrations ← completeRegistration db.registrations latest accountId
      let records ← completeIdempotency db.records storageKey (.registration registrationId accountId)
      some
        { challenges := updateChallenge db.challenges challengeId (consumeFor accountId now)
          registrations, accounts, records }

/-! ### Contact changes -/

/-- The part of `_commit_contact_change` that uses up the challenge; its other checks can only
refuse the transaction. -/
def commitContactChange (db : Database) (accountId challengeId : ℕ) (now : ℤ) : Option Database := do
  let challenge ← db.challenges.find? fun c =>
    c.challengeId = challengeId ∧ c.accountId = some accountId ∧ c.state = .verified
  if challenge.expiresAt ≤ now then none
  else some { db with
    challenges := updateChallenge db.challenges challengeId fun c =>
      { c with state := .consumed, consumedAt := some now, updatedAt := now } }

/-! ### Transactions -/

/-- A committed transaction of any worker; the clock readings are arbitrary. -/
inductive Transaction
  | requestChallenge (key : ChallengeKey) (storageKey requestDigest challengeId : ℕ) (code : String)
      (now : ℤ)
  | verifyChallenge (challengeId : ℕ) (code : String) (storageKey requestDigest : ℕ) (now : ℤ)
  | prepareRegistration (channel : ContactChannel) (identifierDigest challengeId : ℕ)
      (storageKey requestDigest freshId : ℕ) (now : ℤ)
  | finalizeRegistration (registrationId challengeId : ℕ) (storageKey requestDigest : ℕ)
      (oidcSubject freshId : ℕ) (now : ℤ)
  | scheduleReconciliation (registrationId : ℕ)
  | commitContactChange (accountId challengeId : ℕ) (now : ℤ)
  | releaseIdempotency (storageKey : ℕ) (now : ℤ)

structure Sent where
  challengeId : ℕ
  key : ChallengeKey
  code : String
  sentAt : ℤ

/-- A code that was presented to a challenge, and the row at that time. -/
structure Presented where
  row : Challenge
  code : String
  presentedAt : ℤ

/-- The database with what was sent and presented so far. -/
structure World where
  db : Database
  sent : List Sent
  presented : List Presented

def World.initial : World := ⟨Database.empty, [], []⟩

/-- Anonymous requests are for registrations, the others for the account of the session. -/
def ChallengeKey.allowed (key : ChallengeKey) : Bool :=
  decide (key.purpose = .register ↔ key.accountId = none)

/-- One transaction of the system. -/
def step (w : World) : Transaction → Option World
  | .requestChallenge key storageKey requestDigest challengeId code now =>
    if key.allowed then do
      let (result, db) ←
        requestChallenge service w.db key storageKey requestDigest challengeId code now
      let sent := result.code.toList.map fun code => ⟨challengeId, key, code, now⟩
      some { w with db, sent := w.sent ++ sent }
    else none
  | .verifyChallenge challengeId code storageKey requestDigest now => do
    let (looked, _, db) ←
      verifyChallenge service w.db challengeId code storageKey requestDigest now
    let row := w.db.challenges.find? fun c => looked ∧ c.challengeId = challengeId
    let presented := row.toList.map fun row => ⟨row, code, now⟩
    some { w with db, presented := w.presented ++ presented }
  | .prepareRegistration channel identifierDigest challengeId storageKey requestDigest freshId now =>
    do
      let db ← prepareRegistration service w.db channel identifierDigest challengeId storageKey
        requestDigest freshId now
      some { w with db }
  | .finalizeRegistration registrationId challengeId storageKey requestDigest oidcSubject freshId now =>
    do
      let db ← finalizeRegistration w.db registrationId challengeId storageKey requestDigest
        oidcSubject freshId now
      some { w with db }
  | .scheduleReconciliation registrationId => do
    let db ← scheduleReconciliation w.db registrationId
    some { w with db }
  | .commitContactChange accountId challengeId now => do
    let db ← commitContactChange w.db accountId challengeId now
    some { w with db }
  | .releaseIdempotency storageKey now =>
    some { w with db := { w.db with records := releaseIdempotency w.db.records storageKey now } }

end CyberControl.VerificationChallenges
