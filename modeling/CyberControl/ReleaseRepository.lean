import CyberControl.ReleasePolicy
import CyberControl.RevisionBudget

/-! # The tables of the release gate

`PostgresAtomicReleaseRepository` (`release/postgres_repository.py`): issuing an authorization, and
consuming it together with the publication, each in one serializable transaction that writes nothing when
it raises. -/

namespace CyberControl.Release

open Topic3 Verification

/-! ### Rows -/

/-- A stored document; its digest is its address. -/
structure Artifact (δ : Type) where
  objectPrefix : String
  verificationId : ℕ
  authorizationId : ℕ
  document : δ

structure EventDocument where
  authorizationId : ℕ
  verificationId : ℕ
  candidateId : ℕ
  candidateVersion : ℕ
  candidateSha256 : String
  reportSha256 : String
  publicArtifact : Artifact PublicDocument

/-- `Topic4ReleaseAuthorizationConsumptionModel`. -/
structure Consumption where
  authorizationId : ℕ
  publicationBatchId : ℕ
  requestSha256 : String
  consumedBySubject : String
  consumedAt : ℕ
deriving DecidableEq

inductive PublicationState where
  | PENDING
  | COMMITTED
  | FAILED
deriving DecidableEq, Repr

/-- `PublicationBatchV1`, one snapshot. -/
structure PublicationBatch where
  publicationBatchId : ℕ
  batchVersion : ℕ
  authorizationId : ℕ
  verificationId : ℕ
  reportId : ℕ
  candidateId : ℕ
  candidateVersion : ℕ
  candidateSha256 : String
  state : PublicationState
  publicArtifacts : List (Artifact PublicDocument)
  outboxEventIds : List ℕ
  publicStreamEventIds : List ℕ
  committedAt : Option ℕ

/-- `PublicStreamEventV1`; it is the first of its stream. -/
structure PublicStreamEvent where
  publicEventId : ℕ
  publicationBatchId : ℕ
  authorizationId : ℕ
  streamId : ℕ
  payloadArtifact : Artifact EventDocument
  emittedAt : ℕ

/-- The outbox message `topic4.publication.committed`; its correlation is the verification. -/
structure PublicationMessage where
  outboxId : ℕ
  correlationId : ℕ
  publicationBatchId : ℕ
  authorizationId : ℕ
  eventArtifact : Artifact EventDocument

structure PublicationResult where
  batch : PublicationBatch
  publicEvent : PublicStreamEvent
  publicArtifact : Artifact PublicDocument

/-- The rows of a tenant. -/
structure System extends Revision.System where
  reviewTasks : List ReviewTask
  reports : List VerificationReport
  authorizations : List Authorization
  consumptions : List Consumption
  batches : List PublicationBatch
  outbox : List PublicationMessage
  events : List PublicStreamEvent

/-- The latest state of a verification. -/
def System.currentState (s : System) (verificationId : ℕ) : Option VerificationState :=
  (s.rows.verifications verificationId).bind fun v => v.states.getLast?.map (·.currentState)

def System.reportsOf (s : System) (verificationId : ℕ) : List VerificationReport :=
  s.reports.filter (·.verificationId = verificationId)

def System.latestReport (s : System) (verificationId : ℕ) : Option VerificationReport :=
  (s.reportsOf verificationId).argmax (·.versionCas)

def System.authorization (s : System) (authorizationId : ℕ) : Option Authorization :=
  s.authorizations.find? (·.authorizationId = authorizationId)

def System.consumption (s : System) (authorizationId : ℕ) : Option Consumption :=
  s.consumptions.find? (·.authorizationId = authorizationId)

/-! ### Issuing -/

/-- A second authorization of the same report violates the unique key of the table. -/
def Authorization.SameReport (a b : Authorization) : Prop :=
  a.candidateId = b.candidateId ∧ a.candidateVersion = b.candidateVersion ∧
    a.candidateSha256 = b.candidateSha256 ∧ a.reportSha256 = b.reportSha256

instance (a b : Authorization) : Decidable (a.SameReport b) := inferInstanceAs (Decidable (_ ∧ _))

/-- `issue_authorization` of the repository. -/
def storeAuthorization (s : System) (context : TenantContext) (authorization : Authorization) :
    Except ReleaseError System := do
  assertTenant context authorization.tenantId
  require authorization.recordIntegrityValid
    (.publicationIntegrity "C12 authorization record SHA mismatch")
  match s.authorization authorization.authorizationId with
  | some existing => do
    require (existing = authorization)
      (.authorizationConflict "C12 authorization identity conflict")
    return s
  | none => do
    require (∀ row ∈ s.authorizations, ¬ row.SameReport authorization) .uniqueViolation
    require ((s.rows.verifications authorization.verificationId).isSome ∧
      authorization.reportId ∈ s.reports.map (·.reportId)) .foreignKeyViolation
    return { s with authorizations := s.authorizations ++ [authorization] }

/-- `issue_authorization` of the service. -/
def issueAuthorization (s : System) (context : TenantContext) (authorization : Authorization)
    (now : ℕ) : Except ReleaseError System := do
  validateAuthorization authorization context now
  storeAuthorization s context authorization

/-! ### Publishing -/

/-- The identifiers and digests: `uuid5` and `canonical_sha256` of what the arguments stand for. -/
structure ReleaseIds where
  aggregationResultId : AggregationResult → ℕ
  reportId : ℕ → ℕ → ℕ
  derivedAuthorizationId : String → ℕ
  batchId : ℕ → String → ℕ
  publicEventId : ℕ → ℕ
  streamId : ℕ → ℕ
  outboxId : ℕ → ℕ
  keySha256 : String → String
  canonicalSha256 : RequestDocument → String

/-- The clock readings of the transaction that publishes. -/
structure PublishClock where
  checkedAt : ℕ
  consumedAt : ℕ
  emittedAt : ℕ
  committedAt : ℕ

section publishing
variable (ids : ReleaseIds) (catalogue : Catalogue)

def putDocument {δ : Type} (request : PublicationRequest) (document : δ) (objectPrefix : String) :
    Artifact δ where
  objectPrefix
  verificationId := request.authorization.verificationId
  authorizationId := request.authorization.authorizationId
  document

def publicArtifact (request : PublicationRequest) : Artifact PublicDocument :=
  putDocument request
    (publicDocument catalogue request.candidate request.authorization.allowedBlockIds) "c12/public"

def eventArtifact (request : PublicationRequest) (publicArtifact : Artifact PublicDocument) :
    Artifact EventDocument :=
  putDocument request
    { authorizationId := request.authorization.authorizationId
      verificationId := request.authorization.verificationId
      candidateId := request.candidate.candidateId
      candidateVersion := request.candidate.candidateVersion
      candidateSha256 := request.candidate.candidateSha256
      reportSha256 := request.report.reportSha256
      publicArtifact } "c12/events"

/-- The batch of a request before it is committed. -/
def pendingBatch (request : PublicationRequest) : PublicationBatch where
  publicationBatchId := ids.batchId request.authorization.authorizationId request.requestSha256
  batchVersion := 1
  authorizationId := request.authorization.authorizationId
  verificationId := request.authorization.verificationId
  reportId := request.authorization.reportId
  candidateId := request.candidate.candidateId
  candidateVersion := request.candidate.candidateVersion
  candidateSha256 := request.candidate.candidateSha256
  state := .PENDING
  publicArtifacts := []
  outboxEventIds := []
  publicStreamEventIds := []
  committedAt := none

/-- What the first publication with an authorization writes and returns. -/
structure Publication where
  consumption : Consumption
  pending : PublicationBatch
  committed : PublicationBatch
  message : PublicationMessage
  event : PublicStreamEvent
  artifact : Artifact PublicDocument

/-- The rows of the first publication of a request. -/
def publication (context : TenantContext) (request : PublicationRequest) (clock : PublishClock) :
    Publication :=
  let batchId := ids.batchId request.authorization.authorizationId request.requestSha256
  let publicArtifact := publicArtifact catalogue request
  let eventArtifact := eventArtifact request publicArtifact
  { consumption := {
      authorizationId := request.authorization.authorizationId
      publicationBatchId := batchId
      requestSha256 := request.requestSha256
      consumedBySubject := context.subjectRef
      consumedAt := clock.consumedAt }
    pending := pendingBatch ids request
    committed := { pendingBatch ids request with
      batchVersion := 2
      state := .COMMITTED
      publicArtifacts := [publicArtifact]
      outboxEventIds := [ids.outboxId batchId]
      publicStreamEventIds := [ids.publicEventId batchId]
      committedAt := some clock.committedAt }
    message := {
      outboxId := ids.outboxId batchId
      correlationId := request.authorization.verificationId
      publicationBatchId := batchId
      authorizationId := request.authorization.authorizationId
      eventArtifact }
    event := {
      publicEventId := ids.publicEventId batchId
      publicationBatchId := batchId
      authorizationId := request.authorization.authorizationId
      streamId := ids.streamId batchId
      payloadArtifact := eventArtifact
      emittedAt := clock.emittedAt }
    artifact := publicArtifact }

def Publication.result (p : Publication) : PublicationResult := ⟨p.committed, p.event, p.artifact⟩

/-- The rows with a publication. -/
def System.publish (s : System) (p : Publication) : System :=
  { s with
    consumptions := s.consumptions ++ [p.consumption]
    batches := s.batches ++ [p.pending, p.committed]
    outbox := s.outbox ++ [p.message]
    events := s.events ++ [p.event] }

/-- The first consumption of an authorization. -/
def consume (s : System) (context : TenantContext) (request : PublicationRequest)
    (clock : PublishClock) : Except ReleaseError (System × PublicationResult) :=
  let authorization := request.authorization
  match requireVerification s.rows authorization.verificationId with
  | .error _ => .error (.publicationIntegrity "C12 publication requires RELEASE_PENDING state")
  | .ok (v, current) => do
    require (current.currentState = .RELEASE_PENDING)
      (.publicationIntegrity "C12 publication requires RELEASE_PENDING state")
    match s.latestReport authorization.verificationId,
        s.rows.candidates (authorization.candidateId, authorization.candidateVersion) with
    | some report, some candidate => do
      require (report = request.report ∧ candidate = request.candidate)
        (.publicationIntegrity "C12 request does not match the persisted report and Candidate")
      let p := publication ids catalogue context request clock
      require (∀ batch ∈ s.batches, batch.publicationBatchId ≠ p.pending.publicationBatchId)
        .uniqueViolation
      match stateSequence current [(.RELEASED, "PUBLICATION_COMMITTED")] with
      | .error e => .error (.lifecycle e)
      | .ok changes =>
        return ({ s.publish p with rows := s.rows.put { v with states := v.states ++ changes } },
          p.result)
    | _, _ => .error (.publicationIntegrity "C12 authoritative report or Candidate is missing")

def replay (s : System) (batchId : ℕ) : Except ReleaseError PublicationResult :=
  match (s.batches.filter fun batch => batch.publicationBatchId = batchId ∧ batch.state = .COMMITTED).argmax
      (·.batchVersion) with
  | none => .error (.publicationIntegrity "C12 replay batch is missing")
  | some batch =>
    match batch.publicArtifacts, s.events.find? (·.publicationBatchId = batchId) with
    | [], _ => .error (.publicationIntegrity "C12 replay batch integrity is invalid")
    | _, none => .error (.publicationIntegrity "C12 replay public event is missing")
    | artifact :: _, some event => .ok ⟨batch, event, artifact⟩

/-- `consume_and_publish`, of the artifacts of the request. -/
def consumeAndPublish (s : System) (context : TenantContext) (request : PublicationRequest)
    (clock : PublishClock) : Except ReleaseError (System × PublicationResult) := do
  let authorization := request.authorization
  assertTenant context authorization.tenantId
  match s.authorization authorization.authorizationId with
  | none => .error (.authorizationConflict "C12 authorization has not been issued")
  | some row => do
    require (row = authorization)
      (.publicationIntegrity "C12 authorization row does not match the trusted payload")
    require authorization.recordIntegrityValid
      (.publicationIntegrity "C12 authorization record SHA mismatch")
    require request.report.recordIntegrityValid
      (.publicationIntegrity "C12 verification report record SHA mismatch")
    match s.consumption authorization.authorizationId with
    | some consumed => do
      require (consumed.requestSha256 = request.requestSha256)
        (.authorizationReplay "C12 authorization replay request differs")
      require (s.currentState authorization.verificationId = some .RELEASED)
        (.publicationIntegrity "C12 replay is missing the RELEASED state")
      let result ← replay s consumed.publicationBatchId
      return (s, result)
    | none => do
      require (clock.checkedAt < row.expiresAt)
        (.authorizationExpired "C12 authorization expired before consumption")
      consume ids catalogue s context request clock

/-- `publish` of the service, with the clock reading of the policy. -/
def publish (s : System) (context : TenantContext) (request : PublicationRequest) (now : ℕ)
    (clock : PublishClock) : Except ReleaseError (System × PublicationResult) := do
  validateRequest catalogue ids.canonicalSha256 request context now
  consumeAndPublish ids catalogue s context request clock

end publishing

end CyberControl.Release
