import CyberControl.ReleaseRepository

/-! # The runtime of the release gate

`Topic4Runtime` (`verification/runtime.py`): the operations of the control plane with the reports and
review tasks they write, the derivation of an authorization from what is persisted, and its publication. -/

namespace CyberControl.Release

open Topic3 Verification

/-! ### The control plane -/

/-- A control plane that extracts claims of the candidate, for the verification. -/
structure BoundControlPlane extends ControlPlane where
  extract_bound : ∀ candidate verificationId claims, extract candidate verificationId = .ok claims →
    ∀ claim ∈ claims, claim.verificationId = verificationId ∧
      claim.candidateId = candidate.candidateId ∧
      claim.candidateVersion = candidate.candidateVersion ∧
      claim.candidateSha256 = candidate.candidateSha256

/-- An operation of the control plane.  `reviewTaskId` is the identifier of the task that the operation
opens if it does, and `report` is the digest of the report document. -/
inductive LifecycleAction where
  | accept (request : VerificationRequest) (now : ℕ)
  | prepare (verificationId expectedStateVersion now reviewTaskId : ℕ)
  | startModules (verificationId expectedStateVersion now : ℕ)
  | executeModules (verificationId expectedStateVersion : ℕ) (handlers : Handlers)
  | finalize (verificationId expectedStateVersion now reviewTaskId : ℕ) (report : Except Exn String)
  | review (context : TenantContext) (decision : HumanReviewDecision)
      (expectedTaskVersion expectedStateVersion now : ℕ)

/-- The verification that an action approves after a human review. -/
def LifecycleAction.approves : LifecycleAction → Option ℕ
  | .review _ decision _ _ _ =>
    if decision.decision.approves then some decision.verificationId else none
  | _ => none

section controlPlane
variable (ids : ReleaseIds)

/-- The report of a finalization; `claim` is the first claim of the verification. -/
def verificationReport (f : Finalization) (claim : Claim) (reportSha256 : String) :
    VerificationReport where
  versionCas := f.aggregation.versionCas.toNat
  reportId := ids.reportId f.aggregation.verificationId (ids.aggregationResultId f.aggregation)
  verificationId := f.aggregation.verificationId
  candidateId := claim.candidateId
  candidateVersion := claim.candidateVersion
  candidateSha256 := claim.candidateSha256
  aggregationResultId := ids.aggregationResultId f.aggregation
  decision := f.aggregation.decision
  artifactSha256 := reportSha256
  reportSha256
  recordIntegrityValid := true

/-- The report of the decision that a verification has just got. -/
def newReport (v : VerificationRecord) (reportSha256 : String) : Option VerificationReport := do
  let f ← v.finalizations.getLast?
  let claim ← v.claims.head?
  return verificationReport ids f claim reportSha256

/-- The task of the critical risks of a verification. -/
def riskReviewTasks (v : VerificationRecord) (reviewTaskId now : ℕ) : List ReviewTask :=
  if v.risks.any (·.level = .CRITICAL) then [riskReviewTask v reviewTaskId now] else []

/-- The task of a decision that requires a review. -/
def resultReviewTasks (v : VerificationRecord) (reviewTaskId now : ℕ) : Except Exn (List ReviewTask) :=
  if ∃ f ∈ v.finalizations.getLast?, f.aggregation.decision = .REVIEW_REQUIRED then do
    let task ← resultReviewTask v reviewTaskId now
    return [task]
  else return []

/-- One operation of the control plane. -/
def performLifecycle (c1 : ControlPlane) (s : System) : LifecycleAction → Except Exn System
  | .accept request now => do
    let rows ← acceptVerification s.rows request now
    return { s with rows }
  | .prepare id expected now reviewTaskId => do
    let rows ← prepareControlPlane c1 s.rows id expected now
    let (v, _) ← requireVerification rows id
    return { s with rows, reviewTasks := s.reviewTasks ++ riskReviewTasks v reviewTaskId now }
  | .startModules id expected now => do
    let rows ← transitionState s.rows id expected .VERIFYING "MODULE_EXECUTION_STARTED" now
    return { s with rows }
  | .executeModules id expected handlers => do
    let rows ← executeModules s.rows id expected handlers
    return { s with rows }
  | .finalize id expected now reviewTaskId report => do
    let rows ← finalizeControlPlane c1 s.rows id expected now (report.map fun _ => ())
    let (v, _) ← requireVerification rows id
    let reportSha256 ← report
    let tasks ← resultReviewTasks v reviewTaskId now
    return { s with
      rows
      reports := s.reports ++ (newReport ids v reportSha256).toList
      reviewTasks := s.reviewTasks ++ tasks }
  | .review context decision expectedTask expectedState now => do
    let (rows, reviewTasks) ←
      submitHumanReview s.rows s.reviewTasks context decision expectedTask expectedState now
    return { s with rows, reviewTasks }

/-- A call that raises writes nothing and is no step. -/
def stepLifecycle (c1 : ControlPlane) (s : System) (action : LifecycleAction) : Option System :=
  (performLifecycle ids c1 s action).toOption

end controlPlane

/-! ### Release authority -/

/-- What is persisted about a verification: its latest report, the candidate of the report, the latest
aggregation and the latest state. -/
structure ReleaseAuthority where
  report : VerificationReport
  candidate : Candidate
  aggregation : AggregationResult
  state : StateChange

/-- `latest_aggregation`; a version is at least one. -/
def latestAggregation (v : VerificationRecord) : Option AggregationResult :=
  (v.finalizations.map (·.aggregation)).argmax (·.versionCas.toNat)

def releaseAuthority (s : System) (verificationId : ℕ) : Except ReleaseError ReleaseAuthority :=
  match s.latestReport verificationId, s.rows.verifications verificationId with
  | some report, some v =>
    match latestAggregation v, v.states.getLast? with
    | some aggregation, some state =>
      match s.rows.candidates (report.candidateId, report.candidateVersion) with
      | none => .error (.release "C12 persisted Candidate is missing")
      | some candidate => .ok ⟨report, candidate, aggregation, state⟩
    | _, _ => .error (.release "C12 persisted report, aggregation, or state is missing")
  | _, _ => .error (.release "C12 persisted report, aggregation, or state is missing")

/-- The codes that an authorization has to disclose. -/
def expectedDisclosures (mode : ReleaseMode) (aggregation : AggregationResult) : List String :=
  if mode = .FULL_WITH_DISCLOSURE then aggregation.disclosureCodes else []

section authority
variable (ids : ReleaseIds) (catalogue : Catalogue)

/-- The authorization is bound to what is persisted; the records of the tables are intact. -/
structure Persisted (authorization : Authorization) (authority : ReleaseAuthority) : Prop where
  authorization_bound : authorization.BoundTo authority.report authority.candidate
  report_artifact : authority.report.artifactSha256 = authority.report.reportSha256
  report_aggregation :
    authority.report.aggregationResultId = ids.aggregationResultId authority.aggregation
  aggregation_verification : authority.aggregation.verificationId = authority.report.verificationId
  aggregation_candidateId : authority.aggregation.candidateId = authority.candidate.candidateId
  aggregation_version : authority.aggregation.candidateVersion = authority.candidate.candidateVersion
  aggregation_sha256 : authority.aggregation.candidateSha256 = authority.candidate.candidateSha256

theorem persisted_iff {authorization : Authorization} {authority : ReleaseAuthority} :
    Persisted ids authorization authority ↔
      authorization.BoundTo authority.report authority.candidate ∧
      authority.report.artifactSha256 = authority.report.reportSha256 ∧
      authority.report.aggregationResultId = ids.aggregationResultId authority.aggregation ∧
      authority.aggregation.verificationId = authority.report.verificationId ∧
      authority.aggregation.candidateId = authority.candidate.candidateId ∧
      authority.aggregation.candidateVersion = authority.candidate.candidateVersion ∧
      authority.aggregation.candidateSha256 = authority.candidate.candidateSha256 :=
  ⟨fun h => ⟨h.1, h.2, h.3, h.4, h.5, h.6, h.7⟩,
    fun ⟨h₁, h₂, h₃, h₄, h₅, h₆, h₇⟩ => ⟨h₁, h₂, h₃, h₄, h₅, h₆, h₇⟩⟩

instance (authorization : Authorization) (authority : ReleaseAuthority) :
    Decidable (Persisted ids authorization authority) := decidable_of_iff' _ (persisted_iff ids)

/-- `_validate_persisted_release_authority`; `report`, `candidate` and `state` are those that the caller
has read, or `none`. -/
def validatePersistedReleaseAuthority (s : System) (context : TenantContext)
    (authorization : Authorization) (report : Option VerificationReport) (candidate : Option Candidate)
    (state : Option StateChange) (requirePending : Bool) : Except ReleaseError Unit := do
  let authority ← releaseAuthority s authorization.verificationId
  let state := state.getD authority.state
  require (authorization.tenantId = context.tenantId ∧ authorization.recordIntegrityValid ∧
      (report.getD authority.report).recordIntegrityValid ∧
      report.getD authority.report = authority.report ∧
      candidate.getD authority.candidate = authority.candidate ∧
      (requirePending → state.currentState = .RELEASE_PENDING) ∧
      Persisted ids authorization authority)
    (.release "C12 request does not match persisted release authority")
  let expected := authorization.releaseMode.expectedDecision
  require (authority.report.decision = expected ∧ authority.aggregation.decision = expected)
    (.release "C12 release mode disagrees with persisted decision")
  require (authorization.allowedBlockIds ≠ [] ∧
      authorization.allowedBlockIds ⊆ catalogue.blockIds authority.candidate)
    (.release "C12 authorization contains a non-persisted block")
  require (authorization.releaseMode = .FULL →
      catalogue.blockIds authority.candidate ⊆ authorization.allowedBlockIds)
    (.release "C12 FULL authorization does not cover the persisted Candidate")
  require (authorization.disclosureCodes
      = expectedDisclosures authorization.releaseMode authority.aggregation)
    (.release "C12 authorization disclosure binding does not match aggregation")

/-! ### Derivation -/

/-- `ReleaseDerivationCommandV2` with the checks of its contract. -/
structure ReleaseDerivationCommand where
  tenantId : String
  traceId : String
  verificationId : ℕ
  requestedReleaseMode : ReleaseMode
  requestedBlockIds : List String
  ttlSeconds : ℕ
  idempotencyKeySha256 : String
  recordIntegrityValid : Bool
  requestedBlockIds_length : requestedBlockIds.length ≤ 2048 := by decide
  requestedBlockIds_nodup : requestedBlockIds.Nodup := by decide
  ttlSeconds_bounds : 1 ≤ ttlSeconds ∧ ttlSeconds ≤ 300 := by decide

/-- `timedelta(seconds=1)` in microseconds. -/
def oneSecond : ℕ := 1000000

def ReleaseDerivationCommand.ttl (command : ReleaseDerivationCommand) : ℕ := command.ttlSeconds * oneSecond

/-- A command belongs to the trusted context and to the key of the call. -/
def validateCommand (context : TenantContext) (command : ReleaseDerivationCommand)
    (idempotencyKey : String) : Except ReleaseError Unit :=
  require (command.tenantId = context.tenantId ∧ command.traceId = context.traceId ∧
      command.idempotencyKeySha256 = ids.keySha256 idempotencyKey ∧ command.recordIntegrityValid)
    (.release "C12 v2 derivation command does not match trusted context")

/-- `_requested_release_blocks` of a candidate. -/
def requestedReleaseBlocks (candidate : Candidate) (requestedBlockIds : List String) :
    Except ReleaseError (List String) :=
  let allBlocks := catalogue.blockIds candidate
  if requestedBlockIds = [] then .ok allBlocks
  else do
    require (requestedBlockIds ⊆ allBlocks)
      (.release "C12 requested block set exceeds persisted Candidate blocks")
    return allBlocks.filter (· ∈ requestedBlockIds)

/-- What a derivation returns when the identifier of its key has an authorization. -/
def existingAuthorization (s : System) (command : ReleaseDerivationCommand)
    (existing : Authorization) : Except ReleaseError Authorization := do
  require (existing.verificationId = command.verificationId)
    (.release "C12 v2 Idempotency-Key was reused for a different verification")
  let authority ← releaseAuthority s command.verificationId
  let expectedBlocks ← requestedReleaseBlocks catalogue authority.candidate command.requestedBlockIds
  require (existing.releaseMode = command.requestedReleaseMode ∧
      existing.allowedBlockIds = expectedBlocks ∧
      (existing.expiresAt - existing.issuedAt) / oneSecond = command.ttlSeconds)
    (.release "C12 v2 Idempotency-Key was reused with different release content")
  return existing

/-- The record of a derivation with the blocks that it allows. -/
def derivedAuthorization (authority : ReleaseAuthority) (context : TenantContext)
    (command : ReleaseDerivationCommand) (idempotencyKey : String) (now : ℕ)
    (allowedBlockIds : List String) : Authorization where
  authorizationId := ids.derivedAuthorizationId idempotencyKey
  tenantId := context.tenantId
  traceId := context.traceId
  verificationId := command.verificationId
  reportId := authority.report.reportId
  candidateId := authority.candidate.candidateId
  candidateVersion := authority.candidate.candidateVersion
  candidateSha256 := authority.candidate.candidateSha256
  releaseMode := command.requestedReleaseMode
  allowedBlockIds
  disclosureCodes := expectedDisclosures command.requestedReleaseMode authority.aggregation
  reportSha256 := authority.report.reportSha256
  issuedAt := now
  expiresAt := now + command.ttl
  recordIntegrityValid := true

/-- The authorization that a derivation builds from what is persisted. -/
def deriveAuthorization (authority : ReleaseAuthority) (context : TenantContext)
    (command : ReleaseDerivationCommand) (idempotencyKey : String) (now : ℕ) :
    Except ReleaseError Authorization := do
  require (authority.state.currentState = .RELEASE_PENDING)
    (.release "C12 authorization derivation requires RELEASE_PENDING state")
  let expected := command.requestedReleaseMode.expectedDecision
  require (authority.report.decision = expected ∧ authority.aggregation.decision = expected)
    (.release "C12 requested release mode disagrees with persisted decisions")
  let allowedBlocks ← requestedReleaseBlocks catalogue authority.candidate command.requestedBlockIds
  Authorization.build
    (derivedAuthorization ids authority context command idempotencyKey now allowedBlocks)

/-- `derive_release_authorization` in one state, with the clock readings of the authorization and of the
policy.  The identifier of its key has no authorization then, so the conflict that the source catches does
not arise. -/
def deriveReleaseAuthorization (s : System) (context : TenantContext)
    (command : ReleaseDerivationCommand) (idempotencyKey : String) (now checkedAt : ℕ) :
    Except ReleaseError (System × Authorization) := do
  validateCommand ids context command idempotencyKey
  match s.authorization (ids.derivedAuthorizationId idempotencyKey) with
  | some existing => do
    let authorization ← existingAuthorization catalogue s command existing
    return (s, authorization)
  | none => do
    let authority ← releaseAuthority s command.verificationId
    let authorization ← deriveAuthorization ids catalogue authority context command idempotencyKey now
    validatePersistedReleaseAuthority ids catalogue s context authorization (some authority.report)
      (some authority.candidate) (some authority.state) false
    let issued ← issueAuthorization s context authorization checkedAt
    return (issued, authorization)

/-! ### Publication -/

/-- `PublicationCommitCommandV2`. -/
structure PublicationCommitCommand where
  tenantId : String
  traceId : String
  commitCommandId : String
  authorizationId : ℕ
  idempotencyKeySha256 : String
  recordIntegrityValid : Bool
  commitCommandId_ne : commitCommandId ≠ "" := by decide
  idempotencyKeySha256_ne : idempotencyKeySha256 ≠ "" := by decide

/-- The request of `commit_release_v2`. -/
def commitRequest (context : TenantContext) (command : PublicationCommitCommand)
    (authorization : Authorization) (report : VerificationReport) (candidate : Candidate) :
    PublicationRequest :=
  let document := RequestDocument.extended authorization.expectedDocument
    [("commit_command_id", some command.commitCommandId),
      ("idempotency_key_sha256", some command.idempotencyKeySha256)]
  { authorization
    report
    candidate
    requestDocument := document
    requestSha256 := ids.canonicalSha256 document
    subjectRef := context.subjectRef }

/-- The request of a `PublicationCommand`. -/
def publicationRequest (context : TenantContext) (authorization : Authorization)
    (report : VerificationReport) (candidate : Candidate) : PublicationRequest where
  authorization
  report
  candidate
  requestDocument := .publication authorization.expectedDocument
  requestSha256 := ids.canonicalSha256 (.publication authorization.expectedDocument)
  subjectRef := context.subjectRef

end authority

end CyberControl.Release
