import CyberControl.CandidateContract
import CyberControl.HumanReview

/-! # The policy of the release gate

`ReleasePolicy` (`release/engine.py`): the records of C12, and what an authorization and a publication
request have to satisfy before a repository sees them.  A content-addressed artifact stands for its
document, and a flag says whether the digest of a record is that of its fields. -/

namespace CyberControl.Release

open Topic3 Verification

/-! ### Errors -/

/-- `ReleaseError` with its subclasses, and what the calls of C12 let through. -/
inductive ReleaseError where
  | release (text : String)
  | authorizationConflict (text : String)
  | authorizationExpired (text : String)
  | authorizationReplay (text : String)
  | publicationIntegrity (text : String)
  | tenantIsolation
  | uniqueViolation
  | foreignKeyViolation
  | lifecycle (e : Exn)
deriving DecidableEq

/-- `if not condition: raise error`. -/
def require (condition : Prop) [Decidable condition] (error : ReleaseError) : Except ReleaseError Unit :=
  if condition then .ok () else .error error

theorem require_eq_ok {condition : Prop} [Decidable condition] {error : ReleaseError} :
    require condition error = .ok () ↔ condition :=
  ite_eq_ok

/-! ### Records -/

inductive ReleaseMode where
  | FULL
  | FULL_WITH_DISCLOSURE
deriving DecidableEq, Repr

def ReleaseMode.expectedDecision : ReleaseMode → AggregateDecision
  | .FULL => .RELEASE
  | .FULL_WITH_DISCLOSURE => .RELEASE_WITH_DISCLOSURE

/-- `ReleaseAuthorizationPayloadV1`; it is for one use by its type. -/
structure Authorization where
  authorizationId : ℕ
  tenantId : String
  traceId : String
  verificationId : ℕ
  reportId : ℕ
  candidateId : ℕ
  candidateVersion : ℕ
  candidateSha256 : String
  releaseMode : ReleaseMode
  allowedBlockIds : List String
  disclosureCodes : List String
  reportSha256 : String
  issuedAt : ℕ
  expiresAt : ℕ
  recordIntegrityValid : Bool
deriving DecidableEq

/-- The fields that the contract rejects, and what its validator raises. -/
def Authorization.fieldErrors (a : Authorization) : List String :=
  (if 1 ≤ a.candidateVersion then [] else ["candidate_version"]) ++
    (if 1 ≤ a.allowedBlockIds.length ∧ a.allowedBlockIds.length ≤ 2048 then []
      else ["allowed_block_ids"]) ++
    (if a.disclosureCodes.length ≤ 32 then [] else ["disclosure_codes"]) ++
    (if a.expiresAt ≤ a.issuedAt then ["expires_at must be after issued_at"] else [])

/-- `build_topic4_record(ReleaseAuthorizationPayloadV1, ...)`. -/
def Authorization.build (a : Authorization) : Except ReleaseError Authorization :=
  if a.fieldErrors = [] then .ok a else .error (.lifecycle (.validationError a.fieldErrors))

/-- `VerificationReportV1`, restricted to what the gate reads. -/
structure VerificationReport where
  versionCas : ℕ
  reportId : ℕ
  verificationId : ℕ
  candidateId : ℕ
  candidateVersion : ℕ
  candidateSha256 : String
  aggregationResultId : ℕ
  decision : AggregateDecision
  artifactSha256 : String
  reportSha256 : String
  recordIntegrityValid : Bool
deriving DecidableEq

/-- `expected_document`. -/
structure PublicationDocument where
  authorizationId : ℕ
  verificationId : ℕ
  reportId : ℕ
  candidateId : ℕ
  candidateVersion : ℕ
  candidateSha256 : String
  reportSha256 : String
  allowedBlockIds : List String
deriving DecidableEq

/-- The document that a request of the authorization has to carry. -/
def Authorization.expectedDocument (a : Authorization) : PublicationDocument where
  authorizationId := a.authorizationId
  verificationId := a.verificationId
  reportId := a.reportId
  candidateId := a.candidateId
  candidateVersion := a.candidateVersion
  candidateSha256 := a.candidateSha256
  reportSha256 := a.reportSha256
  allowedBlockIds := a.allowedBlockIds

/-- A request document: that of version one, one with a `publication` and further fields (`none` is a value
that is not a text), or any other. -/
inductive RequestDocument where
  | publication (document : PublicationDocument)
  | extended (publication : PublicationDocument) (fields : List (String × Option String))
  | other (text : String)

structure PublicationRequest where
  authorization : Authorization
  report : VerificationReport
  candidate : Candidate
  requestDocument : RequestDocument
  requestSha256 : String
  subjectRef : String

structure PublicDocument where
  candidateId : ℕ
  candidateVersion : ℕ
  candidateSha256 : String
  resourceType : String
  blocks : List BlockV1

/-! ### Checks -/

/-- `MAX_AUTHORIZATION_TTL_SECONDS`, in microseconds. -/
def maxAuthorizationTtl : ℕ := 300000000

def assertTenant (context : TenantContext) (tenantId : String) : Except ReleaseError Unit :=
  require (context.tenantId = tenantId) .tenantIsolation

def validateAuthorization (authorization : Authorization) (context : TenantContext) (now : ℕ) :
    Except ReleaseError Unit := do
  assertTenant context authorization.tenantId
  require authorization.recordIntegrityValid
    (.publicationIntegrity "C12 authorization record SHA mismatch")
  require (authorization.issuedAt < authorization.expiresAt)
    (.publicationIntegrity "C12 authorization expiry window is invalid")
  require (authorization.expiresAt - authorization.issuedAt ≤ maxAuthorizationTtl)
    (.publicationIntegrity "C12 authorization TTL exceeds the server limit")
  require (now < authorization.expiresAt)
    (.authorizationExpired "C12 authorization is already expired")
  require (authorization.allowedBlockIds ≠ [])
    (.publicationIntegrity "C12 authorization must allow at least one block")
  require (authorization.releaseMode = .FULL_WITH_DISCLOSURE → authorization.disclosureCodes ≠ [])
    (.publicationIntegrity "C12 disclosure release requires disclosure codes")
  require (authorization.releaseMode = .FULL → authorization.disclosureCodes = [])
    (.publicationIntegrity "C12 full release cannot carry disclosure codes")
  require (context.subjectRef ≠ "") (.publicationIntegrity "C12 publishing subject is required")

theorem validateAuthorization_ok {authorization : Authorization} {context : TenantContext} {now : ℕ} :
    validateAuthorization authorization context now = .ok () ↔
      context.tenantId = authorization.tenantId ∧ authorization.recordIntegrityValid = true ∧
      authorization.issuedAt < authorization.expiresAt ∧
      authorization.expiresAt - authorization.issuedAt ≤ maxAuthorizationTtl ∧
      now < authorization.expiresAt ∧ authorization.allowedBlockIds ≠ [] ∧
      (authorization.releaseMode = .FULL_WITH_DISCLOSURE → authorization.disclosureCodes ≠ []) ∧
      (authorization.releaseMode = .FULL → authorization.disclosureCodes = []) ∧
      context.subjectRef ≠ "" := by
  simp only [validateAuthorization, assertTenant, unit_bind_eq_ok, require_eq_ok]

/-- The authorization is bound to the report and the candidate. -/
def Authorization.BoundTo (a : Authorization) (report : VerificationReport) (candidate : Candidate) : Prop :=
  a.verificationId = report.verificationId ∧ a.reportId = report.reportId ∧
    a.candidateId = candidate.candidateId ∧ a.candidateVersion = candidate.candidateVersion ∧
    a.candidateSha256 = candidate.candidateSha256 ∧ a.reportSha256 = report.reportSha256

def VerificationReport.BoundTo (report : VerificationReport) (candidate : Candidate) : Prop :=
  report.candidateId = candidate.candidateId ∧ report.candidateVersion = candidate.candidateVersion ∧
    report.candidateSha256 = candidate.candidateSha256

instance (a : Authorization) (report : VerificationReport) (candidate : Candidate) :
    Decidable (a.BoundTo report candidate) := inferInstanceAs (Decidable (_ ∧ _))

instance (report : VerificationReport) (candidate : Candidate) : Decidable (report.BoundTo candidate) :=
  inferInstanceAs (Decidable (_ ∧ _))

/-- The keys of a `v2` extension. -/
def extensionKeys : List String := ["commit_command_id", "idempotency_key_sha256"]

/-- The checks of `validate_request` on the request document.  Its digest has been checked before, so the
last of them cannot fail. -/
def validateDocument (request : PublicationRequest) : Except ReleaseError Unit :=
  match request.requestDocument with
  | .publication document =>
    require (document = request.authorization.expectedDocument)
      (.publicationIntegrity "C12 request document binding mismatch")
  | .extended publication fields => do
    require (publication = request.authorization.expectedDocument)
      (.publicationIntegrity "C12 request document binding mismatch")
    require ((∀ key ∈ fields.map Prod.fst, key ∈ extensionKeys) ∧
        ∀ key ∈ extensionKeys, key ∈ fields.map Prod.fst)
      (.publicationIntegrity "C12 v2 request extension contains unknown fields")
    require (∀ field ∈ fields, ∃ text ∈ field.2, text ≠ "")
      (.publicationIntegrity "C12 v2 request extension is incomplete")
  | .other _ => .error (.publicationIntegrity "C12 request document binding mismatch")

section policy
variable (catalogue : Catalogue) (canonicalSha256 : RequestDocument → String)

/-- `validate_request`.  `CandidateV1` has checked the digest of the candidate. -/
def validateRequest (request : PublicationRequest) (context : TenantContext) (now : ℕ) :
    Except ReleaseError Unit := do
  let authorization := request.authorization
  let report := request.report
  let candidate := request.candidate
  validateAuthorization authorization context now
  require report.recordIntegrityValid
    (.publicationIntegrity "C12 verification report record SHA mismatch")
  require (request.subjectRef = context.subjectRef)
    (.publicationIntegrity "C12 request subject does not match trusted context")
  require (canonicalSha256 request.requestDocument = request.requestSha256)
    (.publicationIntegrity "C12 request SHA does not match request document")
  require (report.artifactSha256 = report.reportSha256)
    (.publicationIntegrity "C12 report artifact SHA mismatch")
  require (authorization.BoundTo report candidate)
    (.publicationIntegrity "C12 authorization is not bound to report and Candidate")
  require (report.verificationId = authorization.verificationId ∧ report.BoundTo candidate)
    (.publicationIntegrity "C12 report is not bound to Candidate")
  require (authorization.allowedBlockIds.Nodup ∧
      authorization.allowedBlockIds ⊆ catalogue.blockIds candidate)
    (.publicationIntegrity "C12 authorization contains an invalid block set")
  require (authorization.releaseMode = .FULL →
      catalogue.blockIds candidate ⊆ authorization.allowedBlockIds)
    (.publicationIntegrity "FULL C12 release must include every Candidate block")
  require (report.decision = authorization.releaseMode.expectedDecision)
    (.publicationIntegrity "C12 authorization release mode disagrees with report decision")
  validateDocument request

theorem validateRequest_ok {request : PublicationRequest} {context : TenantContext} {now : ℕ} :
    validateRequest catalogue canonicalSha256 request context now = .ok () ↔
      validateAuthorization request.authorization context now = .ok () ∧
      request.report.recordIntegrityValid = true ∧ request.subjectRef = context.subjectRef ∧
      canonicalSha256 request.requestDocument = request.requestSha256 ∧
      request.report.artifactSha256 = request.report.reportSha256 ∧
      request.authorization.BoundTo request.report request.candidate ∧
      (request.report.verificationId = request.authorization.verificationId ∧
        request.report.BoundTo request.candidate) ∧
      (request.authorization.allowedBlockIds.Nodup ∧
        request.authorization.allowedBlockIds ⊆ catalogue.blockIds request.candidate) ∧
      (request.authorization.releaseMode = .FULL →
        catalogue.blockIds request.candidate ⊆ request.authorization.allowedBlockIds) ∧
      request.report.decision = request.authorization.releaseMode.expectedDecision ∧
      validateDocument request = .ok () := by
  simp only [validateRequest, unit_bind_eq_ok, require_eq_ok]

def publicDocument (candidate : Candidate) (allowedBlockIds : List String) : PublicDocument where
  candidateId := candidate.candidateId
  candidateVersion := candidate.candidateVersion
  candidateSha256 := candidate.candidateSha256
  resourceType := candidate.resourceType
  blocks := (catalogue.blocks candidate.candidateSha256).filter fun block =>
    block.blockId ∈ allowedBlockIds

end policy

end CyberControl.Release
