import CyberControl.Errors
import CyberControl.Versions

/-! # Knowledge bases and their transactions

The tables of one tenant and course behind `domains/knowledge` (`models.py`, `postgres_repository.py`) and
the transactions that `KnowledgeTransactionCoordinator.execute` (`transactions.py`) runs on them: each is
serializable and rolls back when it raises, so it is a function from the tables to an exception or to its
result and the new tables. Every table lists its newest row
first, and a digest of a document stands for the document. -/

namespace CyberControl.Knowledge

open Versions

/-! ### Records -/

inductive IndexBuildState where
  | BUILDING
  | READY
  | FAILED
  | CORRUPTED
  | RETIRED
deriving DecidableEq, Repr

/-- `ArtifactObjectRefV1`: where the bytes of an object are and what they must be. -/
structure ArtifactObjectRef where
  objectKey : String
  byteSize : ℕ
  sha256 : String
deriving DecidableEq

/-- `IndexShardManifestV1` -/
structure IndexShardManifest where
  ordinal : ℕ
  firstVectorOrdinal : ℕ
  vectorCount : ℕ
  faissArtifact : ArtifactObjectRef
  faissSha256 : String
  bm25Artifact : ArtifactObjectRef
  bm25Sha256 : String
deriving DecidableEq

/-- `IndexBuildManifestV1` -/
structure IndexBuildManifest where
  indexBuildManifestId : ℕ
  versionCas : ℕ
  knowledgeBaseVersionId : ℕ
  embeddingProfileId : ℕ
  state : IndexBuildState
  chunkCount : ℕ
  shards : List IndexShardManifest
  graphSnapshotId : ℕ
  graphSnapshotVersion : ℕ
  builtAt : Option ℕ
  failureCode : Option String
deriving DecidableEq

/-- `KnowledgeBaseVersionV1` -/
structure KnowledgeBaseVersion where
  knowledgeBaseVersionId : ℕ
  version : String
  sourceDocumentVersionIds : List ℕ
  graphSnapshotId : ℕ
  graphSnapshotVersion : ℕ
  indexBuildManifestId : ℕ
  embeddingProfileId : ℕ
  activatedAt : ℕ

/-- `KnowledgeBaseActivation` -/
structure KnowledgeBaseActivation where
  activationId : ℕ
  activationVersion : ℕ
  knowledgeBaseVersionId : ℕ
  replacesActivationId : Option ℕ
  activatedAt : ℕ

/-- `QueryPlanV1` without what is searched for. -/
structure QueryPlan where
  queryPlanId : ℕ
  verificationId : ℕ
  claimId : ℕ
  knowledgeBaseVersionId : ℕ
  versionCas : ℕ

/-- `EvidenceRefV1` without its scores and texts. -/
structure EvidenceRef where
  evidenceRefId : ℕ
  verificationId : ℕ
  claimId : ℕ
  knowledgeBaseVersionId : ℕ
  knowledgeChunkId : ℕ
  excerptSha256 : String

/-- `EvidenceBundleV1` without its scores and timings. -/
structure EvidenceBundle where
  evidenceBundleId : ℕ
  verificationId : ℕ
  claimId : ℕ
  queryPlanId : ℕ
  knowledgeBaseVersionId : ℕ
  evidenceRefIds : List ℕ
  versionCas : ℕ

inductive RetrievalStatus where
  | SUCCEEDED
  | DEGRADED
  | FAILED

/-- `RetrievalResponseV1` -/
structure RetrievalResponse where
  retrievalResponseId : ℕ
  retrievalRequestId : ℕ
  verificationId : ℕ
  claimId : ℕ
  status : RetrievalStatus
  evidenceBundle : Option EvidenceBundle
  indexBuildManifestId : ℕ
  elapsedMs : ℕ
  degradedReasonCodes : List String
  completedAt : ℕ
  versionCas : ℕ

/-- `KnowledgeBaseBuildResult` -/
structure KnowledgeBaseBuildResult where
  knowledgeBase : KnowledgeBaseVersion
  embeddingProfile : ℕ
  readyManifest : IndexBuildManifest
  activation : KnowledgeBaseActivation
  chunkCount : ℕ

/-! ### Idempotency records -/

/-- The operation of a transaction with its `request_document`. -/
inductive Request where
  | buildActivate (version : String) (sourceDocumentVersionIds : List ℕ) (graphSnapshotId : ℕ)
      (graphSnapshotSha256 : String) (expectedActivationVersion : Option ℕ)
  | indexRecovery (manifestId : ℕ) (expected : IndexBuildManifest) (readyVersion : ℕ)
  | retrieveClaim (verificationId claimId knowledgeBaseVersionId : ℕ) (claimSha256 : String)
deriving DecidableEq

/-- What a transaction returns; `recovered none` is `{"recovered": False}`. -/
inductive Result where
  | built (result : KnowledgeBaseBuildResult)
  | recovered (readyManifest : Option IndexBuildManifest)
  | retrieved (response : RetrievalResponse)

/-- A row of `idempotency_records`; a transaction completes the row that it inserts, so that every committed
row is `COMPLETED`. -/
structure IdempotencyRecord where
  request : Request
  resultPayload : Result

/-- The tables; `embeddingProfile` is the one of the configured tokenizer and hash seed. -/
structure Store where
  embeddingProfile : Option ℕ
  knowledgeBases : List KnowledgeBaseVersion
  manifests : List IndexBuildManifest
  activations : List KnowledgeBaseActivation
  queryPlans : List QueryPlan
  evidenceRefs : List EvidenceRef
  evidenceBundles : List EvidenceBundle
  retrievalRuns : List RetrievalResponse
  idempotency : String → Option IdempotencyRecord

def Store.empty : Store := ⟨none, [], [], [], [], [], [], [], fun _ => none⟩

/-! ### Errors -/

def conflict (message : String) : Exn :=
  .liyan { code := .TOPIC4_CONFLICT, safeMessage := message, category := .CONTRACT, statusCode := 409 }

def notFound (message : String) : Exn :=
  .liyan { code := .TOPIC4_NOT_FOUND, safeMessage := message, category := .CONTRACT, statusCode := 404 }

def integrity (message : String) : Exn :=
  .liyan { code := .TOPIC4_INTEGRITY_FAILED, safeMessage := message, category := .CONTRACT,
           statusCode := 422 }

/-- `KnowledgeRetrievalService._integrity` -/
def unavailable (message : String) : Exn :=
  .liyan { code := .TOPIC4_INTEGRITY_FAILED, safeMessage := message, category := .DATABASE,
           statusCode := 503 }

def invalidKey : Exn :=
  .liyan { code := .CONTRACT_INVALID, category := .CONTRACT, statusCode := 422,
           safeMessage := "Idempotency-Key must contain 32 to 160 safe characters." }

def keyReused : Exn :=
  .liyan (MessageConflictError .MESSAGE_DUPLICATE_CONFLICT
    "The idempotency key was reused for different request content.")

/-- What `execute` makes of an `IntegrityError` with SQLSTATE 23505. -/
def uniquenessViolated : Exn :=
  conflict "The Topic 4 knowledge mutation violates an immutable uniqueness rule."

/-! ### Reads -/

/-- `latest_activation` -/
def Store.latestActivation (s : Store) : Option KnowledgeBaseActivation :=
  latestVersion (·.activationVersion) s.activations

/-- `latest_manifest` -/
def Store.latestManifest (s : Store) (manifestId : ℕ) : Option IndexBuildManifest :=
  latestVersion (·.versionCas) (s.manifests.filter (·.indexBuildManifestId = manifestId))

/-- `get_knowledge_base_version` -/
def Store.knowledgeBase (s : Store) (identifier : ℕ) : Option KnowledgeBaseVersion :=
  s.knowledgeBases.find? (·.knowledgeBaseVersionId = identifier)

/-- `get_knowledge_base_version_by_label` -/
def Store.knowledgeBaseByLabel (s : Store) (version : String) : Option KnowledgeBaseVersion :=
  s.knowledgeBases.find? (·.version = version)

/-! ### Idempotent transactions -/

/-- `IDEMPOTENCY_KEY_PATTERN` -/
def isIdempotencyKey (key : String) : Bool :=
  32 ≤ key.length && key.length ≤ 160 &&
    key.toList.all fun c => c.isAlphanum || [':', '_', '-', '.'].contains c

/-- `completed_result` -/
def completedResult (s : Store) (key : String) (request : Request) : Except Exn (Option Result) := do
  ensure (isIdempotencyKey key) invalidKey
  match s.idempotency key with
  | none => .ok none
  | some record => if record.request ≠ request then .error keyReused else .ok (some record.resultPayload)

/-- `execute` -/
def execute (s : Store) (key : String) (request : Request)
    (callback : Store → Except Exn (Store × Result)) : Except Exn (Store × Result) := do
  ensure (isIdempotencyKey key) invalidKey
  match s.idempotency key with
  | some record => if record.request ≠ request then .error keyReused else .ok (s, record.resultPayload)
  | none => do
    let (s', result) ← callback s
    .ok ({ s' with idempotency := Function.update s'.idempotency key (some ⟨request, result⟩) }, result)

variable {s s' : Store} {result : Result}

/-- What `execute` returns is the result of an earlier transaction with this key and request, or that of the
callback. -/
theorem execute_ok {key : String} {request : Request}
    {callback : Store → Except Exn (Store × Result)}
    (h : execute s key request callback = .ok (s', result)) :
    (s' = s ∧ s.idempotency key = some ⟨request, result⟩) ∨
      (s.idempotency key = none ∧ ∃ t, callback s = .ok (t, result) ∧
        s' = { t with idempotency := Function.update t.idempotency key (some ⟨request, result⟩) }) := by
  unfold execute at h
  obtain ⟨_, -, h⟩ := bind_eq_ok.mp h
  cases hrecord : s.idempotency key with
  | some record =>
    obtain ⟨stored, payload⟩ := record
    simp only [hrecord] at h
    split_ifs at h with hrequest
    cases h
    rw [not_not.mp hrequest]
    exact Or.inl ⟨rfl, rfl⟩
  | none =>
    simp only [hrecord] at h
    obtain ⟨⟨t, r⟩, hcallback, h⟩ := bind_eq_ok.mp h
    cases h
    exact Or.inr ⟨rfl, t, hcallback, rfl⟩

/-! ### Building -/

/-- `uuid5` for the identifiers of the tenant and course: of the knowledge base with a label, of its index
build manifest, of an activation and of the embedding profile. -/
structure Identifiers where
  knowledgeBaseId : String → ℕ
  manifestId : ℕ → ℕ
  activationId : ℕ → ℕ → ℕ
  embeddingProfileId : ℕ

/-- `Topic1GraphSnapshotV1` -/
structure GraphSnapshot where
  snapshotId : ℕ
  inCourse : Bool
  graphVersion : ℕ
  contentSha256 : String

/-- `SourceVersionBundle` -/
structure SourceBundle where
  sourceDocumentVersionId : ℕ
  inCourse : Bool
  revoked : Bool

/-- What a transaction finds in the tables of Topic 1 and of the sources, which other operations write. -/
structure Catalog where
  latestSnapshot : Option GraphSnapshot
  snapshot : ℕ → Option GraphSnapshot
  bundle : ℕ → Option SourceBundle

/-- `list_source_version_bundles` -/
def Catalog.bundles (catalog : Catalog) (identifiers : List ℕ) : List SourceBundle :=
  identifiers.filterMap catalog.bundle

/-- `KnowledgeBaseBuildCommand` -/
structure BuildCommand where
  version : String
  sourceDocumentVersionIds : List ℕ
  graphSnapshotId : Option ℕ
  expectedActivationVersion : Option ℕ
  sources_nonempty : sourceDocumentVersionIds ≠ []
  sources_length : sourceDocumentVersionIds.length ≤ 65536
  sources_nodup : sourceDocumentVersionIds.Nodup

/-- What `_load_build_inputs` returns and `build_and_activate` uses again. -/
structure BuildInputs where
  graph : GraphSnapshot
  storedProfile : Option ℕ

/-- `_load_build_inputs` -/
def loadBuildInputs (s : Store) (catalog : Catalog) (command : BuildCommand) : Except Exn BuildInputs := do
  let found := match command.graphSnapshotId with
    | none => catalog.latestSnapshot
    | some identifier => catalog.snapshot identifier
  let bundles := catalog.bundles command.sourceDocumentVersionIds
  match found with
  | none => .error (notFound "The requested Topic 1 graph snapshot was not found for the course.")
  | some graph => do
    ensure graph.inCourse (notFound "The requested Topic 1 graph snapshot was not found for the course.")
    ensure (bundles.length = command.sourceDocumentVersionIds.length)
      (notFound "One or more authoritative source versions were not found.")
    ensure (bundles.all (·.inCourse)) (integrity "A source version belongs to a different course.")
    ensure (!bundles.any (·.revoked))
      (integrity "A revoked source version cannot enter an active knowledge base.")
    .ok ⟨graph, s.embeddingProfile⟩

/-- `request_document` of `build_and_activate`. -/
def buildRequest (command : BuildCommand) (inputs : BuildInputs) : Request :=
  .buildActivate command.version command.sourceDocumentVersionIds inputs.graph.snapshotId
    inputs.graph.contentSha256 command.expectedActivationVersion

section build
variable (ids : Identifiers) (command : BuildCommand) (inputs : BuildInputs)

/-- `stored_profile or self._embedding_profile(context, now)` -/
def profileOf : ℕ := inputs.storedProfile.getD ids.embeddingProfileId

/-- The manifest in state `BUILDING`. -/
def buildingManifest : IndexBuildManifest where
  indexBuildManifestId := ids.manifestId (ids.knowledgeBaseId command.version)
  versionCas := 1
  knowledgeBaseVersionId := ids.knowledgeBaseId command.version
  embeddingProfileId := profileOf ids inputs
  state := .BUILDING
  chunkCount := 0
  shards := []
  graphSnapshotId := inputs.graph.snapshotId
  graphSnapshotVersion := inputs.graph.graphVersion
  builtAt := none
  failureCode := none

/-- The manifest in state `READY`. -/
def readyManifest (chunkCount : ℕ) (shards : List IndexShardManifest) (now : ℕ) : IndexBuildManifest where
  indexBuildManifestId := ids.manifestId (ids.knowledgeBaseId command.version)
  versionCas := 2
  knowledgeBaseVersionId := ids.knowledgeBaseId command.version
  embeddingProfileId := profileOf ids inputs
  state := .READY
  chunkCount := chunkCount
  shards := shards
  graphSnapshotId := inputs.graph.snapshotId
  graphSnapshotVersion := inputs.graph.graphVersion
  builtAt := some now
  failureCode := none

def builtKnowledgeBase (now : ℕ) : KnowledgeBaseVersion where
  knowledgeBaseVersionId := ids.knowledgeBaseId command.version
  version := command.version
  sourceDocumentVersionIds := command.sourceDocumentVersionIds
  graphSnapshotId := inputs.graph.snapshotId
  graphSnapshotVersion := inputs.graph.graphVersion
  indexBuildManifestId := ids.manifestId (ids.knowledgeBaseId command.version)
  embeddingProfileId := profileOf ids inputs
  activatedAt := now

/-- `_activation` -/
def nextActivation (knowledgeBaseId : ℕ) (previous : Option KnowledgeBaseActivation) (now : ℕ) :
    KnowledgeBaseActivation :=
  let version := previous.elim 1 (·.activationVersion + 1)
  { activationId := ids.activationId knowledgeBaseId version
    activationVersion := version
    knowledgeBaseVersionId := knowledgeBaseId
    replacesActivationId := previous.map (·.activationId)
    activatedAt := now }

/-- `append_embedding_profile` when the transaction has found none. -/
def appendProfile (persisted : Option ℕ) : Except Exn Unit :=
  match persisted with
  | none => .ok ()
  | some profile => ensure (profile = profileOf ids inputs)
      (integrity "The embedding profile identity changed during the build.")

/-- What the callback of `build_and_activate` returns. -/
def buildResult (chunkCount : ℕ) (shards : List IndexShardManifest) (now : ℕ) (s : Store) :
    KnowledgeBaseBuildResult where
  knowledgeBase := builtKnowledgeBase ids command inputs now
  embeddingProfile := profileOf ids inputs
  readyManifest := readyManifest ids command inputs chunkCount shards now
  activation := nextActivation ids (ids.knowledgeBaseId command.version) s.latestActivation now
  chunkCount := chunkCount

/-- The rows that the callback appends, with the unique constraints of their tables. -/
def appendBuild (result : KnowledgeBaseBuildResult) (s : Store) : Except Exn Store := do
  ensure (∀ k ∈ s.knowledgeBases, k.knowledgeBaseVersionId ≠ result.knowledgeBase.knowledgeBaseVersionId)
    uniquenessViolated
  ensure (∀ m ∈ s.manifests, m.indexBuildManifestId = result.readyManifest.indexBuildManifestId →
      m.versionCas ≠ 1 ∧ m.versionCas ≠ 2) uniquenessViolated
  ensure (∀ a ∈ s.activations, a.activationId ≠ result.activation.activationId ∧
      a.activationVersion ≠ result.activation.activationVersion) uniquenessViolated
  .ok { s with
    embeddingProfile := some result.embeddingProfile
    knowledgeBases := result.knowledgeBase :: s.knowledgeBases
    manifests := result.readyManifest :: buildingManifest ids command inputs :: s.manifests
    activations := result.activation :: s.activations }

/-- The callback of `build_and_activate`. -/
def buildCallback (catalog : Catalog) (chunkCount : ℕ) (shards : List IndexShardManifest) (now : ℕ)
    (s : Store) : Except Exn (Store × Result) := do
  ensure (s.knowledgeBaseByLabel command.version = none)
    (conflict "The immutable knowledge-base version already exists.")
  ensure (∀ expected ∈ command.expectedActivationVersion,
      expected = s.latestActivation.elim 0 (·.activationVersion))
    (conflict "The knowledge-base activation CAS version is stale.")
  ensure ((catalog.snapshot inputs.graph.snapshotId).map (·.contentSha256) = some inputs.graph.contentSha256)
    (integrity "Topic 1 graph snapshot changed during knowledge-base build.")
  ensure ((catalog.bundles command.sourceDocumentVersionIds).length =
      command.sourceDocumentVersionIds.length)
    (integrity "A source version disappeared during knowledge-base build.")
  appendProfile ids inputs s.embeddingProfile
  let result := buildResult ids command inputs chunkCount shards now s
  let s' ← appendBuild ids command inputs result s
  .ok (s', .built result)

variable {ids command inputs}

theorem appendBuild_ok {result : KnowledgeBaseBuildResult}
    (h : appendBuild ids command inputs result s = .ok s') :
    (∀ k ∈ s.knowledgeBases, k.knowledgeBaseVersionId ≠ result.knowledgeBase.knowledgeBaseVersionId) ∧
      (∀ m ∈ s.manifests, m.indexBuildManifestId = result.readyManifest.indexBuildManifestId →
        m.versionCas ≠ 1 ∧ m.versionCas ≠ 2) ∧
      s' = { s with
        embeddingProfile := some result.embeddingProfile
        knowledgeBases := result.knowledgeBase :: s.knowledgeBases
        manifests := result.readyManifest :: buildingManifest ids command inputs :: s.manifests
        activations := result.activation :: s.activations } := by
  unfold appendBuild at h
  simp only [unit_bind_eq_ok] at h
  obtain ⟨hknowledgeBase, hmanifest, -, h⟩ := h
  cases h
  exact ⟨ensure_eq_ok.mp hknowledgeBase, ensure_eq_ok.mp hmanifest, rfl⟩

theorem buildCallback_ok {catalog : Catalog} {chunkCount now : ℕ} {shards : List IndexShardManifest}
    (h : buildCallback ids command inputs catalog chunkCount shards now s = .ok (s', result)) :
    (∀ expected ∈ command.expectedActivationVersion,
        expected = s.latestActivation.elim 0 (·.activationVersion)) ∧
      result = .built (buildResult ids command inputs chunkCount shards now s) ∧
      appendBuild ids command inputs (buildResult ids command inputs chunkCount shards now s) s = .ok s' := by
  unfold buildCallback at h
  simp only [unit_bind_eq_ok] at h
  obtain ⟨-, hexpected, -, -, -, h⟩ := h
  obtain ⟨t, happend, h⟩ := bind_eq_ok.mp h
  cases h
  exact ⟨ensure_eq_ok.mp hexpected, rfl, happend⟩

end build

/-! ### Recovering -/

section recovery
variable (knowledgeBase : KnowledgeBaseVersion) (old : IndexBuildManifest)

/-- The manifest in state `CORRUPTED` of a recovery from `old`. -/
def corruptedManifest : IndexBuildManifest where
  indexBuildManifestId := old.indexBuildManifestId
  versionCas := old.versionCas + 1
  knowledgeBaseVersionId := knowledgeBase.knowledgeBaseVersionId
  embeddingProfileId := knowledgeBase.embeddingProfileId
  state := .CORRUPTED
  chunkCount := old.chunkCount
  shards := old.shards
  graphSnapshotId := knowledgeBase.graphSnapshotId
  graphSnapshotVersion := knowledgeBase.graphSnapshotVersion
  builtAt := old.builtAt
  failureCode := some "INDEX_ARTIFACT_RECOVERED"

/-- The manifest in state `READY` of a recovery from `old`. -/
def recoveredManifest (shards : List IndexShardManifest) (now : ℕ) : IndexBuildManifest where
  indexBuildManifestId := old.indexBuildManifestId
  versionCas := old.versionCas + 2
  knowledgeBaseVersionId := knowledgeBase.knowledgeBaseVersionId
  embeddingProfileId := knowledgeBase.embeddingProfileId
  state := .READY
  chunkCount := old.chunkCount
  shards := shards
  graphSnapshotId := knowledgeBase.graphSnapshotId
  graphSnapshotVersion := knowledgeBase.graphSnapshotVersion
  builtAt := some now
  failureCode := none

/-- `request_document` of `_persist_recovery`. -/
def recoveryRequest : Request := .indexRecovery old.indexBuildManifestId old (old.versionCas + 2)

/-- The callback of `_persist_recovery`. -/
def recoveryCallback (shards : List IndexShardManifest) (now : ℕ) (s : Store) :
    Except Exn (Store × Result) :=
  if s.latestManifest old.indexBuildManifestId ≠ some old then .ok (s, .recovered none)
  else do
    let ready := recoveredManifest knowledgeBase old shards now
    ensure (∀ m ∈ s.manifests, m.indexBuildManifestId = old.indexBuildManifestId →
        m.versionCas ≠ old.versionCas + 1 ∧ m.versionCas ≠ old.versionCas + 2) uniquenessViolated
    .ok ({ s with manifests := ready :: corruptedManifest knowledgeBase old :: s.manifests },
      .recovered (some ready))

variable {knowledgeBase old}

theorem recoveryCallback_ok {shards : List IndexShardManifest} {now : ℕ}
    (h : recoveryCallback knowledgeBase old shards now s = .ok (s', result)) :
    (s.latestManifest old.indexBuildManifestId ≠ some old ∧ s' = s ∧ result = .recovered none) ∨
      (s.latestManifest old.indexBuildManifestId = some old ∧
        s' = { s with
          manifests := recoveredManifest knowledgeBase old shards now ::
            corruptedManifest knowledgeBase old :: s.manifests } ∧
        result = .recovered (some (recoveredManifest knowledgeBase old shards now))) := by
  unfold recoveryCallback at h
  split_ifs at h with hlatest
  · cases h
    exact Or.inl ⟨hlatest, rfl, rfl⟩
  · obtain ⟨-, h⟩ := unit_bind_eq_ok.mp h
    cases h
    exact Or.inr ⟨not_not.mp hlatest, rfl, rfl⟩

end recovery

end CyberControl.Knowledge
