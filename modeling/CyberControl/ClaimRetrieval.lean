import CyberControl.KnowledgeActivationOrder

/-! # Retrieval of evidence for a claim

`KnowledgeRetrievalService.retrieve_claim` (`retrieval_service.py`) beside the builds and loads of its
process, with the identities that `ClaimQueryPlanner` and `EvidenceAssembler` derive and the unique
constraints of the tables of query plans, evidence and retrieval runs.  What the search of the index finds
and how long it takes is part of the action.

`log` is a history variable: the calls that have committed, with their results. -/

namespace CyberControl.Knowledge.Retrieval

open Transition Versions
open Knowledge.Activation (Loaded readActiveMetadata)

/-! ### Records -/

/-- `uuid5` for the identifiers of a retrieval: of the query plan of a claim and a knowledge base, of the
request of a claim under a key, of the response to a request, of a piece of evidence and of the bundle of a
query plan. -/
structure RetrievalIdentifiers where
  queryPlanId : ℕ → ℕ → ℕ
  requestId : ℕ → String → ℕ
  responseId : ℕ → ℕ
  evidenceRefId : ℕ → ℕ → ℕ → String → ℕ
  evidenceBundleId : ℕ → ℕ

/-- `ClaimV1` without its statement. -/
structure Claim where
  inTenant : Bool
  verificationId : ℕ
  claimId : ℕ
  claimSha256 : String
deriving DecidableEq

/-- How `_execute_search` ends: with chunks and digests of their excerpts, or with an exception. -/
inductive SearchOutcome where
  | found (evidence : List (ℕ × String)) (degradedReasonCodes : List String)
  | failed (timedOut : Bool)

/-- A search with its duration and its end. -/
structure Search where
  outcome : SearchOutcome
  elapsedMs : ℕ
  completedAt : ℕ

def tenantMismatch : Exn :=
  .liyan { code := .TENANT_MISMATCH, category := .TENANT, statusCode := 403,
           safeMessage := "The retrieval claim does not belong to the trusted tenant context." }

def deadlineExpired : Exn :=
  .liyan { code := .TOPIC4_DEADLINE_EXPIRED, safeMessage := "The retrieval deadline has expired.",
           category := .TIMEOUT, statusCode := 408 }

section records
variable (ids : RetrievalIdentifiers) (claim : Claim) (key : String) (loaded : Loaded)

/-- `ClaimQueryPlanner.build` -/
def queryPlan : QueryPlan where
  queryPlanId := ids.queryPlanId claim.claimId loaded.knowledgeBase.knowledgeBaseVersionId
  verificationId := claim.verificationId
  claimId := claim.claimId
  knowledgeBaseVersionId := loaded.knowledgeBase.knowledgeBaseVersionId
  versionCas := 1

/-- The evidence of `EvidenceAssembler.build`. -/
def evidenceRefs (evidence : List (ℕ × String)) : List EvidenceRef :=
  evidence.map fun found =>
    { evidenceRefId := ids.evidenceRefId claim.claimId loaded.knowledgeBase.knowledgeBaseVersionId
        found.1 found.2
      verificationId := claim.verificationId
      claimId := claim.claimId
      knowledgeBaseVersionId := loaded.knowledgeBase.knowledgeBaseVersionId
      knowledgeChunkId := found.1
      excerptSha256 := found.2 }

/-- The bundle of `EvidenceAssembler.build`. -/
def evidenceBundle (evidence : List (ℕ × String)) : EvidenceBundle where
  evidenceBundleId := ids.evidenceBundleId (queryPlan ids claim loaded).queryPlanId
  verificationId := claim.verificationId
  claimId := claim.claimId
  queryPlanId := (queryPlan ids claim loaded).queryPlanId
  knowledgeBaseVersionId := loaded.knowledgeBase.knowledgeBaseVersionId
  evidenceRefIds := (evidenceRefs ids claim loaded evidence).map (·.evidenceRefId)
  versionCas := 1

/-- `_execute_search` -/
def executeSearch (search : Search) : RetrievalResponse × List EvidenceRef × Option EvidenceBundle :=
  let response (status : RetrievalStatus) (bundle : Option EvidenceBundle) (codes : List String) :
      RetrievalResponse :=
    { retrievalResponseId := ids.responseId (ids.requestId claim.claimId key)
      retrievalRequestId := ids.requestId claim.claimId key
      verificationId := claim.verificationId
      claimId := claim.claimId
      status := status
      evidenceBundle := bundle
      indexBuildManifestId := loaded.manifest.indexBuildManifestId
      elapsedMs := search.elapsedMs
      degradedReasonCodes := codes.eraseDups
      completedAt := search.completedAt
      versionCas := 1 }
  match search.outcome with
  | .found evidence codes =>
    let bundle := evidenceBundle ids claim loaded evidence
    (response (if codes.isEmpty then .SUCCEEDED else .DEGRADED) (some bundle) codes,
      evidenceRefs ids claim loaded evidence, some bundle)
  | .failed timedOut =>
    (response .FAILED none [if timedOut then "RETRIEVAL_TIMEOUT" else "RETRIEVAL_FAILED"], [], none)

/-! ### The transaction -/

/-- `request_document` of `retrieve_claim`. -/
def retrieveRequest : Request :=
  .retrieveClaim claim.verificationId claim.claimId loaded.knowledgeBase.knowledgeBaseVersionId
    claim.claimSha256

/-- `get_retrieval_response` -/
def retrievalResponse (s : Store) (requestId : ℕ) : Option RetrievalResponse :=
  latestVersion (·.versionCas) (s.retrievalRuns.filter (·.retrievalRequestId = requestId))

/-- `append_retrieval_result` with the unique constraints of its tables. -/
def appendRetrievalResult (plan : QueryPlan) (response : RetrievalResponse) (refs : List EvidenceRef)
    (bundle : Option EvidenceBundle) (s : Store) : Except Exn Store := do
  ensure (∀ p ∈ s.queryPlans, p.queryPlanId ≠ plan.queryPlanId ∧
      ¬ (p.verificationId = plan.verificationId ∧ p.claimId = plan.claimId ∧
        p.versionCas = plan.versionCas)) uniquenessViolated
  ensure ((refs ++ s.evidenceRefs).Pairwise fun a b => a.evidenceRefId ≠ b.evidenceRefId ∧
      ¬ (a.claimId = b.claimId ∧ a.knowledgeChunkId = b.knowledgeChunkId ∧
        a.excerptSha256 = b.excerptSha256)) uniquenessViolated
  ensure (∀ b ∈ bundle, ∀ old ∈ s.evidenceBundles, old.evidenceBundleId ≠ b.evidenceBundleId ∧
      ¬ (old.verificationId = b.verificationId ∧ old.claimId = b.claimId ∧ old.versionCas = b.versionCas))
    uniquenessViolated
  ensure (∀ r ∈ s.retrievalRuns, ¬ (r.retrievalRequestId = response.retrievalRequestId ∧
      r.versionCas = response.versionCas)) uniquenessViolated
  .ok { s with
    queryPlans := plan :: s.queryPlans
    evidenceRefs := refs ++ s.evidenceRefs
    evidenceBundles := bundle.toList ++ s.evidenceBundles
    retrievalRuns := response :: s.retrievalRuns }

/-- The callback of `retrieve_claim`. -/
def retrievalCallback (search : Search) (s : Store) : Except Exn (Store × Result) := do
  ensure (s.latestActivation.map (·.knowledgeBaseVersionId) =
      some loaded.knowledgeBase.knowledgeBaseVersionId)
    (conflict "The active knowledge base changed during retrieval.")
  match retrievalResponse s (ids.requestId claim.claimId key) with
  | some existing => .ok (s, .retrieved existing)
  | none => do
    let (response, refs, bundle) := executeSearch ids claim key loaded search
    let s' ← appendRetrievalResult (queryPlan ids claim loaded) response refs bundle s
    .ok (s', .retrieved response)

end records

/-! ### States and steps -/

/-- Where a call of `retrieve_claim` stands: in `load_active`, in `_execute_search`, before `execute`, or how it
has ended. -/
inductive Phase where
  | loading (claim : Claim) (key : String)
  | searching (claim : Claim) (key : String) (loaded : Loaded)
  | searched (claim : Claim) (key : String) (loaded : Loaded) (search : Search)
  | returned (response : RetrievalResponse)
  | raised (e : Exn)

/-- A call that has committed under a new key. -/
structure Retrieved where
  claim : Claim
  key : String
  knowledgeBaseVersionId : ℕ
  response : RetrievalResponse

/-- The process with its tables, and the calls of `retrieve_claim`. -/
structure State where
  process : Activation.State
  calls : List Phase
  log : List Retrieved

def initial : State := ⟨Activation.initial, [], []⟩

abbrev State.store (s : State) : Store := s.process.store

def State.setPhase (s : State) (c : ℕ) (phase : Phase) : State :=
  { s with calls := s.calls.set c phase }

inductive Action where
  | process (a : Activation.Action)
  | retrieve (claim : Claim) (key : String) (deadlineAt : Option ℕ) (now : ℕ)
  | load (c : ℕ)
  | search (c : ℕ) (search : Search)
  | commit (c : ℕ)
  | fail (c : ℕ) (e : Exn)

section step
variable (ids : Identifiers) (recoveryKey : ℕ → ℕ → String) (rids : RetrievalIdentifiers) (s : State) (c : ℕ)

/-- The first phase of `retrieve_claim`. -/
def start (claim : Claim) (key : String) (deadlineAt : Option ℕ) (now : ℕ) : Phase :=
  if claim.inTenant = false then .raised tenantMismatch
  else if deadlineAt.any (· ≤ now) then .raised deadlineExpired
  else .loading claim key

/-- `load_active`: what the cache holds and what it reads from the tables is of the latest activation. -/
def stepLoad : Option State :=
  match s.calls[c]? with
  | some (.loading claim key) =>
    match readActiveMetadata s.store with
    | .error e => some (s.setPhase c (.raised e))
    | .ok loaded => some (s.setPhase c (.searching claim key loaded))
  | _ => none

def stepSearch (search : Search) : Option State :=
  match s.calls[c]? with
  | some (.searching claim key loaded) => some (s.setPhase c (.searched claim key loaded search))
  | _ => none

/-- The transaction of `retrieve_claim`, after which it returns. -/
def stepCommit : Option State :=
  match s.calls[c]? with
  | some (.searched claim key loaded search) =>
    match execute s.store key (retrieveRequest claim loaded)
        (retrievalCallback rids claim key loaded search) with
    | .ok (store, .retrieved response) =>
      some { s.setPhase c (.returned response) with
        process := { s.process with store := store }
        log := if (s.store.idempotency key).isNone
          then ⟨claim, key, loaded.knowledgeBase.knowledgeBaseVersionId, response⟩ :: s.log
          else s.log }
    | .ok _ => some (s.setPhase c (.raised (.validationError [])))
    | .error e => some (s.setPhase c (.raised e))
  | _ => none

/-- An await of the call raises, or the call is cancelled. -/
def stepFail (e : Exn) : Option State :=
  match s.calls[c]? with
  | none | some (.returned _) | some (.raised _) => none
  | some _ => some (s.setPhase c (.raised e))

def step : Action → Option State
  | .process a => (Activation.step ids recoveryKey s.process a).map fun process => { s with process := process }
  | .retrieve claim key deadlineAt now => some { s with calls := s.calls ++ [start claim key deadlineAt now] }
  | .load c => stepLoad s c
  | .search c search => stepSearch s c search
  | .commit c => stepCommit rids s c
  | .fail c e => stepFail s c e

end step

end CyberControl.Knowledge.Retrieval
