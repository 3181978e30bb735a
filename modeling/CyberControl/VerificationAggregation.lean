import CyberControl.Collections
import CyberControl.ComplianceRecords
import CyberControl.Errors
import Mathlib.Data.Prod.Lex
import Mathlib.Data.String.Basic

/-! # Aggregation of module results

`VerificationResultAggregator` (`verification/aggregation.py`) over the records of
`contracts/topic4_c1.py`: for each claim the latest result of every mandatory module, the verdict that
takes precedence among them, and for the candidate the decision that takes precedence among the
verdicts.

The confidences, which nothing reads back, and the identifiers and digests of the records are left out. -/

namespace CyberControl.Verification

open Collections

/-! ### Records -/

inductive VerificationVerdict where
  | SUPPORTED
  | PARTIALLY_SUPPORTED
  | CONTRADICTED
  | INSUFFICIENT_EVIDENCE
  | UNSAFE
  | NOT_APPLICABLE
  | ERROR
deriving DecidableEq, Repr

inductive RiskLevel where
  | LOW
  | MEDIUM
  | HIGH
  | CRITICAL
deriving DecidableEq, Repr

inductive AggregateDecision where
  | RELEASE
  | RELEASE_WITH_DISCLOSURE
  | REVISE
  | REVIEW_REQUIRED
  | BLOCK
deriving DecidableEq, Repr

inductive VerificationModule where
  | C2_RAG
  | C3_ACADEMIC
  | C4_GRAPH
  | C5_QUIZ
  | C6_CODE
  | C7_EXTENSION
  | C9_SECURITY
  | C10_PRIVACY
  | C11_COMPLIANCE
deriving DecidableEq, Repr

inductive ClaimKind where
  | TEXT
  | FORMULA
  | GRAPH
  | QUIZ
  | CODE
  | EXTENSION
deriving DecidableEq, Repr

/-- `ClaimV1`. -/
structure Claim where
  claimId : ℕ
  verificationId : ℕ
  candidateId : ℕ
  candidateVersion : ℕ
  candidateSha256 : String
  blockId : String
  claimKind : ClaimKind

/-- `ClaimRiskV1` with the checks of the contract on its modules. -/
structure ClaimRisk where
  claimId : ℕ
  level : RiskLevel
  mandatoryModules : List VerificationModule
  mandatoryModules_ne_nil : mandatoryModules ≠ [] := by decide
  mandatoryModules_nodup : mandatoryModules.Nodup := by decide

/-- `ModuleRunResultV1` with the checks of the contract. -/
structure ModuleRunResult where
  moduleResultId : ℕ
  verificationId : ℕ
  claimId : ℕ
  module : VerificationModule
  verdict : VerificationVerdict
  versionCas : ℕ
  createdAt : ℕ
  evidenceRefIds : List ℕ := []
  findingCodes : List String := []
  versionCas_pos : 1 ≤ versionCas := by decide
  evidenceRefIds_length : evidenceRefIds.length ≤ 512 := by decide
  findingCodes_length : findingCodes.length ≤ 128 := by decide
  supported_evidence : verdict = .SUPPORTED → evidenceRefIds ≠ [] := by decide

/-- A policy whose version passes `__post_init__` and the contract of the aggregation. -/
structure AggregationPolicy where
  policyVersion : String
  partialReleaseMaxRisk : RiskLevel := .MEDIUM
  policyVersion_valid : Compliance.isVersionString policyVersion = true := by decide +kernel

/-- `ClaimVerdictV1`. -/
structure ClaimVerdict where
  verificationId : ℕ
  claimId : ℕ
  verdict : VerificationVerdict
  moduleResultIds : List ℕ
  evidenceRefIds : List ℕ
  reasonCodes : List String
  disclosureCodes : List String
  nonWaivable : Bool
deriving DecidableEq

/-- The fields that the contract `ClaimVerdictV1` rejects. -/
def ClaimVerdict.fieldErrors (v : ClaimVerdict) : List String :=
  (if 1 ≤ v.moduleResultIds.length ∧ v.moduleResultIds.length ≤ 32 then [] else ["module_result_ids"]) ++
    (if v.evidenceRefIds.length ≤ 1024 then [] else ["evidence_ref_ids"]) ++
    (if v.reasonCodes.length ≤ 128 then [] else ["reason_codes"]) ++
    (if v.disclosureCodes.length ≤ 32 then [] else ["disclosure_codes"])

/-- `build_topic4_record(ClaimVerdictV1, ...)`. -/
def ClaimVerdict.build (v : ClaimVerdict) : Except Exn ClaimVerdict :=
  if v.fieldErrors = [] then .ok v else .error (.validationError v.fieldErrors)

/-- `AggregationResultV1`. -/
structure AggregationResult where
  versionCas : ℤ
  verificationId : ℕ
  candidateId : ℕ
  candidateVersion : ℕ
  candidateSha256 : String
  decision : AggregateDecision
  claimVerdictCount : ℕ
  supportedCount : ℕ
  contradictedCount : ℕ
  insufficientCount : ℕ
  unsafeCount : ℕ
  revisionBlockIds : List String
  disclosureCodes : List String
  policyVersion : String
deriving DecidableEq

/-- The fields that the contract `AggregationResultV1` rejects, and what its validator raises. -/
def AggregationResult.fieldErrors (a : AggregationResult) : List String :=
  (if 1 ≤ a.claimVerdictCount ∧ a.claimVerdictCount ≤ 4096 then [] else ["claim_verdict_ids"]) ++
    (if a.revisionBlockIds.length ≤ 2048 then [] else ["revision_block_ids"]) ++
    (if a.disclosureCodes.length ≤ 32 then [] else ["disclosure_codes"]) ++
    (if a.decision = .REVISE ∧ a.revisionBlockIds = [] then
      ["revision decision requires revision_block_ids"] else []) ++
    (if a.decision = .RELEASE_WITH_DISCLOSURE ∧ a.disclosureCodes = [] then
      ["disclosure release requires disclosure_codes"] else []) ++
    (if a.decision = .RELEASE ∧ a.unsafeCount ≠ 0 then ["unsafe claims cannot be released"] else [])

/-- `build_topic4_record(AggregationResultV1, ...)`. -/
def AggregationResult.build (a : AggregationResult) : Except Exn AggregationResult :=
  if a.fieldErrors = [] then .ok a else .error (.validationError a.fieldErrors)

/-- `AggregationError(text)`, a `ValueError`. -/
def aggregationError (text : String) : Exn := .valueError text

/-! ### The verdict on a claim -/

def nonWaivableModules : List VerificationModule := [.C9_SECURITY, .C10_PRIVACY, .C11_COMPLIANCE]

/-- `result_order`: identifiers compare like their hexadecimal texts. -/
def resultOrder (result : ModuleRunResult) : ℕ ×ₗ ℕ ×ₗ ℕ :=
  toLex (result.versionCas, toLex (result.createdAt, result.moduleResultId))

def latestByModule (results : List ModuleRunResult) : VerificationModule → Option ModuleRunResult :=
  latestBy (·.module) resultOrder results

def resolveVerdict (verdicts : List VerificationVerdict) (missing : Bool) : VerificationVerdict :=
  if .UNSAFE ∈ verdicts then .UNSAFE
  else if .ERROR ∈ verdicts ∨ missing = true then .ERROR
  else if .CONTRADICTED ∈ verdicts then .CONTRADICTED
  else if .INSUFFICIENT_EVIDENCE ∈ verdicts then .INSUFFICIENT_EVIDENCE
  else if .PARTIALLY_SUPPORTED ∈ verdicts then .PARTIALLY_SUPPORTED
  else if verdicts ≠ [] ∧ ∀ v ∈ verdicts, v = .NOT_APPLICABLE then .NOT_APPLICABLE
  else if ∀ v ∈ verdicts, v = .SUPPORTED ∨ v = .NOT_APPLICABLE then .SUPPORTED
  else .ERROR

/-- The modules of the risk without a result. -/
def missingModules (risk : ClaimRisk) (results : List ModuleRunResult) : List VerificationModule :=
  risk.mandatoryModules.filter fun module => (latestByModule results module).isNone

/-- The latest results of the mandatory modules. -/
def selectedResults (risk : ClaimRisk) (results : List ModuleRunResult) : List ModuleRunResult :=
  risk.mandatoryModules.filterMap (latestByModule results)

/-- `reasons`. -/
def reasonCodes (risk : ClaimRisk) (results : List ModuleRunResult) : List String :=
  let missing := missingModules risk results
  let selected := selectedResults risk results
  let verdicts := selected.map (·.verdict)
  sortedSet (selected.flatMap (·.findingCodes)) ++
    (if missing ≠ [] then ["MODULE_RESULT_MISSING"] else []) ++
    (if results.length > selected.length then ["MODULE_RESULT_SUPERSEDED"] else []) ++
    (if .SUPPORTED ∈ verdicts ∧ (.CONTRADICTED ∈ verdicts ∨ .UNSAFE ∈ verdicts) then
      ["EVIDENCE_CONFLICT"] else [])

/-- The record that `_claim_verdict` builds. -/
def draftVerdict (claim : Claim) (risk : ClaimRisk) (results : List ModuleRunResult) : ClaimVerdict :=
  let selected := selectedResults risk results
  let verdict := resolveVerdict (selected.map (·.verdict)) (decide (missingModules risk results ≠ []))
  { verificationId := claim.verificationId
    claimId := claim.claimId
    verdict := verdict
    moduleResultIds := selected.map (·.moduleResultId)
    evidenceRefIds := sortedSet (selected.flatMap (·.evidenceRefIds))
    reasonCodes := sortedSet (reasonCodes risk results)
    disclosureCodes :=
      (if verdict = .PARTIALLY_SUPPORTED then ["PARTIAL_SUPPORT_DISCLOSURE"] else []) ++
        (if verdict = .INSUFFICIENT_EVIDENCE then ["INSUFFICIENT_EVIDENCE_DISCLOSURE"] else [])
    nonWaivable := decide (verdict = .UNSAFE) ||
      selected.any fun result => decide (result.module ∈ nonWaivableModules ∧
        (result.verdict = .UNSAFE ∨ result.verdict = .CONTRADICTED)) }

def claimVerdict (claim : Claim) (risk : ClaimRisk) (results : List ModuleRunResult) :
    Except Exn ClaimVerdict :=
  if (selectedResults risk results).isEmpty then
    .error (aggregationError
      ("claim " ++ toString claim.claimId ++ " has no completed module result to aggregate"))
  else (draftVerdict claim risk results).build

/-! ### The decision on the candidate -/

/-- A dictionary `{item.claim_id: item}`: the last entry of a key stands. -/
def riskByClaim (risks : List ClaimRisk) (claimId : ℕ) : Option ClaimRisk :=
  risks.reverse.find? (·.claimId = claimId)

/-- The level that `risk_by_claim[claim_id]` gives. -/
def levelOf (risks : List ClaimRisk) (claimId : ℕ) : Option RiskLevel :=
  (riskByClaim risks claimId).map (·.level)

/-- The block of the claim that `claim_by_id[claim_id]` gives. -/
def blockOf (claims : List Claim) (claimId : ℕ) : Option String :=
  (claims.reverse.find? (·.claimId = claimId)).map (·.blockId)

def VerificationVerdict.supports (v : VerificationVerdict) : Prop := v = .SUPPORTED ∨ v = .NOT_APPLICABLE

instance (v : VerificationVerdict) : Decidable v.supports := inferInstanceAs (Decidable (_ ∨ _))

/-- `supported_count`, `contradicted_count`, `insufficient_count`, `unsafe_count`. -/
def supportedCount (verdicts : List ClaimVerdict) : ℕ := verdicts.countP (·.verdict.supports)

def contradictedCount (verdicts : List ClaimVerdict) : ℕ := verdicts.countP (·.verdict = .CONTRADICTED)

def insufficientCount (verdicts : List ClaimVerdict) : ℕ :=
  verdicts.countP fun v => v.verdict = .INSUFFICIENT_EVIDENCE ∨ v.verdict = .ERROR

def unsafeCount (verdicts : List ClaimVerdict) : ℕ := verdicts.countP (·.verdict = .UNSAFE)

/-- `partial`. -/
def partialVerdicts (verdicts : List ClaimVerdict) : List ClaimVerdict :=
  verdicts.filter (·.verdict = .PARTIALLY_SUPPORTED)

/-- `AggregateDecision.REVISE if revision_round < 2 else AggregateDecision.REVIEW_REQUIRED`. -/
def reviseOrReview (revisionRound : ℤ) : AggregateDecision :=
  if revisionRound < 2 then .REVISE else .REVIEW_REQUIRED

def decision (policy : AggregationPolicy) (risks : List ClaimRisk) (verdicts : List ClaimVerdict)
    (revisionRound : ℤ) : AggregateDecision :=
  let nonWaivable := verdicts.any (·.nonWaivable)
  let criticalUnresolved := verdicts.any fun v =>
    decide (levelOf risks v.claimId = some .CRITICAL ∧ ¬ v.verdict.supports)
  if unsafeCount verdicts ≠ 0 ∨ nonWaivable = true then .BLOCK
  else if criticalUnresolved = true then .REVIEW_REQUIRED
  else if contradictedCount verdicts ≠ 0 ∨ insufficientCount verdicts ≠ 0 then reviseOrReview revisionRound
  else if partialVerdicts verdicts ≠ [] then
    if ∀ v ∈ partialVerdicts verdicts, levelOf risks v.claimId = some .LOW ∨
        levelOf risks v.claimId = some policy.partialReleaseMaxRisk then .RELEASE_WITH_DISCLOSURE
    else reviseOrReview revisionRound
  else .RELEASE

def revisionVerdicts (verdicts : List ClaimVerdict) : List ClaimVerdict :=
  verdicts.filter fun v => v.verdict ∈
    [.PARTIALLY_SUPPORTED, .CONTRADICTED, .INSUFFICIENT_EVIDENCE, .ERROR]

/-- The record that `_candidate_decision` builds. -/
def draftAggregation (policy : AggregationPolicy) (claims : List Claim) (candidate : Claim)
    (risks : List ClaimRisk) (verdicts : List ClaimVerdict) (revisionRound : ℤ) : AggregationResult :=
  let decision := decision policy risks verdicts revisionRound
  let disclosureCodes := sortedSet (verdicts.flatMap (·.disclosureCodes))
  { versionCas := revisionRound + 1
    verificationId := candidate.verificationId
    candidateId := candidate.candidateId
    candidateVersion := candidate.candidateVersion
    candidateSha256 := candidate.candidateSha256
    decision := decision
    claimVerdictCount := verdicts.length
    supportedCount := supportedCount verdicts
    contradictedCount := contradictedCount verdicts
    insufficientCount := insufficientCount verdicts
    unsafeCount := unsafeCount verdicts
    revisionBlockIds := sortedSet ((revisionVerdicts verdicts).filterMap fun v => blockOf claims v.claimId)
    disclosureCodes :=
      if decision = .RELEASE_WITH_DISCLOSURE ∧ disclosureCodes = [] then ["PARTIAL_SUPPORT_DISCLOSURE"]
      else disclosureCodes
    policyVersion := policy.policyVersion }

def candidateDecision (policy : AggregationPolicy) (claims : List Claim) (candidate : Claim)
    (risks : List ClaimRisk) (verdicts : List ClaimVerdict) (revisionRound : ℤ) :
    Except Exn AggregationResult :=
  (draftAggregation policy claims candidate risks verdicts revisionRound).build

/-- The check of one result against the claims. -/
def checkResult (risks : List ClaimRisk) (candidate : Claim) (result : ModuleRunResult) :
    Except Exn Unit :=
  if result.claimId ∉ risks.map (·.claimId) then
    .error (aggregationError "module result references an unknown claim")
  else if result.verificationId ≠ candidate.verificationId then
    .error (aggregationError "module result belongs to a different verification")
  else .ok ()

/-- The results of a claim, in the order of the list. -/
def resultsOf (results : List ModuleRunResult) (claimId : ℕ) : List ModuleRunResult :=
  results.filter (·.claimId = claimId)

/-- The verdict on a claim with the risk that `risk_by_claim` has for it. -/
def verdictOf (risks : List ClaimRisk) (results : List ModuleRunResult) (claim : Claim) :
    Except Exn ClaimVerdict :=
  match riskByClaim risks claim.claimId with
  | none => .error (.other "KeyError")
  | some risk => claimVerdict claim risk (resultsOf results claim.claimId)

def aggregate (policy : AggregationPolicy) (claims : List Claim) (risks : List ClaimRisk)
    (results : List ModuleRunResult) (revisionRound : ℤ) :
    Except Exn (List ClaimVerdict × AggregationResult) :=
  match claims with
  | [] => .error (aggregationError "aggregation requires at least one claim")
  | candidate :: _ =>
    if revisionRound < 0 ∨ revisionRound > 2 then
      .error (aggregationError "revision_round must be between zero and two")
    else if ¬ ((∀ risk ∈ risks, risk.claimId ∈ claims.map (·.claimId)) ∧
        ∀ claim ∈ claims, claim.claimId ∈ risks.map (·.claimId)) then
      .error (aggregationError "every claim must have exactly one risk assessment")
    else do
      results.forM (checkResult risks candidate)
      let verdicts ← claims.mapM (verdictOf risks results)
      let aggregation ← candidateDecision policy claims candidate risks verdicts revisionRound
      return (verdicts, aggregation)

/-! ### Verdicts -/

variable {verdicts : List VerificationVerdict}

theorem resolveVerdict_unsafe_iff {missing : Bool} :
    resolveVerdict verdicts missing = .UNSAFE ↔ .UNSAFE ∈ verdicts := by
  unfold resolveVerdict
  split_ifs <;> simp_all

theorem resolveVerdict_missing :
    resolveVerdict verdicts true = if .UNSAFE ∈ verdicts then .UNSAFE else .ERROR := by
  unfold resolveVerdict
  simp

theorem supports_of_resolveVerdict {missing : Bool}
    (h : (resolveVerdict verdicts missing).supports) :
    missing = false ∧ ∀ v ∈ verdicts, v.supports := by
  unfold resolveVerdict at h
  split_ifs at h with hdanger herror hcontradicted hinsufficient hpartial hna hsupported
  all_goals first
    | (rcases h with h | h <;> cases h; done)
    | skip
  · exact ⟨by simpa using (not_or.mp herror).2, fun v hv => .inr (hna.2 v hv)⟩
  · exact ⟨by simpa using (not_or.mp herror).2, hsupported⟩

theorem ClaimVerdict.build_ok {v v' : ClaimVerdict} (h : v.build = .ok v') : v' = v := by
  unfold ClaimVerdict.build at h
  split_ifs at h
  exact (Except.ok.inj h).symm

theorem AggregationResult.build_ok {a a' : AggregationResult} (h : a.build = .ok a') : a' = a := by
  unfold AggregationResult.build at h
  split_ifs at h
  exact (Except.ok.inj h).symm

variable {results : List ModuleRunResult} {risk : ClaimRisk} {claim : Claim} {v : ClaimVerdict}

theorem claimVerdict_ok (h : claimVerdict claim risk results = .ok v) :
    v = draftVerdict claim risk results := by
  unfold claimVerdict at h
  split_ifs at h
  exact ClaimVerdict.build_ok h

theorem nonWaivable_of_selected {result : ModuleRunResult} (hresult : result ∈ selectedResults risk results)
    (hmodule : result.module ∈ nonWaivableModules) (hverdict : result.verdict = .CONTRADICTED) :
    (draftVerdict claim risk results).nonWaivable = true := by
  refine (Bool.or_eq_true _ _).mpr (.inr (List.any_eq_true.mpr ⟨result, hresult, ?_⟩))
  exact decide_eq_true ⟨hmodule, .inr hverdict⟩

theorem mem_selectedResults {result : ModuleRunResult} :
    result ∈ selectedResults risk results ↔
      ∃ module ∈ risk.mandatoryModules, latestByModule results module = some result := by
  simp [selectedResults]

theorem latest_supports (h : claimVerdict claim risk results = .ok v) (hv : v.verdict.supports)
    {module : VerificationModule} (hmodule : module ∈ risk.mandatoryModules) :
    ∃ result, IsLatest (·.module) resultOrder results module result ∧ result.verdict.supports := by
  rw [claimVerdict_ok h] at hv
  obtain ⟨hmissing, hall⟩ := supports_of_resolveVerdict hv
  rw [decide_eq_false_iff_not, not_not] at hmissing
  cases hlatest : latestByModule results module with
  | none =>
    have hmem : module ∈ missingModules risk results :=
      List.mem_filter.mpr ⟨hmodule, by rw [hlatest]; rfl⟩
    rw [hmissing] at hmem
    cases hmem
  | some result =>
    refine ⟨result, isLatest_of_latestBy hlatest, ?_⟩
    apply hall
    exact List.mem_map_of_mem (mem_selectedResults.mpr ⟨module, hmodule, hlatest⟩)

/-! ### Decisions -/

variable {risks : List ClaimRisk} {verdicts : List ClaimVerdict} {policy : AggregationPolicy}
  {revisionRound : ℤ}

theorem decision_eq_block (hv : v ∈ verdicts)
    (h : v.verdict = .UNSAFE ∨ v.nonWaivable = true) :
    decision policy risks verdicts revisionRound = .BLOCK := by
  unfold decision
  rw [if_pos]
  rcases h with h | h
  · left
    have hpos : 0 < unsafeCount verdicts := List.countP_pos_iff.mpr ⟨v, hv, by simpa using h⟩
    omega
  · exact .inr (List.any_eq_true.mpr ⟨v, hv, h⟩)

theorem reviseOrReview_ne_release (revisionRound : ℤ) : reviseOrReview revisionRound ≠ .RELEASE := by
  unfold reviseOrReview
  split_ifs <;> simp

theorem supports_of_release (h : decision policy risks verdicts revisionRound = .RELEASE) :
    ∀ v ∈ verdicts, v.verdict.supports := by
  unfold decision at h
  dsimp only at h
  split_ifs at h with hblock hcritical hrevise hpartial hdisclose
  · exact absurd h (reviseOrReview_ne_release revisionRound)
  · exact absurd h (reviseOrReview_ne_release revisionRound)
  · intro v hv
    have hcount : ∀ p : ClaimVerdict → Bool, verdicts.countP p = 0 → ¬ p v = true :=
      fun p hp => List.countP_eq_zero.mp hp v hv
    have hdanger := hcount (·.verdict = .UNSAFE) (not_not.mp (not_or.mp hblock).1)
    have hcontradicted := hcount (·.verdict = .CONTRADICTED) (not_not.mp (not_or.mp hrevise).1)
    have hinsufficient := hcount (fun v => v.verdict = .INSUFFICIENT_EVIDENCE ∨ v.verdict = .ERROR)
      (not_not.mp (not_or.mp hrevise).2)
    have hnone : v ∉ partialVerdicts verdicts := by
      rw [not_not.mp hpartial]
      exact List.not_mem_nil
    have hpart : v.verdict ≠ .PARTIALLY_SUPPORTED :=
      fun hp => hnone (List.mem_filter.mpr ⟨hv, by simpa using hp⟩)
    simp only [decide_eq_true_eq, not_or] at hdanger hcontradicted hinsufficient
    unfold VerificationVerdict.supports
    cases hverdict : v.verdict with
    | SUPPORTED => exact .inl rfl
    | NOT_APPLICABLE => exact .inr rfl
    | PARTIALLY_SUPPORTED => exact absurd hverdict hpart
    | CONTRADICTED => exact absurd hverdict hcontradicted
    | INSUFFICIENT_EVIDENCE => exact absurd hverdict hinsufficient.1
    | UNSAFE => exact absurd hverdict hdanger
    | ERROR => exact absurd hverdict hinsufficient.2

/-! ### The aggregation -/

variable {claims : List Claim} {aggregation : AggregationResult}

theorem candidateDecision_ok {candidate : Claim}
    (h : candidateDecision policy claims candidate risks verdicts revisionRound = .ok aggregation) :
    aggregation.decision = decision policy risks verdicts revisionRound := by
  rw [AggregationResult.build_ok h]
  rfl

theorem AggregationResult.build_disclosures {a a' : AggregationResult} (h : a.build = .ok a') :
    a.disclosureCodes.length ≤ 32 ∧ (a.decision = .RELEASE_WITH_DISCLOSURE → a.disclosureCodes ≠ []) := by
  unfold AggregationResult.build at h
  split_ifs at h with herrors
  unfold AggregationResult.fieldErrors at herrors
  simp only [List.append_eq_nil_iff] at herrors
  obtain ⟨⟨⟨⟨⟨-, -⟩, hcodes⟩, -⟩, hdisclose⟩, -⟩ := herrors
  refine ⟨?_, fun hdecision hnil => ?_⟩
  · by_contra hlong
    rw [if_neg hlong] at hcodes
    cases hcodes
  · rw [if_pos ⟨hdecision, hnil⟩] at hdisclose
    cases hdisclose

theorem aggregate_ok :
    aggregate policy claims risks results revisionRound = .ok (verdicts, aggregation) ↔
      (0 ≤ revisionRound ∧ revisionRound ≤ 2) ∧
      ((∀ risk ∈ risks, risk.claimId ∈ claims.map (·.claimId)) ∧
        ∀ claim ∈ claims, claim.claimId ∈ risks.map (·.claimId)) ∧
      ∃ candidate, claims.head? = some candidate ∧
        (∀ result ∈ results, checkResult risks candidate result = .ok ()) ∧
        List.Forall₂ (fun claim v => verdictOf risks results claim = .ok v) claims verdicts ∧
        candidateDecision policy claims candidate risks verdicts revisionRound = .ok aggregation := by
  cases claims with
  | nil => simp [aggregate]
  | cons candidate rest =>
    rw [aggregate]
    split_ifs with hround hrisks
    · simp only [false_iff]
      intro h
      have := h.1
      omega
    · rw [bind_eq_ok]
      constructor
      · rintro ⟨_, hforM, h⟩
        obtain ⟨vs, hvs, h⟩ := bind_eq_ok.mp h
        obtain ⟨a, ha, h⟩ := bind_eq_ok.mp h
        cases h
        exact ⟨by omega, hrisks, candidate, rfl, forM_eq_ok.mp hforM, mapM_eq_ok.mp hvs, ha⟩
      · rintro ⟨_, _, _, hhead, hforM, hvs, ha⟩
        cases hhead
        exact ⟨(), forM_eq_ok.mpr hforM, bind_eq_ok.mpr ⟨_, mapM_eq_ok.mpr hvs,
          bind_eq_ok.mpr ⟨_, ha, rfl⟩⟩⟩
    · simp only [false_iff]
      intro h
      exact hrisks h.2.1

theorem aggregate_bound
    (h : aggregate policy claims risks results revisionRound = .ok (verdicts, aggregation)) :
    ∃ claim, claims.head? = some claim ∧ aggregation.verificationId = claim.verificationId ∧
      aggregation.candidateId = claim.candidateId ∧
      aggregation.candidateVersion = claim.candidateVersion ∧
      aggregation.candidateSha256 = claim.candidateSha256 ∧
      aggregation.disclosureCodes.length ≤ 32 ∧
      (aggregation.decision = .RELEASE_WITH_DISCLOSURE → aggregation.disclosureCodes ≠ []) := by
  obtain ⟨-, -, claim, hclaim, -, -, hbuild⟩ := aggregate_ok.mp h
  obtain ⟨hcodes, hdisclose⟩ := AggregationResult.build_disclosures hbuild
  have heq := AggregationResult.build_ok hbuild
  subst heq
  exact ⟨claim, hclaim, rfl, rfl, rfl, rfl, hcodes, hdisclose⟩

/-! ### Soundness -/

theorem riskByClaim_eq (hrisks : (risks.map (·.claimId)).Nodup)
    (h : risk ∈ risks) : riskByClaim risks risk.claimId = some risk := by
  unfold riskByClaim
  cases hfind : risks.reverse.find? (·.claimId = risk.claimId) with
  | none =>
    have := List.find?_eq_none.mp hfind risk (List.mem_reverse.mpr h)
    simp at this
  | some found =>
    have hmem := List.mem_reverse.mp (List.mem_of_find?_eq_some hfind)
    have hid : found.claimId = risk.claimId := by simpa using List.find?_some hfind
    rw [List.inj_on_of_nodup_map hrisks hmem h hid]

theorem resultOrder_inj (hids : ∀ r ∈ results, ∀ s ∈ results, r.moduleResultId = s.moduleResultId → r = s) :
    ∀ r ∈ results, ∀ s ∈ results, resultOrder r = resultOrder s → r = s := by
  intro r hr s hs h
  apply hids r hr s hs
  have hpair := Prod.mk.inj (toLex.injective h)
  exact (Prod.mk.inj (toLex.injective hpair.2)).2

theorem claimVerdict_perm {results results' : List ModuleRunResult}
    (hperm : results.Perm results')
    (hids : ∀ r ∈ results, ∀ s ∈ results, r.moduleResultId = s.moduleResultId → r = s) :
    claimVerdict claim risk results = claimVerdict claim risk results' := by
  have hlatest : latestByModule results = latestByModule results' :=
    latestBy_perm hperm (resultOrder_inj hids)
  have hselected : selectedResults risk results = selectedResults risk results' := by
    rw [selectedResults, selectedResults, hlatest]
  have hmissing : missingModules risk results = missingModules risk results' := by
    rw [missingModules, missingModules, hlatest]
  have hreasons : reasonCodes risk results = reasonCodes risk results' := by
    simp only [reasonCodes, hselected, hmissing, hperm.length_eq]
  simp only [claimVerdict, draftVerdict, hselected, hmissing, hreasons]

theorem verdictOf_perm {results results' : List ModuleRunResult}
    (hperm : results.Perm results')
    (hids : ∀ r ∈ results, ∀ s ∈ results, r.moduleResultId = s.moduleResultId → r = s) :
    verdictOf risks results claim = verdictOf risks results' claim := by
  unfold verdictOf
  cases riskByClaim risks claim.claimId with
  | none => rfl
  | some risk =>
    apply claimVerdict_perm (hperm.filter _)
    intro r hr s hs
    exact hids r (List.mem_of_mem_filter hr) s (List.mem_of_mem_filter hs)

theorem exists_verdict
    (h : List.Forall₂ (fun claim v => verdictOf risks results claim = .ok v) claims verdicts)
    (hrisks : (risks.map (·.claimId)).Nodup) (hclaim : claim ∈ claims)
    (hrisk : risk ∈ risks) (hid : risk.claimId = claim.claimId) :
    ∃ v ∈ verdicts, claimVerdict claim risk (resultsOf results claim.claimId) = .ok v := by
  obtain ⟨i, hi⟩ := List.mem_iff_get.mp hclaim
  have hlen := h.length_eq
  have hv := h.get i.isLt (hlen ▸ i.isLt)
  rw [hi, verdictOf, ← hid, riskByClaim_eq hrisks hrisk] at hv
  exact ⟨_, List.get_mem _ _, hid ▸ hv⟩

/-- **Aggregation is sound**: a candidate is released only when the latest result of every mandatory
module of every claim supports it; a latest result of a mandatory module that is unsafe, or that
contradicts and is of a security module, blocks it; the order of the results does not matter. -/
theorem aggregate_sound (policy : AggregationPolicy) (claims : List Claim) (risks : List ClaimRisk)
    (results : List ModuleRunResult) (revisionRound : ℤ) (verdicts : List ClaimVerdict)
    (aggregation : AggregationResult) (hrisks : (risks.map (·.claimId)).Nodup)
    (hids : ∀ r ∈ results, ∀ s ∈ results, r.moduleResultId = s.moduleResultId → r = s)
    (h : aggregate policy claims risks results revisionRound = .ok (verdicts, aggregation)) :
    (aggregation.decision = .RELEASE →
      ∀ claim ∈ claims, ∀ risk ∈ risks, risk.claimId = claim.claimId →
        ∀ module ∈ risk.mandatoryModules, ∃ result,
          IsLatest (·.module) resultOrder (resultsOf results claim.claimId) module result ∧
            (result.verdict = .SUPPORTED ∨ result.verdict = .NOT_APPLICABLE)) ∧
    (∀ claim ∈ claims, ∀ risk ∈ risks, risk.claimId = claim.claimId →
      ∀ module ∈ risk.mandatoryModules, ∀ result,
        IsLatest (·.module) resultOrder (resultsOf results claim.claimId) module result →
          result.verdict = .UNSAFE ∨ (module ∈ nonWaivableModules ∧ result.verdict = .CONTRADICTED) →
            aggregation.decision = .BLOCK) ∧
    ∀ results', results.Perm results' →
      aggregate policy claims risks results' revisionRound = .ok (verdicts, aggregation) := by
  obtain ⟨hround, hcovered, candidate, hhead, hchecked, hverdicts, haggregation⟩ := aggregate_ok.mp h
  have hdecision := candidateDecision_ok haggregation
  refine ⟨?_, ?_, ?_⟩
  · intro hrelease claim hclaim risk hrisk hid module hmodule
    obtain ⟨v, hv, hclaimed⟩ := exists_verdict hverdicts hrisks hclaim hrisk hid
    exact latest_supports hclaimed (supports_of_release (hdecision.symm.trans hrelease) v hv) hmodule
  · intro claim hclaim risk hrisk hid module hmodule result hlatest hbad
    obtain ⟨v, hv, hclaimed⟩ := exists_verdict hverdicts hrisks hclaim hrisk hid
    have hkept : latestByModule (resultsOf results claim.claimId) module = some result := by
      refine hlatest.latestBy_eq (resultOrder_inj ?_)
      intro r hr s hs
      exact hids r (List.mem_of_mem_filter hr) s (List.mem_of_mem_filter hs)
    have hselected := mem_selectedResults.mpr ⟨module, hmodule, hkept⟩
    rw [hdecision]
    apply decision_eq_block hv
    rw [claimVerdict_ok hclaimed]
    rcases hbad with hdanger | ⟨hsecurity, hcontradicted⟩
    · exact .inl (resolveVerdict_unsafe_iff.mpr (hdanger ▸ List.mem_map_of_mem hselected))
    · have hmodule' : result.module ∈ nonWaivableModules := hlatest.key_eq ▸ hsecurity
      exact .inr (nonWaivable_of_selected hselected hmodule' hcontradicted)
  · intro results' hperm
    refine aggregate_ok.mpr ⟨hround, hcovered, candidate, hhead, ?_, ?_, haggregation⟩
    · exact fun result hresult => hchecked result (hperm.mem_iff.mpr hresult)
    · have hsame : verdictOf risks results' = verdictOf risks results :=
        funext fun claim => (verdictOf_perm hperm hids).symm
      rw [hsame]
      exact hverdicts

/-! ### When the contracts are met -/

theorem ClaimVerdict.exists_build_iff :
    (∃ v', v.build = .ok v') ↔ (1 ≤ v.moduleResultIds.length ∧ v.moduleResultIds.length ≤ 32) ∧
      v.evidenceRefIds.length ≤ 1024 ∧ v.reasonCodes.length ≤ 128 ∧ v.disclosureCodes.length ≤ 32 := by
  have herrors : v.fieldErrors = [] ↔ (1 ≤ v.moduleResultIds.length ∧ v.moduleResultIds.length ≤ 32) ∧
      v.evidenceRefIds.length ≤ 1024 ∧ v.reasonCodes.length ≤ 128 ∧ v.disclosureCodes.length ≤ 32 := by
    simp only [ClaimVerdict.fieldErrors, List.append_eq_nil_iff, ite_eq_left_iff, List.cons_ne_nil,
      imp_false, not_not, and_assoc]
  rw [← herrors]
  unfold ClaimVerdict.build
  split_ifs with h
  · exact iff_of_true ⟨v, rfl⟩ h
  · refine iff_of_false ?_ h
    rintro ⟨_, ⟨⟩⟩

/-- The codes that a verdict discloses. -/
def disclosures : List String := ["PARTIAL_SUPPORT_DISCLOSURE", "INSUFFICIENT_EVIDENCE_DISCLOSURE"]

theorem draftVerdict_disclosureCodes (claim : Claim) (risk : ClaimRisk) (results : List ModuleRunResult) :
    (draftVerdict claim risk results).disclosureCodes ⊆ disclosures := by
  unfold draftVerdict disclosures
  dsimp only
  split_ifs <;> simp

theorem draftVerdict_disclosureCodes_length (claim : Claim) (risk : ClaimRisk)
    (results : List ModuleRunResult) : (draftVerdict claim risk results).disclosureCodes.length ≤ 32 := by
  unfold draftVerdict
  dsimp only
  split_ifs <;> simp

/-- The verdict on a claim fails closed without a result, and is refused beyond the contract. -/
theorem exists_claimVerdict_iff (hmodules : risk.mandatoryModules.length ≤ 32) :
    (∃ v, claimVerdict claim risk results = .ok v) ↔ selectedResults risk results ≠ [] ∧
      (sortedSet ((selectedResults risk results).flatMap (·.evidenceRefIds))).length ≤ 1024 ∧
      (sortedSet (reasonCodes risk results)).length ≤ 128 := by
  have hlength : (selectedResults risk results).length ≤ 32 :=
    (List.length_filterMap_le _ _).trans hmodules
  unfold claimVerdict
  split_ifs with hempty
  · rw [List.isEmpty_iff] at hempty
    refine iff_of_false ?_ fun h => h.1 hempty
    rintro ⟨_, ⟨⟩⟩
  · have hpos : 1 ≤ (selectedResults risk results).length :=
      List.length_pos_iff.mpr fun h => hempty (List.isEmpty_iff.mpr h)
    rw [ClaimVerdict.exists_build_iff]
    constructor
    · rintro ⟨_, hevidence, hreasons, _⟩
      exact ⟨List.length_pos_iff.mp hpos, hevidence, hreasons⟩
    · rintro ⟨_, hevidence, hreasons⟩
      refine ⟨?_, hevidence, hreasons, draftVerdict_disclosureCodes_length claim risk results⟩
      simpa [draftVerdict] using ⟨hpos, hlength⟩

theorem exists_blockOf {claimId : ℕ} (h : claimId ∈ claims.map (·.claimId)) :
    ∃ block, blockOf claims claimId = some block := by
  obtain ⟨claim, hclaim, rfl⟩ := List.mem_map.mp h
  unfold blockOf
  cases hfind : claims.reverse.find? (·.claimId = claim.claimId) with
  | none =>
    have := List.find?_eq_none.mp hfind claim (List.mem_reverse.mpr hclaim)
    simp at this
  | some found => exact ⟨found.blockId, rfl⟩

theorem blockOf_mem {claimId : ℕ} {block : String}
    (h : blockOf claims claimId = some block) : block ∈ claims.map (·.blockId) := by
  obtain ⟨claim, hfind, rfl⟩ := Option.map_eq_some_iff.mp h
  exact List.mem_map_of_mem (List.mem_reverse.mp (List.mem_of_find?_eq_some hfind))

theorem exists_revisionVerdict
    (h : decision policy risks verdicts revisionRound = .REVISE) : ∃ v, v ∈ revisionVerdicts verdicts := by
  have hmem : ∀ {p : ClaimVerdict → Bool}, verdicts.countP p ≠ 0 →
      (∀ v, p v = true → v.verdict ∈ [.PARTIALLY_SUPPORTED, .CONTRADICTED, .INSUFFICIENT_EVIDENCE, .ERROR]) →
        ∃ v, v ∈ revisionVerdicts verdicts := by
    intro p hcount hp
    obtain ⟨v, hv, hpv⟩ := List.countP_pos_iff.mp (Nat.pos_of_ne_zero hcount)
    exact ⟨v, List.mem_filter.mpr ⟨hv, by simpa using hp v hpv⟩⟩
  unfold decision at h
  dsimp only at h
  split_ifs at h with hblock hcritical hrevise hpartial hdisclose
  · rcases hrevise with hcount | hcount
    · exact hmem hcount fun v hv => by simp_all
    · refine hmem hcount fun v hv => ?_
      rcases of_decide_eq_true hv with hv | hv <;> simp [hv]
  · obtain ⟨v, hv⟩ := List.exists_mem_of_ne_nil _ hpartial
    obtain ⟨hv, hverdict⟩ := List.mem_filter.mp hv
    exact ⟨v, List.mem_filter.mpr ⟨hv, by simp_all⟩⟩

theorem unsafeCount_of_release
    (h : decision policy risks verdicts revisionRound = .RELEASE) : unsafeCount verdicts = 0 := by
  by_contra hcount
  rw [decision, if_pos (.inl hcount)] at h
  cases h

theorem AggregationResult.fieldErrors_eq_nil {a : AggregationResult}
    (hverdicts : 1 ≤ a.claimVerdictCount ∧ a.claimVerdictCount ≤ 4096)
    (hblocks : a.revisionBlockIds.length ≤ 2048) (hcodes : a.disclosureCodes.length ≤ 32)
    (hrevise : a.decision = .REVISE → a.revisionBlockIds ≠ [])
    (hdisclose : a.decision = .RELEASE_WITH_DISCLOSURE → a.disclosureCodes ≠ [])
    (hrelease : a.decision = .RELEASE → a.unsafeCount = 0) : a.fieldErrors = [] := by
  unfold AggregationResult.fieldErrors
  rw [if_pos hverdicts, if_pos hblocks, if_pos hcodes, if_neg fun h => hrevise h.1 h.2,
    if_neg fun h => hdisclose h.1 h.2, if_neg fun h => h.2 (hrelease h.1)]
  rfl

/-- The candidate's record meets its contract when the verdicts are those of its claims. -/
theorem candidateDecision_total {candidate : Claim}
    (hlength : 1 ≤ verdicts.length ∧ verdicts.length ≤ 4096)
    (hblocks : (claims.map (·.blockId)).dedup.length ≤ 2048)
    (hclaims : ∀ v ∈ verdicts, v.claimId ∈ claims.map (·.claimId))
    (hcodes : ∀ v ∈ verdicts, v.disclosureCodes ⊆ disclosures) :
    candidateDecision policy claims candidate risks verdicts revisionRound =
      .ok (draftAggregation policy claims candidate risks verdicts revisionRound) := by
  unfold candidateDecision AggregationResult.build
  rw [if_pos]
  have hdisclosures : (sortedSet (verdicts.flatMap (·.disclosureCodes))).length ≤ 2 := by
    have hsub : verdicts.flatMap (·.disclosureCodes) ⊆ disclosures := by
      intro code hcode
      obtain ⟨v, hv, hcode⟩ := List.mem_flatMap.mp hcode
      exact hcodes v hv hcode
    exact length_sortedSet_le hsub
  have hrevision : (sortedSet ((revisionVerdicts verdicts).filterMap
      fun v => blockOf claims v.claimId)).length ≤ 2048 := by
    refine (length_sortedSet_le ?_).trans hblocks
    intro block hblock
    obtain ⟨v, _, hblock⟩ := List.mem_filterMap.mp hblock
    exact blockOf_mem hblock
  refine AggregationResult.fieldErrors_eq_nil hlength hrevision ?_ ?_ ?_ unsafeCount_of_release
  · unfold draftAggregation
    dsimp only
    split_ifs
    · simp
    · omega
  · intro hrevise hnil
    obtain ⟨v, hv⟩ := exists_revisionVerdict hrevise
    obtain ⟨block, hblock⟩ := exists_blockOf (hclaims v (List.mem_of_mem_filter hv))
    have hmem : block ∈ sortedSet ((revisionVerdicts verdicts).filterMap
        fun v => blockOf claims v.claimId) :=
      mem_sortedSet.mpr (List.mem_filterMap.mpr ⟨v, hv, hblock⟩)
    have hnone : sortedSet ((revisionVerdicts verdicts).filterMap
        fun v => blockOf claims v.claimId) = [] := hnil
    rw [hnone] at hmem
    cases hmem
  · intro hdisclose
    have hdecision : decision policy risks verdicts revisionRound = .RELEASE_WITH_DISCLOSURE := hdisclose
    unfold draftAggregation
    dsimp only
    split_ifs with hnone
    · simp
    · exact fun hnil => hnone ⟨hdecision, hnil⟩

/-! ### A released candidate -/

def samplePolicy : AggregationPolicy where
  policyVersion := "aggregate-policy.v1"

def sampleClaim : Claim where
  claimId := 1
  verificationId := 7
  candidateId := 5
  candidateVersion := 1
  candidateSha256 := ""
  blockId := "b"
  claimKind := .TEXT

def sampleRisk : ClaimRisk where
  claimId := 1
  level := .HIGH
  mandatoryModules := [.C2_RAG, .C9_SECURITY]

/-- A result of the first claim with one piece of evidence. -/
def sampleResult (moduleResultId versionCas : ℕ) (module : VerificationModule)
    (verdict : VerificationVerdict) (h : 1 ≤ versionCas) : ModuleRunResult where
  moduleResultId
  verificationId := 7
  claimId := 1
  module
  verdict
  versionCas
  createdAt := 100
  evidenceRefIds := [40]
  versionCas_pos := h
  supported_evidence := fun _ => by decide

/-- Two supporting results, and a contradicting one that the second of them supersedes. -/
def supersededResults : List ModuleRunResult :=
  [sampleResult 11 4 .C9_SECURITY .SUPPORTED (by decide),
    sampleResult 12 3 .C9_SECURITY .CONTRADICTED (by decide),
    sampleResult 10 3 .C2_RAG .SUPPORTED (by decide)]

theorem aggregate_sound_superseded :
    ∃ verdicts aggregation,
      aggregate samplePolicy [sampleClaim] [sampleRisk] supersededResults 0 =
        .ok (verdicts, aggregation) ∧ aggregation.decision = .RELEASE ∧
      ∃ result, IsLatest (·.module) resultOrder (resultsOf supersededResults 1) .C9_SECURITY result ∧
        (result.verdict = .SUPPORTED ∨ result.verdict = .NOT_APPLICABLE) := by
  have hrun : (aggregate samplePolicy [sampleClaim] [sampleRisk] supersededResults 0).toOption.map
      (fun p => p.2.decision) = some .RELEASE := by decide
  cases h : aggregate samplePolicy [sampleClaim] [sampleRisk] supersededResults 0 with
  | error e =>
    rw [h] at hrun
    cases hrun
  | ok p =>
    rw [h] at hrun
    have hdecision : p.2.decision = .RELEASE := Option.some.inj hrun
    have hids : ∀ r ∈ supersededResults, ∀ s ∈ supersededResults,
        r.moduleResultId = s.moduleResultId → r = s := by
      intro r hr s hs
      simp only [supersededResults, List.mem_cons, List.not_mem_nil, or_false] at hr hs
      rcases hr with rfl | rfl | rfl <;> rcases hs with rfl | rfl | rfl <;> simp [sampleResult]
    obtain ⟨hrelease, _⟩ := aggregate_sound samplePolicy [sampleClaim] [sampleRisk] supersededResults 0
      p.1 p.2 (by decide) hids h
    refine ⟨p.1, p.2, rfl, hdecision, ?_⟩
    exact hrelease hdecision sampleClaim List.mem_cons_self sampleRisk List.mem_cons_self rfl
      .C9_SECURITY (by decide)

end CyberControl.Verification
