import CyberControl.VerificationLifecycle
import Mathlib.Data.List.MinMax

/-! # Human review

The review tasks of a verification, and `submit_human_review` (`verification/service.py`), which decides
one of them and moves the verification on. -/

namespace CyberControl.Verification

open Collections

structure TenantContext where
  tenantId : String
  subjectRef : String
  traceId : String

/-! ### Tasks -/

inductive ReviewTaskState where
  | OPEN
  | CLAIMED
  | DECIDED
  | EXPIRED
  | CANCELLED
deriving DecidableEq, Repr

/-- `HumanReviewTaskV1`, restricted to what a review reads. -/
structure ReviewTask where
  reviewTaskId : ℕ
  verificationId : ℕ
  candidateId : ℕ
  candidateVersion : ℕ
  candidateSha256 : String
  versionCas : ℕ
  state : ReviewTaskState
  dueAt : ℕ
  nonWaivableFindingIds : List ℕ

/-- An open task on the candidate of a verification. -/
def openReviewTask (v : VerificationRecord) (reviewTaskId dueAt : ℕ)
    (nonWaivableFindingIds : List ℕ) : ReviewTask where
  reviewTaskId
  verificationId := v.request.verificationId
  candidateId := v.request.candidateId
  candidateVersion := v.request.candidateVersion
  candidateSha256 := v.request.candidateSha256
  versionCas := 1
  state := .OPEN
  dueAt
  nonWaivableFindingIds

/-- `timedelta(hours=1)` in microseconds. -/
def oneHour : ℕ := 3600000000

/-- `_build_risk_review_task`. -/
def riskReviewTask (v : VerificationRecord) (reviewTaskId now : ℕ) : ReviewTask :=
  openReviewTask v reviewTaskId (min v.request.deadlineAt (now + 4 * oneHour)) []

/-- `non_waivable_ids`. -/
def nonWaivableFindingIds (results : List ModuleRunResult) : List ℕ :=
  sortedSet ((results.filter fun result =>
    result.module ∈ nonWaivableModules ∧ result.verdict ∈ [.UNSAFE, .CONTRADICTED]).map
      (·.moduleResultId))

/-- `_build_result_review_task`; the contract bounds the findings. -/
def resultReviewTask (v : VerificationRecord) (reviewTaskId now : ℕ) : Except Exn ReviewTask := do
  let findings := nonWaivableFindingIds v.results
  ensure (findings.length ≤ 4096) (.validationError ["non_waivable_finding_ids"])
  return openReviewTask v reviewTaskId (min v.request.deadlineAt (now + 8 * oneHour)) findings

def latestReviewTask (tasks : List ReviewTask) (verificationId : ℕ) : Option ReviewTask :=
  (tasks.filter (·.verificationId = verificationId)).argmax (·.versionCas)

/-! ### Decisions -/

inductive ReviewDecision where
  | APPROVE
  | APPROVE_WITH_DISCLOSURE
  | REVISE
  | BLOCK
deriving DecidableEq, Repr

def ReviewDecision.value : ReviewDecision → String
  | .APPROVE => "APPROVE"
  | .APPROVE_WITH_DISCLOSURE => "APPROVE_WITH_DISCLOSURE"
  | .REVISE => "REVISE"
  | .BLOCK => "BLOCK"

/-- The decisions that a task with non-waivable findings excludes. -/
def ReviewDecision.approves (decision : ReviewDecision) : Prop :=
  decision ∈ [.APPROVE, .APPROVE_WITH_DISCLOSURE]

instance (decision : ReviewDecision) : Decidable decision.approves :=
  inferInstanceAs (Decidable (decision ∈ _))

def reviewDecisionTarget : ReviewDecision → VerificationState
  | .APPROVE => .RELEASE_PENDING
  | .APPROVE_WITH_DISCLOSURE => .RELEASE_PENDING
  | .REVISE => .REVISION_PLANNING
  | .BLOCK => .BLOCKED

theorem reviewDecisionTarget_eq_releasePending {decision : ReviewDecision} :
    reviewDecisionTarget decision = .RELEASE_PENDING ↔ decision.approves := by
  cases decision <;> decide

/-- `HumanReviewDecisionV1` with the check of its contract. -/
structure HumanReviewDecision where
  tenantId : String
  traceId : String
  reviewTaskId : ℕ
  verificationId : ℕ
  decision : ReviewDecision
  reviewerSubjectRef : String
  rationaleArtifactSha256 : String
  rationaleSha256 : String
  disclosureCodes : List String
  waivedFindingIds : List ℕ
  recordIntegrityValid : Bool
  disclosureCodes_ne_nil : decision = .APPROVE_WITH_DISCLOSURE → disclosureCodes ≠ [] := by decide

/-- The checks of `submit_human_review` before its transaction. -/
def validateReviewDecision (context : TenantContext) (decision : HumanReviewDecision) :
    Except Exn Unit := do
  ensure (decision.tenantId = context.tenantId ∧ decision.traceId = context.traceId)
    (integrityError "Human review decision does not match the authenticated tenant trace.")
  ensure (decision.reviewerSubjectRef = context.subjectRef)
    (integrityError "Human review decision reviewer does not match the authenticated subject.")
  ensure (decision.rationaleArtifactSha256 = decision.rationaleSha256)
    (integrityError "Human review rationale artifact hash does not match rationale_sha256.")
  ensure decision.recordIntegrityValid
    (integrityError "Human review decision record hash is invalid.")

/-- The checks of `submit_human_review` on the latest task. -/
def validateReviewTask (task : ReviewTask) (decision : HumanReviewDecision)
    (expectedTaskVersion now : ℕ) : Except Exn Unit := do
  ensure (task.reviewTaskId = decision.reviewTaskId) (notFound "Human review task")
  ensure (task.versionCas = expectedTaskVersion) versionConflict
  ensure (task.state = .OPEN ∨ task.state = .CLAIMED)
    (conflict "Human review task is no longer open.")
  ensure (now ≤ task.dueAt) deadlineError
  ensure (∀ finding ∈ decision.waivedFindingIds, finding ∉ task.nonWaivableFindingIds)
    (integrityError "Non-waivable findings cannot be waived.")
  ensure (task.nonWaivableFindingIds ≠ [] → ¬ decision.decision.approves)
    (integrityError "A review task with non-waivable findings cannot be approved.")

def decidedTask (task : ReviewTask) : ReviewTask :=
  { task with versionCas := task.versionCas + 1, state := .DECIDED }

def submitHumanReview (rows : Rows) (tasks : List ReviewTask) (context : TenantContext)
    (decision : HumanReviewDecision) (expectedTaskVersion expectedStateVersion now : ℕ) :
    Except Exn (Rows × List ReviewTask) := do
  validateReviewDecision context decision
  let (v, current) ← requireVerification rows decision.verificationId
  requireStateVersion current expectedStateVersion
  ensure (current.currentState = .REVIEW_REQUIRED)
    (transitionError "Human review decisions require REVIEW_REQUIRED state.")
  match latestReviewTask tasks decision.verificationId with
  | none => .error (notFound "Human review task")
  | some task => do
    validateReviewTask task decision expectedTaskVersion now
    let changes ← stateSequence current
      [(reviewDecisionTarget decision.decision, "HUMAN_REVIEW_" ++ decision.decision.value)]
    return (rows.put { v with states := v.states ++ changes }, tasks ++ [decidedTask task])

theorem submitHumanReview_ok {rows after : Rows} {tasks tasks' : List ReviewTask}
    {context : TenantContext} {decision : HumanReviewDecision}
    {expectedTaskVersion expectedStateVersion now : ℕ}
    (h : submitHumanReview rows tasks context decision expectedTaskVersion expectedStateVersion now
      = .ok (after, tasks')) :
    ∃ v current changes, rows.verifications decision.verificationId = some v ∧
      v.states.getLast? = some current ∧ current.currentState = .REVIEW_REQUIRED ∧
      changes.map (·.currentState) = [reviewDecisionTarget decision.decision] ∧
      after = rows.put { v with states := v.states ++ changes } := by
  obtain ⟨_, _, h⟩ := bind_eq_ok.mp h
  obtain ⟨⟨v, current⟩, hv, h⟩ := bind_eq_ok.mp h
  obtain ⟨_, _, h⟩ := bind_eq_ok.mp h
  obtain ⟨_, hstate, h⟩ := bind_eq_ok.mp h
  obtain ⟨hrow, hcurrent⟩ := requireVerification_ok hv
  cases htask : latestReviewTask tasks decision.verificationId with
  | none =>
    simp only [htask] at h
    cases h
  | some task =>
    simp only [htask] at h
    obtain ⟨_, _, h⟩ := bind_eq_ok.mp h
    obtain ⟨changes, hchanges, h⟩ := bind_eq_ok.mp h
    cases h
    exact ⟨v, current, changes, hrow, hcurrent, ensure_eq_ok.mp hstate, (stateSequence_ok hchanges).1, rfl⟩

end CyberControl.Verification
