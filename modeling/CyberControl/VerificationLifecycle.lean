import CyberControl.ModuleExecution

/-! # The life of a verification

`VerificationStateMachine` (`verification/state_machine.py`) and the operations of `VerificationService`
(`verification/service.py`) that take a verification from its acceptance to a decision on its candidate.
Each of them is one transaction over the rows of a tenant. -/

namespace CyberControl.Verification

/-! ### The state machine -/

inductive VerificationState where
  | ACCEPTED
  | SNAPSHOT_VALIDATING
  | CLAIM_EXTRACTING
  | CLAIMS_READY
  | MODULE_DISPATCHING
  | VERIFYING
  | AGGREGATING
  | REVISION_PLANNING
  | REVISION_WAITING
  | REVERIFYING
  | RELEASE_PENDING
  | RELEASED
  | BLOCKED
  | REVIEW_REQUIRED
  | FAILED
  | EXPIRED
  | CANCELLED
deriving DecidableEq, Repr

/-- The text of the enumeration. -/
def VerificationState.value : VerificationState → String
  | .ACCEPTED => "ACCEPTED"
  | .SNAPSHOT_VALIDATING => "SNAPSHOT_VALIDATING"
  | .CLAIM_EXTRACTING => "CLAIM_EXTRACTING"
  | .CLAIMS_READY => "CLAIMS_READY"
  | .MODULE_DISPATCHING => "MODULE_DISPATCHING"
  | .VERIFYING => "VERIFYING"
  | .AGGREGATING => "AGGREGATING"
  | .REVISION_PLANNING => "REVISION_PLANNING"
  | .REVISION_WAITING => "REVISION_WAITING"
  | .REVERIFYING => "REVERIFYING"
  | .RELEASE_PENDING => "RELEASE_PENDING"
  | .RELEASED => "RELEASED"
  | .BLOCKED => "BLOCKED"
  | .REVIEW_REQUIRED => "REVIEW_REQUIRED"
  | .FAILED => "FAILED"
  | .EXPIRED => "EXPIRED"
  | .CANCELLED => "CANCELLED"

def terminalStates : List VerificationState := [.RELEASED, .BLOCKED, .FAILED, .EXPIRED, .CANCELLED]

def allowedTransitions : VerificationState → List VerificationState
  | .ACCEPTED => [.SNAPSHOT_VALIDATING, .CANCELLED, .EXPIRED, .FAILED]
  | .SNAPSHOT_VALIDATING => [.CLAIM_EXTRACTING, .REVIEW_REQUIRED, .BLOCKED, .EXPIRED, .FAILED, .CANCELLED]
  | .CLAIM_EXTRACTING => [.CLAIMS_READY, .REVIEW_REQUIRED, .BLOCKED, .EXPIRED, .FAILED, .CANCELLED]
  | .CLAIMS_READY => [.MODULE_DISPATCHING, .REVIEW_REQUIRED, .BLOCKED, .EXPIRED, .FAILED, .CANCELLED]
  | .MODULE_DISPATCHING => [.VERIFYING, .REVIEW_REQUIRED, .BLOCKED, .EXPIRED, .FAILED, .CANCELLED]
  | .VERIFYING => [.AGGREGATING, .REVIEW_REQUIRED, .BLOCKED, .EXPIRED, .FAILED, .CANCELLED]
  | .AGGREGATING =>
    [.RELEASE_PENDING, .REVISION_PLANNING, .REVIEW_REQUIRED, .BLOCKED, .EXPIRED, .FAILED, .CANCELLED]
  | .REVISION_PLANNING => [.REVISION_WAITING, .REVIEW_REQUIRED, .BLOCKED, .EXPIRED, .FAILED, .CANCELLED]
  | .REVISION_WAITING => [.REVERIFYING, .REVIEW_REQUIRED, .BLOCKED, .EXPIRED, .FAILED, .CANCELLED]
  | .REVERIFYING => [.SNAPSHOT_VALIDATING, .REVIEW_REQUIRED, .BLOCKED, .EXPIRED, .FAILED, .CANCELLED]
  | .RELEASE_PENDING => [.RELEASED, .REVIEW_REQUIRED, .BLOCKED, .EXPIRED, .FAILED, .CANCELLED]
  | .REVIEW_REQUIRED => [.RELEASE_PENDING, .REVISION_PLANNING, .BLOCKED, .EXPIRED, .CANCELLED]
  | _ => []

structure TransitionDecision where
  previousState : VerificationState
  currentState : VerificationState
  revisionRound : ℕ

def nextRound (target : VerificationState) (revisionRound : ℕ) : ℕ :=
  if target = .REVISION_PLANNING then revisionRound + 1 else revisionRound

/-- `VerificationStateMachine.transition`; an error is the text of `InvalidVerificationTransition`. -/
def transition (current target : VerificationState) (revisionRound : ℕ) :
    Except String TransitionDecision :=
  if current ∈ terminalStates then
    .error ("terminal state " ++ current.value ++ " cannot transition")
  else if target ∉ allowedTransitions current then
    .error ("transition " ++ current.value ++ " -> " ++ target.value ++ " is not allowed")
  else if target = .REVISION_PLANNING ∧ nextRound target revisionRound > 2 then
    .error "revision round budget is exhausted"
  else if current = .REVERIFYING ∧ revisionRound = 0 then
    .error "reverification requires a revision round"
  else .ok ⟨current, target, nextRound target revisionRound⟩

theorem transition_ok {current target : VerificationState} {revisionRound : ℕ}
    {decision : TransitionDecision} (h : transition current target revisionRound = .ok decision) :
    target ∈ allowedTransitions current ∧
      decision = ⟨current, target, nextRound target revisionRound⟩ := by
  unfold transition at h
  split_ifs at h with hterminal hallowed hbudget hreverify
  exact ⟨hallowed, (Except.ok.inj h).symm⟩

/-! ### Rows -/

inductive CandidateStatus where
  | GENERATING
  | COMPLETE
  | FAILED
  | SUPERSEDED
deriving DecidableEq, Repr

/-- `CandidateV1`; the digest stands for the content. -/
structure Candidate where
  candidateId : ℕ
  candidateVersion : ℕ
  candidateSha256 : String
  resourceType : String
  agent : String
  status : CandidateStatus
deriving DecidableEq

/-- `VerificationRequestPayloadV1`, restricted to what the operations read. -/
structure VerificationRequest where
  verificationId : ℕ
  candidateId : ℕ
  candidateVersion : ℕ
  candidateSha256 : String
  resourceType : String
  deadlineAt : ℕ
deriving DecidableEq

/-- `VerificationStateChangedPayloadV1`. -/
structure StateChange where
  previousState : Option VerificationState
  currentState : VerificationState
  stateVersion : ℕ
  reasonCode : String
  revisionRound : ℕ

/-- What `finalize_control_plane` aggregates, with the round it passes to `aggregate`. -/
structure Finalization where
  revisionRound : ℕ
  verdicts : List ClaimVerdict
  aggregation : AggregationResult

/-- The rows of a verification; its states are in the order of their versions. -/
structure VerificationRecord where
  request : VerificationRequest
  states : List StateChange
  claims : List Claim
  risks : List ClaimRisk
  dispatchPlan : Option DispatchPlan
  runs : List ModuleRun
  results : List ModuleRunResult
  finalizations : List Finalization

/-- The candidates under their identifier and version, and the verifications of a tenant. -/
structure Rows where
  candidates : ℕ × ℕ → Option Candidate
  verifications : ℕ → Option VerificationRecord
  candidate_key : ∀ key candidate, candidates key = some candidate →
    (candidate.candidateId, candidate.candidateVersion) = key
  verification_key : ∀ id v, verifications id = some v → v.request.verificationId = id

/-- The rows after a write to a verification. -/
def Rows.put (rows : Rows) (v : VerificationRecord) : Rows where
  candidates := rows.candidates
  verifications := Function.update rows.verifications v.request.verificationId (some v)
  candidate_key := rows.candidate_key
  verification_key := by
    intro id w hw
    by_cases hid : id = v.request.verificationId
    · subst hid
      rw [Function.update_self] at hw
      rw [← Option.some.inj hw]
    · rw [Function.update_of_ne hid] at hw
      exact rows.verification_key id w hw

theorem Rows.put_self (rows : Rows) (v : VerificationRecord) :
    (rows.put v).verifications v.request.verificationId = some v :=
  Function.update_self _ _ _

variable {v : VerificationRecord}

theorem Rows.put_of_ne (rows : Rows) {id : ℕ}
    (h : id ≠ v.request.verificationId) : (rows.put v).verifications id = rows.verifications id :=
  Function.update_of_ne h _ _

/-- The rows with another version of a candidate. -/
def Rows.appendCandidate (rows : Rows) (candidate : Candidate) : Rows where
  candidates := Function.update rows.candidates (candidate.candidateId, candidate.candidateVersion)
    (some candidate)
  verifications := rows.verifications
  candidate_key := by
    intro key c hc
    by_cases hkey : key = (candidate.candidateId, candidate.candidateVersion)
    · subst hkey
      rw [Function.update_self] at hc
      rw [← Option.some.inj hc]
    · rw [Function.update_of_ne hkey] at hc
      exact rows.candidate_key key c hc
  verification_key := rows.verification_key

/-! ### Errors -/

def topic4Error (code : ErrorCode) (safeMessage : String) (category : ErrorCategory) (statusCode : ℕ) :
    Exn := .liyan { code, safeMessage, category, statusCode }

def notFound (resource : String) : Exn :=
  topic4Error .TOPIC4_NOT_FOUND (resource ++ " was not found.") .CONTRACT 404

def conflict (message : String) : Exn := topic4Error .TOPIC4_CONFLICT message .CONTRACT 409

def versionConflict : Exn :=
  topic4Error .TOPIC4_VERSION_CONFLICT "Verification transition is based on a stale state version."
    .CONTRACT 409

def transitionError (message : String) : Exn :=
  topic4Error .TOPIC4_STATE_TRANSITION_INVALID message .TASK 409

def integrityError (message : String) : Exn :=
  topic4Error .TOPIC4_INTEGRITY_FAILED message .CONTRACT 422

def deadlineError : Exn :=
  topic4Error .TOPIC4_DEADLINE_EXPIRED "Verification deadline has expired." .TIMEOUT 409

/-! ### Changes of state -/

def stateSequence (source : StateChange) :
    List (VerificationState × String) → Except Exn (List StateChange)
  | [] => .ok []
  | (target, reasonCode) :: rest =>
    match transition source.currentState target source.revisionRound with
    | .error text => .error (transitionError text)
    | .ok decision => do
      let change : StateChange := {
        previousState := some decision.previousState
        currentState := decision.currentState
        stateVersion := source.stateVersion + 1
        reasonCode
        revisionRound := decision.revisionRound }
      let changes ← stateSequence change rest
      return change :: changes

theorem stateSequence_ok {source : StateChange} {targets : List (VerificationState × String)}
    {changes : List StateChange} (h : stateSequence source targets = .ok changes) :
    changes.map (·.currentState) = targets.map Prod.fst ∧
      (.REVISION_PLANNING ∉ targets.map Prod.fst →
        ∀ change ∈ changes, change.revisionRound = source.revisionRound) := by
  induction targets generalizing source changes with
  | nil =>
    cases h
    exact ⟨rfl, by simp⟩
  | cons head rest ih =>
    obtain ⟨target, reasonCode⟩ := head
    rw [stateSequence] at h
    cases htransition : transition source.currentState target source.revisionRound with
    | error text =>
      rw [htransition] at h
      cases h
    | ok decision =>
      rw [htransition] at h
      obtain ⟨later, hlater, h⟩ := bind_eq_ok.mp h
      obtain ⟨hstates, hrounds⟩ := ih hlater
      cases h
      have hdecision := (transition_ok htransition).2
      refine ⟨by simp [hstates, hdecision], fun hplanning => ?_⟩
      rw [List.map_cons, List.mem_cons, not_or] at hplanning
      have hround : decision.revisionRound = source.revisionRound := by
        rw [hdecision]
        exact if_neg (Ne.symm hplanning.1)
      intro change hchange
      cases List.mem_cons.mp hchange with
      | inl hfirst => rw [hfirst, hround]
      | inr hrest => rw [hrounds hplanning.2 change hrest, hround]

theorem stateSequence_allowed {source : StateChange} {target : VerificationState} {reasonCode : String}
    {rest : List (VerificationState × String)} {changes : List StateChange}
    (h : stateSequence source ((target, reasonCode) :: rest) = .ok changes) :
    target ∈ allowedTransitions source.currentState := by
  rw [stateSequence] at h
  cases htransition : transition source.currentState target source.revisionRound with
  | error text =>
    rw [htransition] at h
    cases h
  | ok decision => exact (transition_ok htransition).1

/-! ### Acceptance -/

/-- The checks of `accept_verification` on the source candidate. -/
def checkSource (candidate : Option Candidate) (request : VerificationRequest) (now : ℕ) :
    Except Exn Unit :=
  match candidate with
  | none => .error (notFound "Source candidate")
  | some candidate => do
    ensure (candidate.status = .COMPLETE)
      (integrityError "Only complete Topic 3 candidates can be verified.")
    ensure (candidate.candidateSha256 = request.candidateSha256)
      (integrityError "Source candidate hash does not match Topic 3.")
    ensure (candidate.resourceType = request.resourceType)
      (integrityError "Source candidate resource type does not match.")
    ensure (now < request.deadlineAt) deadlineError

/-- The rows of a verification that has just been accepted. -/
def accepted (request : VerificationRequest) : VerificationRecord where
  request
  states := [{
    previousState := none
    currentState := .ACCEPTED
    stateVersion := 1
    reasonCode := "VERIFICATION_ACCEPTED"
    revisionRound := 0 }]
  claims := []
  risks := []
  dispatchPlan := none
  runs := []
  results := []
  finalizations := []

def acceptVerification (rows : Rows) (request : VerificationRequest) (now : ℕ) : Except Exn Rows := do
  ensure (rows.verifications request.verificationId).isNone
    (conflict "The verification already exists.")
  checkSource (rows.candidates (request.candidateId, request.candidateVersion)) request now
  return rows.put (accepted request)

/-! ### Preparation -/

/-- The configuration of the control plane: how claims are extracted from a candidate and how they are
rated, the identifiers of the dispatch items, and the policy of the aggregator. -/
structure ControlPlane where
  extract : Candidate → ℕ → Except String (List Claim)
  level : Claim → RiskLevel
  dispatchItemId : ℕ → VerificationModule → ℕ
  policy : AggregationPolicy

/-- `_require_verification`: the verification with its latest state. -/
def requireVerification (rows : Rows) (verificationId : ℕ) :
    Except Exn (VerificationRecord × StateChange) :=
  match rows.verifications verificationId with
  | none => .error (notFound "Verification")
  | some v =>
    match v.states.getLast? with
    | none => .error (notFound "Verification")
    | some current => .ok (v, current)

def requireStateVersion (current : StateChange) (expectedStateVersion : ℕ) : Except Exn Unit :=
  ensure (current.stateVersion = expectedStateVersion) versionConflict

def requireActiveDeadline (v : VerificationRecord) (now : ℕ) : Except Exn Unit :=
  ensure (now < v.request.deadlineAt) deadlineError

def verifiedCandidate (rows : Rows) (v : VerificationRecord) : Except Exn Candidate :=
  match rows.candidates (v.request.candidateId, v.request.candidateVersion) with
  | none => .error (notFound "Source candidate")
  | some candidate => do
    ensure (candidate.status = .COMPLETE)
      (integrityError "Only complete Topic 3 candidates can be verified.")
    ensure (candidate.candidateSha256 = v.request.candidateSha256)
      (integrityError "Source candidate hash changed after acceptance.")
    ensure (candidate.resourceType = v.request.resourceType)
      (integrityError "Source candidate resource type changed after acceptance.")
    return candidate

/-- `extract`, with the `ClaimExtractionError` that `prepare_control_plane` turns into its own. -/
def extractClaims (c1 : ControlPlane) (candidate : Candidate) (verificationId : ℕ) :
    Except Exn (List Claim) :=
  match c1.extract candidate verificationId with
  | .error text => .error (integrityError text)
  | .ok claims => .ok claims

/-- The states of `prepare_control_plane`. -/
def preparationTargets (critical : Bool) : List (VerificationState × String) :=
  [(.SNAPSHOT_VALIDATING, "SOURCE_SNAPSHOT_VALIDATED"), (.CLAIM_EXTRACTING, "CLAIM_EXTRACTION_STARTED"),
    (.CLAIMS_READY, "CLAIMS_AND_RISKS_READY"),
    if critical then (.REVIEW_REQUIRED, "CRITICAL_RISK_FUSE")
    else (.MODULE_DISPATCHING, "MODULE_DISPATCH_PLAN_READY")]

def prepareControlPlane (c1 : ControlPlane) (rows : Rows) (verificationId expectedStateVersion now : ℕ) :
    Except Exn Rows := do
  let (v, current) ← requireVerification rows verificationId
  requireStateVersion current expectedStateVersion
  ensure (current.currentState = .ACCEPTED ∨ current.currentState = .REVERIFYING)
    (transitionError "Claim extraction can only start from ACCEPTED or REVERIFYING.")
  ensure (v.claims = []) (conflict "The verification control plane is already prepared.")
  let candidate ← verifiedCandidate rows v
  requireActiveDeadline v now
  let claims ← extractClaims c1 candidate verificationId
  let risks := scoreAll c1.level claims
  let plan ← plan c1.dispatchItemId claims risks
  let changes ← stateSequence current (preparationTargets (risks.any (·.level = .CRITICAL)))
  return rows.put { v with states := v.states ++ changes, claims, risks, dispatchPlan := some plan }

/-! ### Execution -/

/-- `transition` of the service. -/
def transitionState (rows : Rows) (verificationId expectedStateVersion : ℕ) (target : VerificationState)
    (reasonCode : String) (now : ℕ) : Except Exn Rows :=
  match rows.verifications verificationId with
  | none => .error (notFound "Verification")
  | some v =>
    match v.states.getLast? with
    | none => .error (integrityError "Verification state history is missing.")
    | some current => do
      requireStateVersion current expectedStateVersion
      ensure (now < v.request.deadlineAt ∨ target = .EXPIRED) deadlineError
      let changes ← stateSequence current [(target, reasonCode)]
      return rows.put { v with states := v.states ++ changes }

def executionInputs (rows : Rows) (verificationId : ℕ) : Except Exn (List Claim × DispatchPlan) :=
  match rows.verifications verificationId with
  | none => .error missingPlan
  | some v =>
    match v.dispatchPlan with
    | none => .error missingPlan
    | some plan => .ok (v.claims, plan)
where
  missingPlan : Exn :=
    topic4Error .TOPIC4_INTEGRITY_FAILED "The Topic 4 dispatch plan is missing." .DATABASE 500

def persistModuleExecution (rows : Rows) (verificationId : ℕ) (bundle : ModuleExecutionBundle)
    (expectedStateVersion : ℕ) : Except Exn Rows := do
  ensure (bundle.runSnapshots ≠ []) (integrityError "Module execution bundle is empty.")
  let (v, current) ← requireVerification rows verificationId
  requireStateVersion current expectedStateVersion
  ensure (current.currentState = .VERIFYING)
    (transitionError "Module execution results can only be persisted while VERIFYING.")
  ensure v.dispatchPlan.isSome (integrityError "The verification dispatch plan is missing.")
  ensure (v.runs = []) (conflict "Module execution has already been persisted.")
  return rows.put { v with runs := bundle.runSnapshots, results := bundle.results }

/-- The modules of `_execute_locked`: the executor runs the plan, and its bundle is persisted. -/
def executeModules (rows : Rows) (verificationId expectedStateVersion : ℕ) (handlers : Handlers) :
    Except Exn Rows := do
  let (claims, plan) ← executionInputs rows verificationId
  let bundle ← execute handlers plan claims
  persistModuleExecution rows verificationId bundle expectedStateVersion

/-! ### Decision -/

def decisionTarget : AggregateDecision → VerificationState
  | .RELEASE => .RELEASE_PENDING
  | .RELEASE_WITH_DISCLOSURE => .RELEASE_PENDING
  | .REVISE => .REVISION_PLANNING
  | .REVIEW_REQUIRED => .REVIEW_REQUIRED
  | .BLOCK => .BLOCKED

def AggregateDecision.value : AggregateDecision → String
  | .RELEASE => "RELEASE"
  | .RELEASE_WITH_DISCLOSURE => "RELEASE_WITH_DISCLOSURE"
  | .REVISE => "REVISE"
  | .REVIEW_REQUIRED => "REVIEW_REQUIRED"
  | .BLOCK => "BLOCK"

/-- `finalize_control_plane`; `report` is what the evidence digests and the report come to. -/
def finalizeControlPlane (c1 : ControlPlane) (rows : Rows)
    (verificationId expectedStateVersion now : ℕ) (report : Except Exn Unit) : Except Exn Rows := do
  let (v, current) ← requireVerification rows verificationId
  requireStateVersion current expectedStateVersion
  ensure (current.currentState = .VERIFYING)
    (transitionError "Verification aggregation can only start from VERIFYING.")
  requireActiveDeadline v now
  let (verdicts, aggregation) ← aggregate c1.policy v.claims v.risks v.results current.revisionRound
  report
  let changes ← stateSequence current [(.AGGREGATING, "MODULE_RESULTS_AGGREGATING"),
    (decisionTarget aggregation.decision, "DECISION_" ++ aggregation.decision.value)]
  return rows.put { v with
    states := v.states ++ changes
    finalizations := v.finalizations ++ [⟨current.revisionRound, verdicts, aggregation⟩] }

/-! ### What the operations write -/

section written
variable {c1 : ControlPlane} {rows after : Rows} {id expectedStateVersion now : ℕ}

theorem requireVerification_ok {current : StateChange}
    (h : requireVerification rows id = .ok (v, current)) :
    rows.verifications id = some v ∧ v.states.getLast? = some current := by
  unfold requireVerification at h
  cases hv : rows.verifications id with
  | none =>
    rw [hv] at h
    cases h
  | some w =>
    rw [hv] at h
    cases hcurrent : w.states.getLast? with
    | none =>
      simp only [hcurrent] at h
      cases h
    | some change =>
      simp only [hcurrent, Except.ok.injEq, Prod.mk.injEq] at h
      rw [← h.1, ← h.2]
      exact ⟨rfl, hcurrent⟩

theorem checkSource_ok {candidate : Option Candidate} {request : VerificationRequest}
    (h : checkSource candidate request now = .ok ()) :
    ∃ c, candidate = some c ∧ c.candidateSha256 = request.candidateSha256 := by
  cases candidate with
  | none => cases h
  | some c =>
    obtain ⟨_, _, h⟩ := bind_eq_ok.mp h
    obtain ⟨_, hsha, _⟩ := bind_eq_ok.mp h
    exact ⟨c, rfl, ensure_eq_ok.mp hsha⟩

theorem acceptVerification_ok {request : VerificationRequest}
    (h : acceptVerification rows request now = .ok after) :
    rows.verifications request.verificationId = none ∧
      (∃ candidate, rows.candidates (request.candidateId, request.candidateVersion) = some candidate ∧
        candidate.candidateSha256 = request.candidateSha256) ∧
      after = rows.put (accepted request) := by
  obtain ⟨_, hnew, h⟩ := bind_eq_ok.mp h
  obtain ⟨_, hsource, h⟩ := bind_eq_ok.mp h
  exact ⟨Option.isNone_iff_eq_none.mp (ensure_eq_ok.mp hnew), checkSource_ok hsource,
    (Except.ok.inj h).symm⟩

theorem verifiedCandidate_ok {candidate : Candidate}
    (h : verifiedCandidate rows v = .ok candidate) :
    rows.candidates (v.request.candidateId, v.request.candidateVersion) = some candidate ∧
      candidate.candidateSha256 = v.request.candidateSha256 := by
  unfold verifiedCandidate at h
  cases hcandidate : rows.candidates (v.request.candidateId, v.request.candidateVersion) with
  | none =>
    rw [hcandidate] at h
    cases h
  | some c =>
    rw [hcandidate] at h
    obtain ⟨_, _, h⟩ := bind_eq_ok.mp h
    obtain ⟨_, hsha, h⟩ := bind_eq_ok.mp h
    obtain ⟨_, _, h⟩ := bind_eq_ok.mp h
    cases h
    exact ⟨rfl, ensure_eq_ok.mp hsha⟩

theorem extractClaims_ok {candidate : Candidate} {claims : List Claim}
    (h : extractClaims c1 candidate id = .ok claims) : c1.extract candidate id = .ok claims := by
  unfold extractClaims at h
  cases hextract : c1.extract candidate id with
  | error text =>
    rw [hextract] at h
    cases h
  | ok claims' =>
    rw [hextract] at h
    cases h
    rfl

theorem prepareControlPlane_ok (h : prepareControlPlane c1 rows id expectedStateVersion now = .ok after) :
    ∃ v current candidate claims risks plan changes critical, rows.verifications id = some v ∧
      v.states.getLast? = some current ∧
      (current.currentState = .ACCEPTED ∨ current.currentState = .REVERIFYING) ∧
      rows.candidates (v.request.candidateId, v.request.candidateVersion) = some candidate ∧
      candidate.candidateSha256 = v.request.candidateSha256 ∧
      c1.extract candidate id = .ok claims ∧
      stateSequence current (preparationTargets critical) = .ok changes ∧
      after = rows.put
        { v with states := v.states ++ changes, claims, risks, dispatchPlan := some plan } := by
  obtain ⟨⟨v, current⟩, hv, h⟩ := bind_eq_ok.mp h
  obtain ⟨_, _, h⟩ := bind_eq_ok.mp h
  obtain ⟨_, hstate, h⟩ := bind_eq_ok.mp h
  obtain ⟨_, _, h⟩ := bind_eq_ok.mp h
  obtain ⟨candidate, hcandidate, h⟩ := bind_eq_ok.mp h
  obtain ⟨_, _, h⟩ := bind_eq_ok.mp h
  obtain ⟨claims, hclaims, h⟩ := bind_eq_ok.mp h
  obtain ⟨plan, _, h⟩ := bind_eq_ok.mp h
  obtain ⟨changes, hchanges, h⟩ := bind_eq_ok.mp h
  obtain ⟨hrow, hcurrent⟩ := requireVerification_ok hv
  obtain ⟨hcandidate, hsha⟩ := verifiedCandidate_ok hcandidate
  exact ⟨v, current, candidate, claims, _, plan, changes, _, hrow, hcurrent, ensure_eq_ok.mp hstate,
    hcandidate, hsha, extractClaims_ok hclaims, hchanges, (Except.ok.inj h).symm⟩

theorem transitionState_ok {target : VerificationState} {reasonCode : String}
    (h : transitionState rows id expectedStateVersion target reasonCode now = .ok after) :
    ∃ v current changes, rows.verifications id = some v ∧ v.states.getLast? = some current ∧
      stateSequence current [(target, reasonCode)] = .ok changes ∧
      after = rows.put { v with states := v.states ++ changes } := by
  unfold transitionState at h
  cases hv : rows.verifications id with
  | none =>
    rw [hv] at h
    cases h
  | some v =>
    rw [hv] at h
    cases hcurrent : v.states.getLast? with
    | none =>
      simp only [hcurrent] at h
      cases h
    | some current =>
      simp only [hcurrent] at h
      obtain ⟨_, _, h⟩ := bind_eq_ok.mp h
      obtain ⟨_, _, h⟩ := bind_eq_ok.mp h
      obtain ⟨changes, hchanges, h⟩ := bind_eq_ok.mp h
      exact ⟨v, current, changes, rfl, hcurrent, hchanges, (Except.ok.inj h).symm⟩

theorem executeModules_ok {handlers : Handlers}
    (h : executeModules rows id expectedStateVersion handlers = .ok after) :
    ∃ v runs results, rows.verifications id = some v ∧ after = rows.put { v with runs, results } := by
  obtain ⟨_, _, h⟩ := bind_eq_ok.mp h
  obtain ⟨bundle, _, h⟩ := bind_eq_ok.mp h
  obtain ⟨_, _, h⟩ := bind_eq_ok.mp h
  obtain ⟨⟨v, current⟩, hv, h⟩ := bind_eq_ok.mp h
  obtain ⟨_, _, h⟩ := bind_eq_ok.mp h
  obtain ⟨_, _, h⟩ := bind_eq_ok.mp h
  obtain ⟨_, _, h⟩ := bind_eq_ok.mp h
  obtain ⟨_, _, h⟩ := bind_eq_ok.mp h
  exact ⟨v, _, _, (requireVerification_ok hv).1, (Except.ok.inj h).symm⟩

theorem finalizeControlPlane_ok {report : Except Exn Unit}
    (h : finalizeControlPlane c1 rows id expectedStateVersion now report = .ok after) :
    ∃ v current verdicts aggregation changes, rows.verifications id = some v ∧
      v.states.getLast? = some current ∧ current.currentState = .VERIFYING ∧
      aggregate c1.policy v.claims v.risks v.results current.revisionRound
        = .ok (verdicts, aggregation) ∧
      stateSequence current [(.AGGREGATING, "MODULE_RESULTS_AGGREGATING"),
        (decisionTarget aggregation.decision, "DECISION_" ++ aggregation.decision.value)] = .ok changes ∧
      after = rows.put { v with
        states := v.states ++ changes
        finalizations := v.finalizations ++ [⟨current.revisionRound, verdicts, aggregation⟩] } := by
  obtain ⟨⟨v, current⟩, hv, h⟩ := bind_eq_ok.mp h
  obtain ⟨_, _, h⟩ := bind_eq_ok.mp h
  obtain ⟨_, hstate, h⟩ := bind_eq_ok.mp h
  obtain ⟨_, _, h⟩ := bind_eq_ok.mp h
  obtain ⟨⟨verdicts, aggregation⟩, haggregate, h⟩ := bind_eq_ok.mp h
  obtain ⟨_, _, h⟩ := bind_eq_ok.mp h
  obtain ⟨changes, hchanges, h⟩ := bind_eq_ok.mp h
  obtain ⟨hrow, hcurrent⟩ := requireVerification_ok hv
  exact ⟨v, current, verdicts, aggregation, changes, hrow, hcurrent, ensure_eq_ok.mp hstate, haggregate,
    hchanges, (Except.ok.inj h).symm⟩

end written

end CyberControl.Verification
