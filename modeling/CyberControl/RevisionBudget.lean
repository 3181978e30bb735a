import CyberControl.Transition
import CyberControl.VerificationLifecycle

/-! # Revisions and their budget

`RevisionEngine.revise` (`revision/engine.py`) and `Topic4Runtime.revision` (`verification/runtime.py`),
and the runs of both with the operations of `VerificationService`: a candidate is verified, revised into
its next version, and that one is verified again.  The blocks of a candidate and the patches to them are
not modelled; what the checks on them come to, and the digest of the result, is given. -/

namespace CyberControl.Revision

open Transition Verification

/-! ### Requests -/

/-- `RevisionRequestV1`, with the bounds of the contract. -/
structure RevisionRequest where
  revisionRequestId : ℕ
  verificationId : ℕ
  originalCandidateId : ℕ
  originalCandidateVersion : ℕ
  originalCandidateSha256 : String
  targetAgent : String
  revisionRound : ℕ
  deadlineAt : ℕ
  version_pos : 1 ≤ originalCandidateVersion := by decide
  round_bounds : 1 ≤ revisionRound ∧ revisionRound ≤ 2 := by decide

/-- What the checks on the patches come to: `_validate_patch_set`, and with the artifacts and blocks the
digest of the revised candidate. -/
structure Patches where
  patchSet : Except Exn Unit
  revisedSha256 : Except Exn String

/-- `RevisionError`, `RevisionConflictError`, `RevisionLimitError`, `RevisionIntegrityError`: each is a
`ValueError`. -/
def revisionError (text : String) : Exn := .valueError text

def validateRequestBinding (request : RevisionRequest) (candidate : Candidate) (now : ℕ) :
    Except Exn Unit := do
  ensure (request.originalCandidateId = candidate.candidateId)
    (revisionError "revision request candidate id is stale")
  ensure (request.originalCandidateVersion = candidate.candidateVersion)
    (revisionError "revision request candidate version is stale")
  ensure (request.originalCandidateSha256 = candidate.candidateSha256)
    (revisionError "revision request candidate sha256 is stale")
  ensure (request.targetAgent = candidate.agent)
    (revisionError "revision target agent does not own the Candidate")
  ensure (now < request.deadlineAt) (revisionError "revision request deadline has expired")
  ensure (candidate.status = .COMPLETE) (revisionError "only a complete Candidate can be revised")

def validateRoundBudget (request : RevisionRequest) (candidate : Candidate) : Except Exn Unit := do
  ensure (request.revisionRound = candidate.candidateVersion)
    (revisionError "revision round must equal the immutable Candidate version being revised")
  ensure (request.revisionRound ≤ 2) (revisionError "a Candidate may be revised at most twice")

variable {request : RevisionRequest}

theorem validateRoundBudget_ok {candidate : Candidate} :
    validateRoundBudget request candidate = .ok () ↔
      request.revisionRound = candidate.candidateVersion := by
  constructor
  · intro h
    obtain ⟨_, hround, _⟩ := bind_eq_ok.mp h
    exact ensure_eq_ok.mp hround
  · intro h
    refine bind_eq_ok.mpr ⟨(), ensure_eq_ok.mpr h, ?_⟩
    exact ensure_eq_ok.mpr request.round_bounds.2

/-- Some request passes the budget of the engine exactly when the candidate has been revised at most
once. -/
theorem exists_withinBudget_iff (candidate : Candidate) :
    (∃ request, validateRoundBudget request candidate = .ok ()) ↔
      1 ≤ candidate.candidateVersion ∧ candidate.candidateVersion ≤ 2 := by
  constructor
  · rintro ⟨request, h⟩
    rw [← validateRoundBudget_ok.mp h]
    exact request.round_bounds
  · intro h
    refine ⟨{
      revisionRequestId := 0
      verificationId := 0
      originalCandidateId := candidate.candidateId
      originalCandidateVersion := candidate.candidateVersion
      originalCandidateSha256 := candidate.candidateSha256
      targetAgent := candidate.agent
      revisionRound := candidate.candidateVersion
      deadlineAt := 0
      version_pos := h.1
      round_bounds := h }, validateRoundBudget_ok.mpr rfl⟩

/-! ### The engine -/

structure ReverificationCommand where
  verificationId : ℕ
  parentVerificationId : ℕ
  candidateId : ℕ
  candidateVersion : ℕ
  candidateSha256 : String
  revisionRound : ℕ
deriving DecidableEq

structure RevisionOutcome where
  candidate : Candidate
  reverification : ReverificationCommand
deriving DecidableEq

/-- A completed `RevisionCycleV1` with its document. -/
structure Cycle where
  revisionRequestId : ℕ
  verificationId : ℕ
  revisionRound : ℕ
  outcome : RevisionOutcome

/-- The rows of a tenant with the completed revisions. -/
structure System where
  rows : Rows
  cycles : List Cycle

def buildCandidate (candidate : Candidate) (revisedSha256 : String) : Candidate :=
  { candidate with
    candidateVersion := candidate.candidateVersion + 1
    candidateSha256 := revisedSha256
    status := .COMPLETE }

/-- A unique key of the tables. -/
def uniqueViolation : Exn := .other "IntegrityError"

section engine

-- the `uuid5` of a verification with the version and the digest of a revised candidate
variable (childVerificationId : ℕ → ℕ → String → ℕ)

/-- The outcome of a revision into `revised`. -/
def outcome (request : RevisionRequest) (revised : Candidate) : RevisionOutcome where
  candidate := revised
  reverification := {
    verificationId :=
      childVerificationId request.verificationId revised.candidateVersion revised.candidateSha256
    parentVerificationId := request.verificationId
    candidateId := revised.candidateId
    candidateVersion := revised.candidateVersion
    candidateSha256 := revised.candidateSha256
    revisionRound := request.revisionRound }

def revise (s : System) (request : RevisionRequest) (candidate : Candidate) (patches : Patches)
    (now : ℕ) : Except Exn (System × RevisionOutcome) := do
  validateRequestBinding request candidate now
  patches.patchSet
  match s.cycles.find? fun cycle => cycle.revisionRequestId = request.revisionRequestId with
  | some cycle => return (s, cycle.outcome)
  | none => do
    validateRoundBudget request candidate
    let revisedSha256 ← patches.revisedSha256
    let revised := buildCandidate candidate revisedSha256
    ensure (∀ cycle ∈ s.cycles, (cycle.verificationId, cycle.revisionRound)
      ≠ (request.verificationId, request.revisionRound)) uniqueViolation
    ensure (s.rows.candidates (revised.candidateId, revised.candidateVersion)).isNone uniqueViolation
    let outcome := outcome childVerificationId request revised
    return (⟨s.rows.appendCandidate revised,
      s.cycles ++ [⟨request.revisionRequestId, request.verificationId, request.revisionRound,
        outcome⟩]⟩, outcome)

/-! ### `Topic4Runtime.revision` -/

/-- The clock readings of a revision, of the request for its reverification and of the acceptance. -/
structure Clock where
  revisedAt : ℕ
  requestedAt : ℕ
  acceptedAt : ℕ

/-- `timedelta(minutes=5)` in microseconds. -/
def reverificationDeadline : ℕ := 300000000

/-- `_request_for_candidate` with a parent request. -/
def requestForCandidate (parent : VerificationRequest) (outcome : RevisionOutcome) (now : ℕ) :
    VerificationRequest where
  verificationId := outcome.reverification.verificationId
  candidateId := outcome.candidate.candidateId
  candidateVersion := outcome.candidate.candidateVersion
  candidateSha256 := outcome.candidate.candidateSha256
  resourceType := outcome.candidate.resourceType
  deadlineAt := max (now + reverificationDeadline) parent.deadlineAt

/-- `revision`: the engine in a transaction of its own, then the acceptance of the reverification, unless
the process stops between the two.  Whatever the acceptance raises, the revision stays. -/
def revision (s : System) (request : RevisionRequest) (patches : Patches) (clock : Clock)
    (stops : Bool) : Except Exn System := do
  let (parent, _) ← requireVerification s.rows request.verificationId
  match s.rows.candidates (request.originalCandidateId, request.originalCandidateVersion) with
  | none => .error (revisionError "the original Candidate does not exist")
  | some candidate => do
    let (revised, outcome) ← revise childVerificationId s request candidate patches clock.revisedAt
    if stops then return revised
    else
      match acceptVerification revised.rows
          (requestForCandidate parent.request outcome clock.requestedAt) clock.acceptedAt with
      | .error _ => return revised
      | .ok rows => return { revised with rows }

/-! ### Runs -/

inductive Action where
  | accept (request : VerificationRequest) (now : ℕ)
  | prepare (verificationId expectedStateVersion now : ℕ)
  | startModules (verificationId expectedStateVersion now : ℕ)
  | executeModules (verificationId expectedStateVersion : ℕ) (handlers : Handlers)
  | finalize (verificationId expectedStateVersion now : ℕ) (report : Except Exn Unit)
  | revision (request : RevisionRequest) (patches : Patches) (clock : Clock) (stops : Bool)

def Action.finalizes : Action → Option ℕ
  | .finalize id _ _ _ => some id
  | _ => none

variable (c1 : ControlPlane)

/-- One call; the calls of `_execute_locked` are actions of their own. -/
def perform (s : System) : Action → Except Exn System
  | .accept request now => do
    let rows ← acceptVerification s.rows request now
    return { s with rows }
  | .prepare id expected now => do
    let rows ← prepareControlPlane c1 s.rows id expected now
    return { s with rows }
  | .startModules id expected now => do
    let rows ← transitionState s.rows id expected .VERIFYING "MODULE_EXECUTION_STARTED" now
    return { s with rows }
  | .executeModules id expected handlers => do
    let rows ← executeModules s.rows id expected handlers
    return { s with rows }
  | .finalize id expected now report => do
    let rows ← finalizeControlPlane c1 s.rows id expected now report
    return { s with rows }
  | .revision request patches clock stops =>
    revision childVerificationId s request patches clock stops

/-- A call that raises writes nothing and is no step. -/
def step (s : System) (action : Action) : Option System :=
  (perform childVerificationId c1 s action).toOption

end engine

/-! ### What one step writes -/

section steps
variable {childVerificationId : ℕ → ℕ → String → ℕ} {c1 : ControlPlane}

/-- What one transaction makes of a verification. -/
inductive Progress (v : VerificationRecord) : VerificationRecord → Prop
  /-- Its modules have run. -/
  | executed {v' : VerificationRecord} (hrequest : v'.request = v.request)
      (hstates : v'.states = v.states) (hfinalizations : v'.finalizations = v.finalizations) : Progress v v'
  /-- It is prepared, or its modules are started. -/
  | advanced {v' : VerificationRecord} {current : StateChange} {changes : List StateChange}
      (hcurrent : v.states.getLast? = some current)
      (hundecided : current.currentState ∈
        [VerificationState.ACCEPTED, .REVERIFYING, .MODULE_DISPATCHING])
      (hchanges : ∀ change ∈ changes, change.revisionRound = current.revisionRound ∧
        change.currentState ≠ .REVISION_PLANNING)
      (hrequest : v'.request = v.request) (hstates : v'.states = v.states ++ changes)
      (hfinalizations : v'.finalizations = v.finalizations) : Progress v v'
  /-- Its results are aggregated, with the round of its latest state. -/
  | finalized {v' : VerificationRecord} {current : StateChange} {changes : List StateChange}
      {verdicts : List ClaimVerdict} {aggregation : AggregationResult}
      (hcurrent : v.states.getLast? = some current) (hverifying : current.currentState = .VERIFYING)
      (hchanges : changes.map (·.currentState) = [.AGGREGATING, decisionTarget aggregation.decision])
      (hrequest : v'.request = v.request) (hstates : v'.states = v.states ++ changes)
      (hfinalizations : v'.finalizations
        = v.finalizations ++ [⟨current.revisionRound, verdicts, aggregation⟩]) : Progress v v'

/-- What one step that finalizes `target` makes of the verifications. -/
inductive Written (target : Option ℕ) (rows : Rows) : Rows → Prop
  | same {after : Rows} (h : after.verifications = rows.verifications) : Written target rows after
  | accepted {after : Rows} (request : VerificationRequest)
      (hnew : rows.verifications request.verificationId = none)
      (h : after.verifications = (rows.put (accepted request)).verifications) : Written target rows after
  | progress {v v' : VerificationRecord}
      (hv : rows.verifications v.request.verificationId = some v) (hprogress : Progress v v')
      (htarget : v'.finalizations = v.finalizations ∨ target = some v.request.verificationId) :
      Written target rows (rows.put v')

variable {v v' : VerificationRecord}

theorem Progress.request_eq (h : Progress v v') : v'.request = v.request := by
  cases h with
  | executed hrequest _ _ => exact hrequest
  | advanced _ _ _ hrequest _ _ => exact hrequest
  | finalized _ _ _ hrequest _ _ => exact hrequest

theorem Progress.finalizations_subset (h : Progress v v') :
    v.finalizations ⊆ v'.finalizations := by
  cases h with
  | executed _ _ hfinalizations =>
    rw [hfinalizations]
    exact List.Subset.refl _
  | advanced _ _ _ _ _ hfinalizations =>
    rw [hfinalizations]
    exact List.Subset.refl _
  | finalized _ _ _ _ _ hfinalizations =>
    rw [hfinalizations]
    exact List.subset_append_left _ _

theorem unplanned_changes {current : StateChange} {targets : List (VerificationState × String)}
    {changes : List StateChange} (h : stateSequence current targets = .ok changes)
    (hplanning : .REVISION_PLANNING ∉ targets.map Prod.fst) :
    ∀ change ∈ changes, change.revisionRound = current.revisionRound ∧
      change.currentState ≠ .REVISION_PLANNING := by
  obtain ⟨hstates, hrounds⟩ := stateSequence_ok h
  intro change hchange
  refine ⟨hrounds hplanning change hchange, ?_⟩
  intro hstate
  apply hplanning
  rw [← hstates, ← hstate]
  exact List.mem_map_of_mem hchange

theorem preparationTargets_unplanned (critical : Bool) :
    .REVISION_PLANNING ∉ (preparationTargets critical).map Prod.fst := by
  cases critical with
  | false => decide
  | true => decide

theorem eq_moduleDispatching {state : VerificationState} (h : .VERIFYING ∈ allowedTransitions state) :
    state = .MODULE_DISPATCHING := by
  revert h
  cases state <;> decide

section operations
variable {rows after : Rows} {target : Option ℕ} {id expected now : ℕ}

theorem Written.of_progress {v v' : VerificationRecord} (hv : rows.verifications id = some v)
    (hprogress : Progress v v') (h : after = rows.put v')
    (htarget : v'.finalizations = v.finalizations ∨ target = some id) : Written target rows after := by
  have hid := rows.verification_key id v hv
  rw [h]
  refine .progress ?_ hprogress ?_
  · rw [hid]
    exact hv
  · rw [hid]
    exact htarget

theorem written_accept {request : VerificationRequest}
    (h : acceptVerification rows request now = .ok after) : Written target rows after := by
  obtain ⟨hnew, -, h⟩ := acceptVerification_ok h
  exact .accepted request hnew (congrArg Rows.verifications h)

theorem written_prepare (h : prepareControlPlane c1 rows id expected now = .ok after) :
    Written target rows after := by
  obtain ⟨v, current, _, claims, risks, plan, changes, critical, hv, hcurrent, hstate, -, -, -, hchanges, h⟩ :=
    prepareControlPlane_ok h
  refine .of_progress hv ?_ h (.inl rfl)
  refine .advanced hcurrent ?_ (unplanned_changes hchanges (preparationTargets_unplanned critical)) rfl
    rfl rfl
  rcases hstate with hstate | hstate
  · simp [hstate]
  · simp [hstate]

theorem written_startModules {reasonCode : String}
    (h : transitionState rows id expected .VERIFYING reasonCode now = .ok after) :
    Written target rows after := by
  obtain ⟨v, current, changes, hv, hcurrent, hchanges, h⟩ := transitionState_ok h
  refine .of_progress hv ?_ h (.inl rfl)
  have hstate := eq_moduleDispatching (stateSequence_allowed hchanges)
  refine .advanced hcurrent ?_ (unplanned_changes hchanges (by simp)) rfl rfl rfl
  simp [hstate]

theorem written_executeModules {handlers : Handlers}
    (h : executeModules rows id expected handlers = .ok after) : Written target rows after := by
  obtain ⟨v, runs, results, hv, h⟩ := executeModules_ok h
  refine .of_progress hv ?_ h (.inl rfl)
  exact .executed rfl rfl rfl

theorem written_finalize {report : Except Exn Unit}
    (h : finalizeControlPlane c1 rows id expected now report = .ok after) :
    Written (some id) rows after := by
  obtain ⟨v, current, verdicts, aggregation, changes, hv, hcurrent, hstate, -, hchanges, h⟩ :=
    finalizeControlPlane_ok h
  refine .of_progress hv ?_ h (.inr rfl)
  exact .finalized hcurrent hstate (stateSequence_ok hchanges).1 rfl rfl rfl

end operations

variable {s after : System} {patches : Patches}

theorem revise_ok {candidate : Candidate}
    {now : ℕ} {outcome : RevisionOutcome}
    (h : revise childVerificationId s request candidate patches now = .ok (after, outcome)) :
    after.rows.verifications = s.rows.verifications ∧
      ∀ key c, s.rows.candidates key = some c → after.rows.candidates key = some c := by
  obtain ⟨_, _, h⟩ := bind_eq_ok.mp h
  obtain ⟨_, _, h⟩ := bind_eq_ok.mp h
  cases hcycle : s.cycles.find? fun cycle => cycle.revisionRequestId = request.revisionRequestId with
  | some cycle =>
    simp only [hcycle] at h
    cases h
    exact ⟨rfl, fun _ _ hc => hc⟩
  | none =>
    simp only [hcycle] at h
    obtain ⟨_, _, h⟩ := bind_eq_ok.mp h
    obtain ⟨revisedSha256, _, h⟩ := bind_eq_ok.mp h
    obtain ⟨_, _, h⟩ := bind_eq_ok.mp h
    obtain ⟨_, hnew, h⟩ := bind_eq_ok.mp h
    cases h
    have hnone := Option.isNone_iff_eq_none.mp (ensure_eq_ok.mp hnew)
    refine ⟨rfl, fun key c hc => ?_⟩
    have hne : key ≠ ((buildCandidate candidate revisedSha256).candidateId,
        (buildCandidate candidate revisedSha256).candidateVersion) := by
      rintro rfl
      exact absurd (hnone.symm.trans hc) (by simp)
    exact (Function.update_of_ne hne _ _).trans hc

theorem revision_ok {clock : Clock}
    {stops : Bool} (h : revision childVerificationId s request patches clock stops = .ok after) :
    ∃ revised : System, revised.rows.verifications = s.rows.verifications ∧
      (∀ key c, s.rows.candidates key = some c → revised.rows.candidates key = some c) ∧
      (after = revised ∨ ∃ child now rows, acceptVerification revised.rows child now = .ok rows ∧
        after = { revised with rows }) := by
  obtain ⟨⟨parent, current⟩, -, h⟩ := bind_eq_ok.mp h
  cases hcandidate : s.rows.candidates
      (request.originalCandidateId, request.originalCandidateVersion) with
  | none =>
    simp only [hcandidate] at h
    cases h
  | some candidate =>
    simp only [hcandidate] at h
    obtain ⟨⟨revised, outcome⟩, hrevise, h⟩ := bind_eq_ok.mp h
    obtain ⟨hsame, hkept⟩ := revise_ok hrevise
    refine ⟨revised, hsame, hkept, ?_⟩
    cases stops with
    | true =>
      cases h
      exact .inl rfl
    | false =>
      simp only [Bool.false_eq_true, if_false] at h
      cases haccept : acceptVerification revised.rows
          (requestForCandidate parent.request outcome clock.requestedAt) clock.acceptedAt with
      | error e =>
        simp only [haccept] at h
        cases h
        exact .inl rfl
      | ok rows =>
        simp only [haccept] at h
        cases h
        exact .inr ⟨_, _, rows, haccept, rfl⟩

variable {target : Option ℕ}

theorem written_revision {clock : Clock} {stops : Bool}
    (h : revision childVerificationId s request patches clock stops = .ok after) :
    Written target s.rows after.rows := by
  obtain ⟨revised, hsame, -, rfl | ⟨child, now, rows, haccept, rfl⟩⟩ := revision_ok h
  · exact .same hsame
  · obtain ⟨hnew, -, hrows⟩ := acceptVerification_ok haccept
    refine .accepted _ (hsame ▸ hnew) ?_
    rw [hrows]
    exact congrArg (fun table => Function.update table _ _) hsame

variable {action : Action}

/-- **One step.** It leaves the verifications as they are, accepts a new one, or moves one on. -/
theorem step_written (h : step childVerificationId c1 s action = some after) :
    Written action.finalizes s.rows after.rows := by
  have hok := eq_ok_of_toOption h
  have hrows : ∀ {x : Except Exn Rows}, (do let rows ← x; return { s with rows }) = .ok after →
      x = .ok after.rows := by
    intro x hx
    obtain ⟨rows, hrows, hafter⟩ := bind_eq_ok.mp hx
    cases hafter
    exact hrows
  cases action with
  | accept => exact written_accept (hrows hok)
  | prepare => exact written_prepare (hrows hok)
  | startModules => exact written_startModules (hrows hok)
  | executeModules => exact written_executeModules (hrows hok)
  | finalize => exact written_finalize (hrows hok)
  | revision request patches clock stops => exact written_revision hok

/-! ### The round before the decision -/

/-- The states after a decision, in which no operation of the control plane starts. -/
def decided : List VerificationState := [.RELEASE_PENDING, .REVISION_PLANNING, .REVIEW_REQUIRED, .BLOCKED]

theorem decisionTarget_decided (decision : AggregateDecision) : decisionTarget decision ∈ decided := by
  cases decision <;> decide

/-- Until its decision a verification has no round, and its decision is the last thing that happens to
it. -/
structure Unspent (v : VerificationRecord) : Prop where
  undecided : v.finalizations = [] →
    ∀ change ∈ v.states, change.revisionRound = 0 ∧ change.currentState ≠ .REVISION_PLANNING
  settled : v.finalizations ≠ [] → ∀ current ∈ v.states.getLast?, current.currentState ∈ decided
  rounds : ∀ f ∈ v.finalizations, f.revisionRound = 0

theorem unspent_accepted (request : VerificationRequest) : Unspent (accepted request) where
  undecided := by simp [accepted]
  settled := fun h => absurd rfl h
  rounds := by simp [accepted]

variable {v : VerificationRecord}

theorem Unspent.finalizations_eq_nil (h : Unspent v) {current : StateChange}
    (hcurrent : v.states.getLast? = some current) (hstate : current.currentState ∉ decided) :
    v.finalizations = [] := by
  by_contra hfinalized
  exact hstate (h.settled hfinalized current hcurrent)

theorem Unspent.progress (h : Unspent v) (hprogress : Progress v v') :
    Unspent v' := by
  cases hprogress with
  | executed hrequest hstates hfinalizations =>
    refine ⟨?_, ?_, ?_⟩
    · rw [hstates, hfinalizations]
      exact h.undecided
    · rw [hstates, hfinalizations]
      exact h.settled
    · rw [hfinalizations]
      exact h.rounds
  | @advanced current changes hcurrent hundecided hchanges hrequest hstates hfinalizations =>
    have hnone : v.finalizations = [] := by
      refine h.finalizations_eq_nil hcurrent ?_
      revert hundecided
      cases current.currentState <;> decide
    have hround := (h.undecided hnone current (List.mem_of_getLast? hcurrent)).1
    refine ⟨fun _ => ?_, fun hsome => absurd (hfinalizations.trans hnone) hsome, ?_⟩
    · intro change hchange
      rw [hstates] at hchange
      cases List.mem_append.mp hchange with
      | inl hold => exact h.undecided hnone change hold
      | inr hnew => exact ⟨(hchanges change hnew).1.trans hround, (hchanges change hnew).2⟩
    · rw [hfinalizations]
      exact h.rounds
  | @finalized current changes verdicts aggregation hcurrent hverifying hchanges hrequest hstates
      hfinalizations =>
      have hnone : v.finalizations = [] := by
        refine h.finalizations_eq_nil hcurrent ?_
        rw [hverifying]
        decide
      have hround := (h.undecided hnone current (List.mem_of_getLast? hcurrent)).1
      refine ⟨fun hempty => ?_, fun _ last hlast => ?_, fun f hf => ?_⟩
      · rw [hfinalizations] at hempty
        exact absurd hempty (by simp)
      · have hmap : changes.getLast?.map (·.currentState)
            = some (decisionTarget aggregation.decision) := by
          rw [← List.getLast?_map, hchanges]
          rfl
        obtain ⟨change, hchange, hstate⟩ := Option.map_eq_some_iff.mp hmap
        rw [hstates, List.getLast?_append, hchange] at hlast
        cases hlast
        rw [hstate]
        exact decisionTarget_decided aggregation.decision
      · rw [hfinalizations, hnone] at hf
        cases List.mem_singleton.mp hf
        exact hround

/-! ### Runs -/

variable {id : ℕ}

theorem Written.at {rows after : Rows} (h : Written target rows after)
    (hv : after.verifications id = some v) :
    rows.verifications id = some v ∨ (∃ request, v = Verification.accepted request) ∨
      ∃ w, rows.verifications id = some w ∧ Progress w v ∧
        (v.finalizations = w.finalizations ∨ target = some id) := by
  cases h with
  | same hsame =>
    rw [hsame] at hv
    exact .inl hv
  | accepted request hnew hafter =>
    rw [hafter] at hv
    by_cases hid : id = (Verification.accepted request).request.verificationId
    · rw [hid, Rows.put_self] at hv
      exact .inr (.inl ⟨request, (Option.some.inj hv).symm⟩)
    · rw [Rows.put_of_ne rows hid] at hv
      exact .inl hv
  | @progress w w' hrow hprogress htarget =>
    by_cases hid : id = w'.request.verificationId
    · rw [hid, Rows.put_self] at hv
      rw [← Option.some.inj hv, hid, hprogress.request_eq]
      exact .inr (.inr ⟨w, hrow, hprogress, htarget⟩)
    · rw [Rows.put_of_ne rows hid] at hv
      exact .inl hv

theorem Written.unspent {rows after : Rows} (hw : Written target rows after)
    (h : ∀ id, ∀ v ∈ rows.verifications id, Unspent v) : ∀ id, ∀ v ∈ after.verifications id, Unspent v := by
  intro id v hv
  rcases hw.at hv with hold | ⟨request, rfl⟩ | ⟨w, hrow, hprogress, -⟩
  · exact h id v hold
  · exact unspent_accepted request
  · exact (h id w hrow).progress hprogress

theorem Written.grows {rows after : Rows} (hw : Written target rows after)
    (hv : rows.verifications id = some v) :
    ∃ v', after.verifications id = some v' ∧ v'.request = v.request ∧
      v.finalizations ⊆ v'.finalizations := by
  cases hw with
  | same hsame =>
    rw [← hsame] at hv
    exact ⟨v, hv, rfl, List.Subset.refl _⟩
  | accepted request hnew hafter =>
    have hid : id ≠ (Verification.accepted request).request.verificationId := by
      intro hid
      rw [hid] at hv
      exact absurd (hnew.symm.trans hv) (by simp)
    rw [hafter, Rows.put_of_ne rows hid]
    exact ⟨v, hv, rfl, List.Subset.refl _⟩
  | @progress w w' hrow hprogress htarget =>
    by_cases hid : id = w'.request.verificationId
    · rw [hid, hprogress.request_eq, hrow] at hv
      cases hv
      rw [hid, Rows.put_self]
      exact ⟨w', rfl, hprogress.request_eq, hprogress.finalizations_subset⟩
    · rw [Rows.put_of_ne rows hid]
      exact ⟨v, hv, rfl, List.Subset.refl _⟩

/-- The action finalizes no verification of a revised candidate. -/
def FinalizesOriginal (s : System) (action : Action) : Prop :=
  ∀ id ∈ action.finalizes, ∀ v ∈ s.rows.verifications id, v.request.candidateVersion = 1

instance (s : System) (action : Action) : Decidable (FinalizesOriginal s action) :=
  inferInstanceAs (Decidable (∀ _ ∈ _, _))

/-- What the budget asks of a verification: its decision counts the earlier revisions of its candidate, a
candidate that has been revised twice is not revised again, and one for which the engine has no request
left is not put into revision planning. -/
structure BudgetCarried (s : System) (v : VerificationRecord) : Prop where
  round : ∀ f ∈ v.finalizations, f.revisionRound + 1 = v.request.candidateVersion
  exhausted : v.request.candidateVersion = 3 → ∀ f ∈ v.finalizations, f.aggregation.decision ≠ .REVISE
  plannable : (∃ change ∈ v.states, change.currentState = .REVISION_PLANNING) →
    ∀ candidate ∈ s.rows.candidates (v.request.candidateId, v.request.candidateVersion),
      ∃ request, validateRoundBudget request candidate = .ok ()

/-- The verifications of the rows are unspent, and those with a decision are of original candidates. -/
structure Original (s : System) : Prop where
  unspent : ∀ id, ∀ v ∈ s.rows.verifications id, Unspent v
  version : ∀ id, ∀ v ∈ s.rows.verifications id, v.finalizations ≠ [] → v.request.candidateVersion = 1

theorem Original.carried {s : System} (h : Original s)
    (hv : s.rows.verifications id = some v) : BudgetCarried s v where
  round := by
    intro f hf
    rw [(h.unspent id v hv).rounds f hf, h.version id v hv (List.ne_nil_of_mem hf)]
  exhausted := by
    intro hversion f hf
    rw [h.version id v hv (List.ne_nil_of_mem hf)] at hversion
    cases hversion
  plannable := by
    rintro ⟨change, hchange, hplanning⟩ candidate hcandidate
    have hfinalized : v.finalizations ≠ [] := fun hnone =>
      ((h.unspent id v hv).undecided hnone change hchange).2 hplanning
    have hkey := s.rows.candidate_key _ candidate hcandidate
    rw [exists_withinBudget_iff, (Prod.mk.inj hkey).2, h.version id v hv hfinalized]
    decide

theorem Original.step (h : Original s)
    (hcondition : FinalizesOriginal s action) (hstep : step childVerificationId c1 s action = some after) :
    Original after := by
  have hw := step_written hstep
  refine ⟨hw.unspent h.unspent, ?_⟩
  intro id v hv hfinalized
  rcases hw.at hv with hold | ⟨request, rfl⟩ | ⟨w, hrow, hprogress, htarget⟩
  · exact h.version id v hold hfinalized
  · exact absurd rfl hfinalized
  · rw [hprogress.request_eq]
    cases htarget with
    | inl hsame => exact h.version id w hrow (hsame ▸ hfinalized)
    | inr htarget => exact hcondition id htarget w hrow

theorem run_grows {actions : List Action}
    (h : run (step childVerificationId c1) s actions = some after)
    (hv : s.rows.verifications id = some v) :
    ∃ v', after.rows.verifications id = some v' ∧ v'.request = v.request ∧
      v.finalizations ⊆ v'.finalizations := by
  refine run_invariant (I := fun t : System => ∃ v', t.rows.verifications id = some v' ∧
    v'.request = v.request ∧ v.finalizations ⊆ v'.finalizations) ?_ ⟨v, hv, rfl, List.Subset.refl _⟩ h
  rintro t action t' ⟨w, hw, hrequest, hfinalizations⟩ hstep
  obtain ⟨w', hw', hrequest', hfinalizations'⟩ := (step_written hstep).grows hw
  exact ⟨w', hw', hrequest'.trans hrequest, List.Subset.trans hfinalizations hfinalizations'⟩

/-- A step that finalizes a verification of a revised candidate gives it a decision of round zero. -/
theorem exists_overdrawn (hunspent : ∀ id, ∀ v ∈ s.rows.verifications id, Unspent v)
    (hcondition : ¬ FinalizesOriginal s action)
    (hstep : step childVerificationId c1 s action = some after) :
    ∃ id, ∃ v ∈ after.rows.verifications id, ∃ f ∈ v.finalizations,
      f.revisionRound + 1 ≠ v.request.candidateVersion := by
  unfold FinalizesOriginal at hcondition
  push Not at hcondition
  obtain ⟨id, hid, v, hv, hversion⟩ := hcondition
  have hafter := (step_written hstep).unspent hunspent
  have hok := eq_ok_of_toOption hstep
  cases action with
  | finalize target expected now report =>
    cases hid
    obtain ⟨rows, hrows, hsome⟩ := bind_eq_ok.mp hok
    cases hsome
    obtain ⟨w, current, verdicts, aggregation, changes, hw, -, -, -, -, h⟩ := finalizeControlPlane_ok hrows
    have hsame : v = w := Option.some.inj (hv.symm.trans hw)
    rw [hsame] at hversion
    have hfound := Rows.put_self s.rows { w with
      states := w.states ++ changes
      finalizations := w.finalizations ++ [⟨current.revisionRound, verdicts, aggregation⟩] }
    rw [← h] at hfound
    refine ⟨_, _, hfound, ⟨current.revisionRound, verdicts, aggregation⟩, by simp, ?_⟩
    have hround := (hafter _ _ hfound).rounds ⟨current.revisionRound, verdicts, aggregation⟩ (by simp)
    intro hcarried
    apply hversion
    rw [← hcarried, hround]
  | accept request now => cases hid
  | prepare target expected now => cases hid
  | startModules target expected now => cases hid
  | executeModules target expected handlers => cases hid
  | revision request patches clock stops => cases hid

/-- **The revision budget.** In every run from a tenant without verifications, each verification is
finalized with round zero; so the budget is carried across the verifications exactly when no step
finalizes a verification of a revised candidate. -/
theorem rounds_carried_iff (childVerificationId : ℕ → ℕ → String → ℕ) (c1 : ControlPlane)
    {initial final : System} {actions : List Action} (hinitial : ∀ id, initial.rows.verifications id = none)
    (h : run (step childVerificationId c1) initial actions = some final) :
    (∀ id, ∀ v ∈ final.rows.verifications id, ∀ f ∈ v.finalizations, f.revisionRound = 0) ∧
      ((∀ id, ∀ v ∈ final.rows.verifications id, BudgetCarried final v) ↔
        AllSteps (step childVerificationId c1) FinalizesOriginal initial actions) := by
  have hunspent : ∀ id, ∀ v ∈ initial.rows.verifications id, Unspent v := by
    intro id v hv
    rw [hinitial] at hv
    cases hv
  have horiginal : Original initial := by
    refine ⟨hunspent, fun id v hv => ?_⟩
    rw [hinitial] at hv
    cases hv
  refine ⟨?_, ?_, ?_⟩
  · have hfinal := run_invariant (I := fun t : System => ∀ id, ∀ v ∈ t.rows.verifications id, Unspent v)
      (fun t action t' ht hstep => (step_written hstep).unspent ht) hunspent h
    exact fun id v hv => (hfinal id v hv).rounds
  · clear horiginal hinitial
    intro hcarried
    induction actions generalizing initial with
    | nil => trivial
    | cons action rest ih =>
      obtain ⟨next, hnext, hrest⟩ := run_cons_eq_some.mp h
      refine ⟨?_, fun t ht => ?_⟩
      · by_contra hcondition
        obtain ⟨id, v, hv, f, hf, hround⟩ := exists_overdrawn hunspent hcondition hnext
        obtain ⟨v', hv', hrequest, hfinalizations⟩ := run_grows hrest hv
        apply hround
        rw [(hcarried id v' hv').round f (hfinalizations hf), hrequest]
      · cases hnext.symm.trans ht
        exact ih hrest ((step_written hnext).unspent hunspent)
  · intro hcondition id v hv
    exact (run_invariant_of (fun t action t' ht hc hstep => Original.step ht hc hstep) horiginal
      hcondition h).carried hv

end steps

/-! ### A chain of three verifications -/

def lecture : Candidate where
  candidateId := 1
  candidateVersion := 1
  candidateSha256 := "v1"
  resourceType := "LECTURE"
  agent := "LECTURER"
  status := .COMPLETE

/-- A tenant with one candidate at its first version. -/
def oneLecture : System where
  rows := {
    candidates := fun key => if key = (1, 1) then some lecture else none
    verifications := fun _ => none
    candidate_key := by
      intro key candidate h
      split_ifs at h with hkey
      cases h
      exact hkey.symm
    verification_key := nofun }
  cycles := []

/-- One claim from each candidate. -/
def sampleControlPlane : ControlPlane where
  extract candidate verificationId := .ok [{
    claimId := verificationId
    verificationId
    candidateId := candidate.candidateId
    candidateVersion := candidate.candidateVersion
    candidateSha256 := candidate.candidateSha256
    blockId := "block"
    claimKind := .TEXT }]
  level _ := .HIGH
  dispatchItemId := sampleItemId
  policy := samplePolicy

/-- The academic module contradicts every claim. -/
def contradictingHandlers : Handlers :=
  sampleHandlers .C4_GRAPH fun module => if module = .C3_ACADEMIC then .CONTRADICTED else .SUPPORTED

def sampleChildId (verificationId candidateVersion : ℕ) (_ : String) : ℕ :=
  10 * verificationId + candidateVersion

def acceptLecture : Action :=
  .accept
    { verificationId := 1
      candidateId := 1
      candidateVersion := 1
      candidateSha256 := "v1"
      resourceType := "LECTURE"
      deadlineAt := 1000 } 0

/-- A verification from its acceptance to its decision. -/
def verify (verificationId : ℕ) : List Action :=
  [.prepare verificationId 1 0, .startModules verificationId 5 0,
    .executeModules verificationId 6 contradictingHandlers, .finalize verificationId 6 0 (.ok ())]

/-- The revision of a version of the lecture after a verification. -/
def reviseLecture (request : RevisionRequest) (revisedSha256 : String) : Action :=
  .revision request ⟨.ok (), .ok revisedSha256⟩ ⟨0, 0, 0⟩ false

def firstRevision : RevisionRequest where
  revisionRequestId := 1
  verificationId := 1
  originalCandidateId := 1
  originalCandidateVersion := 1
  originalCandidateSha256 := "v1"
  targetAgent := "LECTURER"
  revisionRound := 1
  deadlineAt := 1000

def secondRevision : RevisionRequest where
  revisionRequestId := 2
  verificationId := 12
  originalCandidateId := 1
  originalCandidateVersion := 2
  originalCandidateSha256 := "v2"
  targetAgent := "LECTURER"
  revisionRound := 2
  deadlineAt := 1000

/-- The first version of the lecture is verified, and its decision is within the budget. -/
theorem rounds_carried_iff_original : ∃ final v,
    run (step sampleChildId sampleControlPlane) oneLecture (acceptLecture :: verify 1) = some final ∧
      final.rows.verifications 1 = some v ∧ v.finalizations ≠ [] ∧ BudgetCarried final v := by
  have hrun : (run (step sampleChildId sampleControlPlane) oneLecture (acceptLecture :: verify 1)).map
      (fun final => (final.rows.verifications 1).map fun v => v.finalizations.length)
        = some (some 1) := by decide +kernel
  obtain ⟨final, hfinal, hfacts⟩ := Option.map_eq_some_iff.mp hrun
  obtain ⟨v, hv, hlength⟩ := Option.map_eq_some_iff.mp hfacts
  have hcarried := (rounds_carried_iff sampleChildId sampleControlPlane (fun _ => rfl) hfinal).2.mpr
    (by decide +kernel)
  refine ⟨final, v, hfinal, hv, ?_, hcarried 1 v hv⟩
  rw [ne_eq, ← List.length_eq_zero_iff, hlength]
  decide

/-- What a chain leaves of a verification. -/
structure Summary where
  candidateKey : ℕ × ℕ
  decisions : List (ℕ × AggregateDecision)
  state : Option VerificationState
deriving DecidableEq

def summary (v : VerificationRecord) : Summary where
  candidateKey := (v.request.candidateId, v.request.candidateVersion)
  decisions := v.finalizations.map fun f => (f.revisionRound, f.aggregation.decision)
  state := v.states.getLast?.map (·.currentState)

/-- The lecture is contradicted at each of its versions.  After two revisions its third version is
finalized with round zero, gets the decision to revise and is put into revision planning, and the engine
rejects every request for it. -/
theorem revised_twice_revises_again : ∃ final v f candidate,
    run (step sampleChildId sampleControlPlane) oneLecture
      (acceptLecture :: verify 1 ++ reviseLecture firstRevision "v2" :: verify 12 ++
        reviseLecture secondRevision "v3" :: verify 123) = some final ∧
      final.rows.verifications 123 = some v ∧ v.request.candidateVersion = 3 ∧
      f ∈ v.finalizations ∧ f.revisionRound = 0 ∧ f.aggregation.decision = .REVISE ∧
      v.states.getLast?.map (·.currentState) = some .REVISION_PLANNING ∧
      final.rows.candidates (v.request.candidateId, v.request.candidateVersion) = some candidate ∧
      ∀ request, validateRoundBudget request candidate ≠ .ok () := by
  have hrun : (run (step sampleChildId sampleControlPlane) oneLecture
      (acceptLecture :: verify 1 ++ reviseLecture firstRevision "v2" :: verify 12 ++
        reviseLecture secondRevision "v3" :: verify 123)).map (fun final =>
          ((final.rows.verifications 123).map summary,
            (final.rows.candidates (1, 3)).map (·.candidateVersion)))
        = some (some ⟨(1, 3), [(0, .REVISE)], some .REVISION_PLANNING⟩, some 3) := by decide +kernel
  obtain ⟨final, hfinal, hfacts⟩ := Option.map_eq_some_iff.mp hrun
  obtain ⟨hrow, hcandidate⟩ := Prod.mk.inj hfacts
  obtain ⟨v, hv, hsummary⟩ := Option.map_eq_some_iff.mp hrow
  obtain ⟨candidate, hcandidate, hversion⟩ := Option.map_eq_some_iff.mp hcandidate
  obtain ⟨hkey, hdecisions, hstate⟩ := Summary.mk.inj hsummary
  obtain ⟨f, hf, hround⟩ := List.map_eq_singleton_iff.mp hdecisions
  obtain ⟨hround, hdecision⟩ := Prod.mk.inj hround
  refine ⟨final, v, f, candidate, hfinal, hv, (Prod.mk.inj hkey).2, by simp [hf], hround, hdecision,
    hstate, ?_, ?_⟩
  · rw [hkey]
    exact hcandidate
  · intro request hbudget
    have hbounds := (exists_withinBudget_iff candidate).mp ⟨request, hbudget⟩
    omega

end CyberControl.Revision
