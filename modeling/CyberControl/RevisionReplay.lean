import CyberControl.CandidateHandOff
import CyberControl.RevisionCandidate

/-! # Repeated revisions

`Topic4Runtime.revision` (`verification/runtime.py`) over `RevisionEngine.revise`, with the idempotency
records of `VerificationService.accept_verification`.  A call is three steps: the transaction of the
engine, the acceptance of the reverification and its entry into the task queue.  Calls interleave, and one
that stops between two steps takes no further one. -/

namespace CyberControl.RevisionReplay

open Transition Verification Revision
open BlockRevision (CandidateV1 Contracts PatchRequest RevisionPatchV1 validatePatchSet
  loadReplacementBlocks)
open Topic3 (BlockV1)

/-! ### Arguments -/

/-- What a request says. -/
def fieldsOf (r : RevisionRequest) : (ℕ × ℕ × ℕ × ℕ) × (String × String × ℕ × ℕ) :=
  ((r.revisionRequestId, r.verificationId, r.originalCandidateId, r.originalCandidateVersion),
    (r.originalCandidateSha256, r.targetAgent, r.revisionRound, r.deadlineAt))

theorem fieldsOf_injective : Function.Injective fieldsOf := by
  rintro ⟨⟩ ⟨⟩ h
  simp only [fieldsOf, Prod.mk.injEq] at h
  obtain ⟨⟨rfl, rfl, rfl, rfl⟩, rfl, rfl, rfl, rfl⟩ := h
  rfl

instance : DecidableEq RevisionRequest := fieldsOf_injective.decidableEq

deriving instance DecidableEq for PatchRequest

/-- `RevisionRequestV1` with its patches. -/
structure RevisionArguments where
  request : RevisionRequest
  binding : PatchRequest
  instructionsArtifact : String
  instructionsSha256 : String
  patches : List RevisionPatchV1
deriving DecidableEq

/-- The identifiers that the engine derives, what it reads from the store of artifacts, and the documents
of the candidates. -/
structure Engine where
  childVerificationId : ℕ → ℕ → String → ℕ
  planId : ℕ → ℕ
  contracts : Contracts
  readBlock : String → Except Exn BlockV1
  verifyArtifact : String → String → Except Exn Unit
  document : Candidate → CandidateV1

/-- What `revise` makes of the patches to a candidate. -/
def Engine.patches (engine : Engine) (arguments : RevisionArguments) (candidate : Candidate) (now : ℕ) :
    Patches where
  patchSet := validatePatchSet arguments.binding arguments.patches
  revisedSha256 := do
    engine.verifyArtifact arguments.instructionsArtifact arguments.instructionsSha256
    let original := engine.document candidate
    let replacements ←
      loadReplacementBlocks engine.contracts engine.readBlock original arguments.patches
    let revised ←
      BlockRevision.buildCandidate engine.contracts original arguments.patches replacements now
    ensure (∀ patch ∈ arguments.patches,
        patch.revisionPlanId = engine.planId arguments.request.revisionRequestId)
      (revisionError "patches must reference the derived immutable plan id")
    return revised.candidateSha256

/-! ### The tenant -/

/-- The document of a verification request, whose digest its idempotency record keeps. -/
structure RequestDocument where
  request : VerificationRequest
  parentVerificationId : Option ℕ
  sourceEnvelopeId : ℕ
  traceId : String
  requestedAt : ℕ
deriving DecidableEq

/-- How far a call has come. -/
inductive Stage where
  /-- The transaction of the engine is committed. -/
  | revised (outcome : RevisionOutcome) (parent : VerificationRequest)
  /-- The reverification is accepted. -/
  | accepted (outcome : RevisionOutcome)
  | returned (outcome : RevisionOutcome)
  | raised (error : Exn)
deriving DecidableEq

/-- A revision whose transaction is committed. -/
structure Completed where
  arguments : RevisionArguments
  outcome : RevisionOutcome
deriving DecidableEq

/-- Its row. -/
def Completed.cycle (done : Completed) : Cycle where
  revisionRequestId := done.arguments.request.revisionRequestId
  verificationId := done.arguments.request.verificationId
  revisionRound := done.arguments.request.revisionRound
  outcome := done.outcome

/-- A call, with the completed revision of its request identifier when it started. -/
structure Call where
  arguments : RevisionArguments
  completed : Option Completed
  stage : Stage
deriving DecidableEq

/-- The rows of a tenant, its completed revisions, the idempotency records under the verifications that
their keys are made of, the verifications that have been put into the queue, and the calls. -/
structure Tenant where
  system : System
  completed : List Completed
  records : ℕ → Option RequestDocument
  queue : List ℕ
  calls : ℕ → Option Call

/-- The completed revision of a request. -/
def Tenant.completedBy (t : Tenant) (revisionRequestId : ℕ) : Option Completed :=
  t.completed.find? fun done => done.arguments.request.revisionRequestId = revisionRequestId

/-- The verification exists. -/
def Tenant.Accepted (t : Tenant) (verificationId : ℕ) : Prop :=
  (t.system.rows.verifications verificationId).isSome

instance (t : Tenant) (verificationId : ℕ) : Decidable (t.Accepted verificationId) :=
  inferInstanceAs (Decidable (_ = _))

def Tenant.setCall (t : Tenant) (i : ℕ) (call : Call) : Tenant :=
  { t with calls := Function.update t.calls i (some call) }

/-! ### `Topic4Runtime.revision` -/

section operations
variable (engine : Engine)

/-- The parent and the transaction of the engine. -/
def reviseTransaction (s : System) (arguments : RevisionArguments) (now : ℕ) :
    Except Exn (System × RevisionOutcome × VerificationRequest) := do
  let request := arguments.request
  let (parent, _) ← requireVerification s.rows request.verificationId
  match s.rows.candidates (request.originalCandidateId, request.originalCandidateVersion) with
  | none => .error (revisionError "the original Candidate does not exist")
  | some candidate => do
    let (revised, outcome) ← revise engine.childVerificationId s request candidate
      (engine.patches arguments candidate now) now
    return (revised, outcome, parent.request)

/-- A call begins. -/
def Tenant.revise (t : Tenant) (i : ℕ) (arguments : RevisionArguments) (now : ℕ) : Tenant :=
  let completed := t.completedBy arguments.request.revisionRequestId
  match reviseTransaction engine t.system arguments now with
  | .error e => t.setCall i ⟨arguments, completed, .raised e⟩
  | .ok (system, outcome, parent) =>
    let after := t.setCall i ⟨arguments, completed, .revised outcome parent⟩
    { after with
      system
      completed := if completed.isSome then t.completed else t.completed ++ [⟨arguments, outcome⟩] }

/-- `MessageConflictError` of `_reserve_idempotency`. -/
def keyReused : Exn :=
  .liyan (MessageConflictError .MESSAGE_DUPLICATE_CONFLICT
    "The idempotency key was reused for different Topic 4 content.")

/-- `accept_verification` in `_execute_mutation`. -/
def Tenant.acceptVerification (t : Tenant) (document : RequestDocument) (now : ℕ) : Except Exn Tenant :=
  match t.records document.request.verificationId with
  | some stored => do
    ensure (stored = document) keyReused
    return t
  | none => do
    let rows ← Verification.acceptVerification t.system.rows document.request now
    return { t with
      system := { t.system with rows }
      records := Function.update t.records document.request.verificationId (some document) }

/-- The request of `_request_for_candidate` for the reverification. -/
def reverificationRequest (arguments : RevisionArguments) (outcome : RevisionOutcome)
    (parent : VerificationRequest) (traceId : String) (requestedAt : ℕ) : RequestDocument where
  request := requestForCandidate parent outcome requestedAt
  parentVerificationId := some arguments.request.verificationId
  sourceEnvelopeId := arguments.request.revisionRequestId
  traceId
  requestedAt

/-- The acceptance of the reverification; a conflict of Topic 4 is passed over. -/
def Tenant.reverify (t : Tenant) (i : ℕ) (call : Call) (outcome : RevisionOutcome)
    (document : RequestDocument) (now : ℕ) : Tenant :=
  match t.acceptVerification document now with
  | .ok after => after.setCall i { call with stage := .accepted outcome }
  | .error e =>
    if HandOff.isConflict e then t.setCall i { call with stage := .accepted outcome }
    else t.setCall i { call with stage := .raised e }

/-- `enqueue`, and the call returns. -/
def Tenant.enqueue (t : Tenant) (i : ℕ) (call : Call) (outcome : RevisionOutcome) : Tenant :=
  let after := t.setCall i { call with stage := .returned outcome }
  { after with queue := t.queue ++ [outcome.reverification.verificationId] }

/-- A step of a call, or another acceptance of a verification. -/
inductive Action where
  | revise (i : ℕ) (arguments : RevisionArguments) (now : ℕ)
  | reverify (i : ℕ) (traceId : String) (requestedAt acceptedAt : ℕ)
  | enqueue (i : ℕ)
  | acceptVerification (document : RequestDocument) (now : ℕ)

def step (t : Tenant) : Action → Option Tenant
  | .revise i arguments now =>
    match t.calls i with
    | none => some (t.revise engine i arguments now)
    | some _ => none
  | .reverify i traceId requestedAt acceptedAt =>
    match t.calls i with
    | some ⟨arguments, completed, .revised outcome parent⟩ =>
      some (t.reverify i ⟨arguments, completed, .revised outcome parent⟩ outcome
        (reverificationRequest arguments outcome parent traceId requestedAt) acceptedAt)
    | _ => none
  | .enqueue i =>
    match t.calls i with
    | some ⟨arguments, completed, .accepted outcome⟩ =>
      some (t.enqueue i ⟨arguments, completed, .accepted outcome⟩ outcome)
    | _ => none
  | .acceptVerification document now => (t.acceptVerification document now).toOption

end operations

/-! ### Idempotency -/

/-- The call gives the outcome, has its reverification accepted before it is enqueued, and has it enqueued
before it returns. -/
def Answered (t : Tenant) (outcome : RevisionOutcome) : Stage → Prop
  | .revised given _ => given = outcome
  | .accepted given => given = outcome ∧ t.Accepted outcome.reverification.verificationId
  | .returned given => given = outcome ∧ t.Accepted outcome.reverification.verificationId ∧
      outcome.reverification.verificationId ∈ t.queue
  | .raised _ => False

/-- The call does not get beyond the acceptance. -/
def Refused : Stage → Prop
  | .revised _ _ => True
  | .accepted _ => False
  | .returned _ => False
  | .raised _ => True

/-- A call that repeats a completed revision is answered with its outcome, and one that reuses its
identifier for other arguments is refused. -/
def Call.Idempotent (t : Tenant) (call : Call) : Prop :=
  ∀ done ∈ call.completed, (call.arguments = done.arguments → Answered t done.outcome call.stage) ∧
    (call.arguments ≠ done.arguments → Refused call.stage)

/-- Every call of the tenant is idempotent. -/
def Idempotent (t : Tenant) : Prop := ∀ i, ∀ call ∈ t.calls i, call.Idempotent t

/-- The completed revisions are the rows of the engine, one for each request identifier, and each has added
one version of a candidate, and nothing else has. -/
structure OneVersionEach (initial final : Tenant) : Prop where
  cycles : final.system.cycles = final.completed.map Completed.cycle
  once : (final.completed.map (·.arguments.request.revisionRequestId)).Nodup
  versions : ∀ key, final.system.rows.candidates key
    = ((final.completed.map (·.outcome.candidate)).find? fun candidate =>
        (candidate.candidateId, candidate.candidateVersion) = key).or (initial.system.rows.candidates key)

/-- The acceptance goes through: its request is the one stored under the key, or the key is free and the
verification exists already or the deadline is not over. -/
def AcceptPasses (t : Tenant) (document : RequestDocument) (now : ℕ) : Prop :=
  (∀ stored ∈ t.records document.request.verificationId, stored = document) ∧
    (t.records document.request.verificationId = none →
      t.Accepted document.request.verificationId ∨ now < document.request.deadlineAt)

instance (t : Tenant) (document : RequestDocument) (now : ℕ) : Decidable (AcceptPasses t document now) :=
  inferInstanceAs (Decidable (_ ∧ _))

/-- The request that a call accepts next. -/
def Call.reverification (call : Call) (traceId : String) (requestedAt : ℕ) : Option RequestDocument :=
  match call.stage with
  | .revised outcome parent => some (reverificationRequest call.arguments outcome parent traceId requestedAt)
  | _ => none

/-- A completed request is repeated before its deadline, and its reverification is accepted for the
arguments of the completed revision only. -/
def Repeatable (t : Tenant) : Action → Prop
  | .revise _ arguments now =>
    ∀ done ∈ t.completedBy arguments.request.revisionRequestId, arguments = done.arguments →
      now < arguments.request.deadlineAt
  | .reverify i traceId requestedAt acceptedAt =>
    ∀ call ∈ t.calls i, ∀ done ∈ call.completed,
      ∀ document ∈ call.reverification traceId requestedAt,
        (AcceptPasses t document acceptedAt ↔ call.arguments = done.arguments)
  | .enqueue _ => True
  | .acceptVerification _ _ => True

instance (t : Tenant) : DecidablePred (Repeatable t)
  | .revise _ _ _ => inferInstanceAs (Decidable (∀ _ ∈ _, _))
  | .reverify _ _ _ _ => inferInstanceAs (Decidable (∀ _ ∈ _, _))
  | .enqueue _ => inferInstanceAs (Decidable True)
  | .acceptVerification _ _ => inferInstanceAs (Decidable True)

/-! ### The engine -/

section transactions
variable {engine : Engine} {request : RevisionRequest} {candidate : Candidate} {patches : Patches}
  {now : ℕ}

/-- What the binding asks for besides the deadline. -/
structure Bound (request : RevisionRequest) (candidate : Candidate) : Prop where
  candidateId : request.originalCandidateId = candidate.candidateId
  version : request.originalCandidateVersion = candidate.candidateVersion
  sha256 : request.originalCandidateSha256 = candidate.candidateSha256
  agent : request.targetAgent = candidate.agent
  complete : candidate.status = .COMPLETE

theorem validateRequestBinding_ok :
    validateRequestBinding request candidate now = .ok () ↔
      Bound request candidate ∧ now < request.deadlineAt := by
  unfold validateRequestBinding
  simp only [unit_bind_eq_ok, ensure_eq_ok]
  constructor
  · rintro ⟨hid, hversion, hsha256, hagent, hdeadline, hcomplete⟩
    exact ⟨⟨hid, hversion, hsha256, hagent, hcomplete⟩, hdeadline⟩
  · rintro ⟨h, hdeadline⟩
    exact ⟨h.candidateId, h.version, h.sha256, h.agent, hdeadline, h.complete⟩

theorem revise_replayed {child : ℕ → ℕ → String → ℕ} {s : System} {cycle : Cycle}
    (hfound : s.cycles.find? (fun cycle => cycle.revisionRequestId = request.revisionRequestId)
      = some cycle) {after : System × RevisionOutcome} :
    Revision.revise child s request candidate patches now = .ok after ↔
      (Bound request candidate ∧ now < request.deadlineAt) ∧ patches.patchSet = .ok () ∧
        after = (s, cycle.outcome) := by
  unfold Revision.revise
  simp only [unit_bind_eq_ok, validateRequestBinding_ok, hfound]
  refine and_congr_right fun _ => and_congr_right fun _ => ?_
  exact ⟨fun h => (Except.ok.inj h).symm, fun h => h ▸ rfl⟩

theorem revise_new {child : ℕ → ℕ → String → ℕ} {s after : System} {outcome : RevisionOutcome}
    (hnone : s.cycles.find? (fun cycle => cycle.revisionRequestId = request.revisionRequestId) = none)
    (h : Revision.revise child s request candidate patches now = .ok (after, outcome)) :
    (Bound request candidate ∧ now < request.deadlineAt) ∧ patches.patchSet = .ok () ∧
      outcome.candidate.status = .COMPLETE ∧
      s.rows.candidates (outcome.candidate.candidateId, outcome.candidate.candidateVersion) = none ∧
      after = ⟨s.rows.appendCandidate outcome.candidate,
        s.cycles ++ [⟨request.revisionRequestId, request.verificationId, request.revisionRound,
          outcome⟩]⟩ := by
  unfold Revision.revise at h
  simp only [unit_bind_eq_ok, validateRequestBinding_ok, hnone] at h
  obtain ⟨hbound, hpatchSet, _, h⟩ := h
  obtain ⟨revisedSha256, _, h⟩ := bind_eq_ok.mp h
  simp only [unit_bind_eq_ok, ensure_eq_ok] at h
  obtain ⟨_, hnew, h⟩ := h
  cases h
  exact ⟨hbound, hpatchSet, rfl, Option.isNone_iff_eq_none.mp hnew, rfl⟩

end transactions

/-! ### What the rows keep -/

variable {done : Completed} {id : ℕ}

section rows
variable {engine : Engine} {rows after : Rows}

/-- No candidate and no verification is lost. -/
structure Extends (rows after : Rows) : Prop where
  candidates : ∀ key candidate, rows.candidates key = some candidate → after.candidates key = some candidate
  verifications : ∀ id v, rows.verifications id = some v → after.verifications id = some v

theorem Extends.refl (rows : Rows) : Extends rows rows := ⟨fun _ _ h => h, fun _ _ h => h⟩

theorem extends_appendCandidate {candidate : Candidate}
    (hnew : rows.candidates (candidate.candidateId, candidate.candidateVersion) = none) :
    Extends rows (rows.appendCandidate candidate) where
  candidates key c h := by
    have hne : key ≠ (candidate.candidateId, candidate.candidateVersion) := by
      rintro rfl
      exact absurd (hnew.symm.trans h) (by simp)
    exact (Function.update_of_ne hne _ _).trans h
  verifications _ _ h := h

theorem extends_put {request : VerificationRequest}
    (hnew : rows.verifications request.verificationId = none) :
    Extends rows (rows.put (accepted request)) where
  candidates _ _ h := h
  verifications id v h := by
    have hne : id ≠ request.verificationId := by
      rintro rfl
      exact absurd (hnew.symm.trans h) (by simp)
    exact (Rows.put_of_ne rows hne).trans h

theorem Extends.requireVerification (h : Extends rows after)
    {found : VerificationRecord × StateChange} (hfound : requireVerification rows id = .ok found) :
    Verification.requireVerification after id = .ok found := by
  have hv := h.verifications id found.1 (requireVerification_ok hfound).1
  unfold Verification.requireVerification at hfound ⊢
  rw [hv]
  rw [(requireVerification_ok hfound).1] at hfound
  exact hfound

/-- What makes a completed revision pass its own checks again, and its reverification pass those on its
source. -/
structure Committed (rows : Rows) (done : Completed) : Prop where
  parent : ∃ found, requireVerification rows done.arguments.request.verificationId = .ok found
  original : ∃ candidate, rows.candidates (done.arguments.request.originalCandidateId,
    done.arguments.request.originalCandidateVersion) = some candidate ∧
      Bound done.arguments.request candidate
  patchSet : validatePatchSet done.arguments.binding done.arguments.patches = .ok ()
  revised : rows.candidates (done.outcome.candidate.candidateId, done.outcome.candidate.candidateVersion)
    = some done.outcome.candidate
  complete : done.outcome.candidate.status = .COMPLETE

theorem Committed.extends (h : Committed rows done) (hextends : Extends rows after) :
    Committed after done where
  parent := by
    obtain ⟨found, hfound⟩ := h.parent
    exact ⟨found, hextends.requireVerification hfound⟩
  original := by
    obtain ⟨candidate, hcandidate, hbound⟩ := h.original
    exact ⟨candidate, hextends.candidates _ _ hcandidate, hbound⟩
  patchSet := h.patchSet
  revised := hextends.candidates _ _ h.revised
  complete := h.complete

end rows

/-! ### What the tenant keeps -/

section tenant
variable {engine : Engine} {t t' : Tenant} {i : ℕ} {call : Call}

/-- The rows of the engine are the completed revisions, and every call for one of them that was not refused
has its outcome. -/
structure Consistent (t : Tenant) : Prop where
  cycles : t.system.cycles = t.completed.map Completed.cycle
  committed : ∀ done ∈ t.completed, Committed t.system.rows done
  records : ∀ id, (t.records id).isSome → t.Accepted id
  calls : ∀ i, ∀ call ∈ t.calls i, ∀ done ∈ call.completed,
    done ∈ t.completed ∧ (Answered t done.outcome call.stage ∨ ∃ e, call.stage = .raised e)

/-- Nothing of the tenant is lost. -/
structure Grows (t t' : Tenant) : Prop where
  rows : Extends t.system.rows t'.system.rows
  completed : t.completed ⊆ t'.completed
  queue : t.queue ⊆ t'.queue

theorem Grows.accepted (h : Grows t t') (haccepted : t.Accepted id) : t'.Accepted id := by
  obtain ⟨v, hv⟩ := Option.isSome_iff_exists.mp haccepted
  exact Option.isSome_iff_exists.mpr ⟨v, h.rows.verifications id v hv⟩

variable {outcome : RevisionOutcome}

theorem Grows.answered (h : Grows t t') {stage : Stage}
    (hanswered : Answered t outcome stage) : Answered t' outcome stage := by
  cases stage with
  | revised given parent => exact hanswered
  | accepted given => exact ⟨hanswered.1, h.accepted hanswered.2⟩
  | returned given => exact ⟨hanswered.1, h.accepted hanswered.2.1, h.queue hanswered.2.2⟩
  | raised e => exact hanswered

theorem Consistent.setCall (h : Consistent t) (call : Call) (hgrows : Grows t t')
    (hcycles : t'.system.cycles = t'.completed.map Completed.cycle)
    (hcommitted : ∀ done ∈ t'.completed, done ∈ t.completed ∨ Committed t'.system.rows done)
    (hrecords : ∀ id, (t'.records id).isSome → t'.Accepted id)
    (hcalls : t'.calls = Function.update t.calls i (some call))
    (hcall : ∀ done ∈ call.completed,
      done ∈ t'.completed ∧ (Answered t' done.outcome call.stage ∨ ∃ e, call.stage = .raised e)) :
    Consistent t' where
  cycles := hcycles
  committed done hdone := (hcommitted done hdone).elim
    (fun hold => (h.committed done hold).extends hgrows.rows) id
  records := hrecords
  calls j other hother done hdone := by
    rw [hcalls] at hother
    by_cases hj : j = i
    · rw [hj, Function.update_self] at hother
      cases hother
      exact hcall done hdone
    · rw [Function.update_of_ne hj] at hother
      obtain ⟨hmem, hstage⟩ := h.calls j other hother done hdone
      exact ⟨hgrows.completed hmem, hstage.imp_left hgrows.answered⟩

/-- Whether a call is idempotent shows in its stage. -/
def Call.Verdict (call : Call) : Prop :=
  ∀ done ∈ call.completed, (call.arguments = done.arguments → ∀ e, call.stage ≠ .raised e) ∧
    (call.arguments ≠ done.arguments → Refused call.stage)

theorem Consistent.idempotent_iff (h : Consistent t) :
    Idempotent t ↔ ∀ j, ∀ call ∈ t.calls j, call.Verdict := by
  refine forall_congr' fun j => forall₂_congr fun call hcall => forall₂_congr fun done hdone => ?_
  refine and_congr_left fun _ => imp_congr_right fun _ => ?_
  obtain ⟨-, hanswered | ⟨e, he⟩⟩ := h.calls j call hcall done hdone
  · refine iff_of_true hanswered fun e he => ?_
    rw [he] at hanswered
    exact hanswered
  · rw [he]
    exact iff_of_false id fun hne => hne e rfl

/-- The verdict on the call that a step changes decides whether the step keeps idempotency. -/
theorem idempotent_setCall (h : Consistent t) (h' : Consistent t')
    (hcalls : t'.calls = Function.update t.calls i (some call)) {condition : Prop}
    (hverdict : call.Verdict ↔ (∀ before ∈ t.calls i, before.Verdict) ∧ condition) :
    Idempotent t' ↔ Idempotent t ∧ condition := by
  rw [h.idempotent_iff, h'.idempotent_iff, hcalls]
  have hupdated := Function.forall_update_iff t.calls (a := i) (b := some call)
    fun _ (c : Option Call) => ∀ call ∈ c, call.Verdict
  rw [hupdated]
  constructor
  · rintro ⟨hi, hothers⟩
    obtain ⟨hbefore, hcondition⟩ := hverdict.mp (hi call rfl)
    refine ⟨fun j => ?_, hcondition⟩
    by_cases hj : j = i
    · rw [hj]
      exact hbefore
    · exact hothers j hj
  · rintro ⟨hall, hcondition⟩
    refine ⟨fun c hc => ?_, fun j _ => hall j⟩
    cases hc
    exact hverdict.mpr ⟨hall i, hcondition⟩

/-! ### The first step of a call -/

theorem completedBy_mem (h : t.completedBy id = some done) :
    done ∈ t.completed ∧ done.arguments.request.revisionRequestId = id :=
  ⟨List.mem_of_find?_eq_some h, by simpa using List.find?_some h⟩

theorem Consistent.find?_cycles (h : Consistent t) (id : ℕ) :
    t.system.cycles.find? (fun cycle => cycle.revisionRequestId = id)
      = (t.completedBy id).map Completed.cycle := by
  rw [h.cycles, List.find?_map]
  rfl

variable {arguments : RevisionArguments} {parent : VerificationRequest} {now : ℕ}

theorem reviseTransaction_ok {s system : System} :
    reviseTransaction engine s arguments now = .ok (system, outcome, parent) ↔
      ∃ v current candidate,
        requireVerification s.rows arguments.request.verificationId = .ok (v, current) ∧
        s.rows.candidates (arguments.request.originalCandidateId,
          arguments.request.originalCandidateVersion) = some candidate ∧
        Revision.revise engine.childVerificationId s arguments.request candidate
          (engine.patches arguments candidate now) now = .ok (system, outcome) ∧
        parent = v.request := by
  unfold reviseTransaction
  rw [bind_eq_ok]
  cases hcandidate : s.rows.candidates (arguments.request.originalCandidateId,
      arguments.request.originalCandidateVersion) with
  | none =>
    simp only [reduceCtorEq, and_false, exists_false, false_and]
  | some candidate =>
    simp only [bind_eq_ok]
    constructor
    · rintro ⟨⟨v, current⟩, hv, ⟨revised, given⟩, hrevised, h⟩
      cases h
      exact ⟨v, current, candidate, hv, rfl, hrevised, rfl⟩
    · rintro ⟨v, current, c, hv, hc, hrevised, rfl⟩
      cases hc
      exact ⟨(v, current), hv, (system, outcome), hrevised, rfl⟩

theorem Consistent.replayed (h : Consistent t)
    (hdone : t.completedBy arguments.request.revisionRequestId = some done) {system : System}
    (hok : reviseTransaction engine t.system arguments now = .ok (system, outcome, parent)) :
    system = t.system ∧ outcome = done.outcome ∧ now < arguments.request.deadlineAt := by
  obtain ⟨v, current, candidate, -, -, hrevised, -⟩ := reviseTransaction_ok.mp hok
  have hfound := h.find?_cycles arguments.request.revisionRequestId
  rw [hdone] at hfound
  obtain ⟨⟨-, hdeadline⟩, -, hafter⟩ := (revise_replayed hfound).mp hrevised
  obtain ⟨hsystem, houtcome⟩ := Prod.mk.inj hafter
  exact ⟨hsystem, houtcome, hdeadline⟩

theorem Consistent.repeated (h : Consistent t)
    (hdone : t.completedBy done.arguments.request.revisionRequestId = some done)
    (hdeadline : now < done.arguments.request.deadlineAt) :
    ∃ result, reviseTransaction engine t.system done.arguments now = .ok result := by
  have hcommitted := h.committed done (completedBy_mem hdone).1
  obtain ⟨⟨v, current⟩, hv⟩ := hcommitted.parent
  obtain ⟨candidate, hcandidate, hbound⟩ := hcommitted.original
  have hfound := h.find?_cycles done.arguments.request.revisionRequestId
  rw [hdone] at hfound
  refine ⟨(t.system, done.outcome, v.request), reviseTransaction_ok.mpr ?_⟩
  refine ⟨v, current, candidate, hv, hcandidate, (revise_replayed hfound).mpr ?_, rfl⟩
  exact ⟨⟨hbound, hdeadline⟩, hcommitted.patchSet, rfl⟩

theorem Consistent.completes (h : Consistent t)
    (hnone : t.completedBy arguments.request.revisionRequestId = none) {system : System}
    (hok : reviseTransaction engine t.system arguments now = .ok (system, outcome, parent)) :
    t.system.rows.candidates (outcome.candidate.candidateId, outcome.candidate.candidateVersion) = none ∧
      system = ⟨t.system.rows.appendCandidate outcome.candidate,
        t.system.cycles ++ [Completed.cycle ⟨arguments, outcome⟩]⟩ ∧
      Committed system.rows ⟨arguments, outcome⟩ := by
  obtain ⟨v, current, candidate, hv, hcandidate, hrevised, -⟩ := reviseTransaction_ok.mp hok
  have hfound := h.find?_cycles arguments.request.revisionRequestId
  rw [hnone] at hfound
  obtain ⟨⟨hbound, -⟩, hpatchSet, hcomplete, hnew, rfl⟩ := revise_new hfound hrevised
  refine ⟨hnew, rfl, ?_⟩
  have hextends := extends_appendCandidate hnew
  exact {
    parent := ⟨(v, current), hextends.requireVerification hv⟩
    original := ⟨candidate, hextends.candidates _ _ hcandidate, hbound⟩
    patchSet := hpatchSet
    revised := Function.update_self _ _ _
    complete := hcomplete }

theorem Consistent.revise (h : Consistent t) (arguments : RevisionArguments) (now : ℕ) :
    Consistent (t.revise engine i arguments now) := by
  unfold Tenant.revise
  cases hok : reviseTransaction engine t.system arguments now with
  | error e =>
    refine h.setCall ⟨arguments, _, .raised e⟩ ⟨Extends.refl _, List.Subset.refl _,
      List.Subset.refl _⟩ h.cycles (fun _ hdone => .inl hdone) h.records rfl ?_
    intro done hdone
    exact ⟨(completedBy_mem hdone).1, .inr ⟨e, rfl⟩⟩
  | ok result =>
    obtain ⟨system, outcome, parent⟩ := result
    cases hdone : t.completedBy arguments.request.revisionRequestId with
    | some done =>
      obtain ⟨rfl, rfl, -⟩ := h.replayed hdone hok
      refine h.setCall ⟨arguments, some done, .revised done.outcome parent⟩
        ⟨Extends.refl _, List.Subset.refl _, List.Subset.refl _⟩ h.cycles
        (fun _ hmem => .inl hmem) h.records rfl ?_
      intro other hother
      cases hother
      exact ⟨(completedBy_mem hdone).1, .inl rfl⟩
    | none =>
      obtain ⟨hnew, rfl, hcommitted⟩ := h.completes hdone hok
      refine h.setCall ⟨arguments, none, .revised outcome parent⟩
        ⟨extends_appendCandidate hnew, List.subset_append_left _ _, List.Subset.refl _⟩ ?_ ?_
        h.records rfl fun _ hother => by cases hother
      · show t.system.cycles ++ _ = (t.completed ++ [_]).map Completed.cycle
        rw [h.cycles, List.map_append]
        rfl
      · intro done hmem
        cases List.mem_append.mp hmem with
        | inl hold => exact .inl hold
        | inr hlast =>
          rw [List.mem_singleton.mp hlast]
          exact .inr hcommitted

theorem revise_calls (arguments : RevisionArguments) (now : ℕ) : ∃ stage,
    (t.revise engine i arguments now).calls = Function.update t.calls i
      (some ⟨arguments, t.completedBy arguments.request.revisionRequestId, stage⟩) ∧ Refused stage ∧
    ((∀ e, stage ≠ .raised e) ↔ ∃ result, reviseTransaction engine t.system arguments now = .ok result) := by
  unfold Tenant.revise
  cases hok : reviseTransaction engine t.system arguments now with
  | error e =>
    refine ⟨.raised e, rfl, trivial, ?_⟩
    exact iff_of_false (fun hne => hne e rfl) (by simp)
  | ok result => exact ⟨.revised result.2.1 result.2.2, rfl, trivial, iff_of_true (by simp) ⟨result, rfl⟩⟩

/-- The first step keeps idempotency exactly when a completed request is repeated in its time. -/
theorem Consistent.revise_iff (h : Consistent t) (hfree : t.calls i = none)
    (arguments : RevisionArguments) (now : ℕ) :
    Idempotent (t.revise engine i arguments now) ↔
      Idempotent t ∧ Repeatable t (.revise i arguments now) := by
  obtain ⟨stage, hcalls, hrefused, hraised⟩ := @revise_calls engine t i arguments now
  refine idempotent_setCall h (h.revise arguments now) hcalls ?_
  rw [hfree]
  constructor
  · intro hverdict
    refine ⟨fun before hbefore => absurd hbefore (by simp), fun done hdone hsame => ?_⟩
    obtain ⟨⟨system, outcome, parent⟩, hok⟩ := hraised.mp ((hverdict done hdone).1 hsame)
    exact (h.replayed hdone hok).2.2
  · rintro ⟨-, hrepeatable⟩ done hdone
    refine ⟨fun hsame => hraised.mpr ?_, fun _ => hrefused⟩
    have hdeadline := hrepeatable done hdone hsame
    cases hsame
    exact h.repeated hdone hdeadline

/-! ### The second step -/

/-- What an acceptance leaves as it is. -/
structure Kept (t t' : Tenant) : Prop where
  candidates : t'.system.rows.candidates = t.system.rows.candidates
  rows : Extends t.system.rows t'.system.rows
  cycles : t'.system.cycles = t.system.cycles
  completed : t'.completed = t.completed
  queue : t'.queue = t.queue
  calls : t'.calls = t.calls
  records : (∀ id, (t.records id).isSome → t.Accepted id) → ∀ id, (t'.records id).isSome → t'.Accepted id

theorem Kept.refl (t : Tenant) : Kept t t := ⟨rfl, Extends.refl _, rfl, rfl, rfl, rfl, id⟩

theorem Kept.grows (h : Kept t t') : Grows t t' :=
  ⟨h.rows, h.completed ▸ List.Subset.refl _, h.queue ▸ List.Subset.refl _⟩

theorem acceptVerification_kept {document : RequestDocument}
    (hrecords : ∀ id, (t.records id).isSome → t.Accepted id)
    (hok : t.acceptVerification document now = .ok t') :
    Kept t t' ∧ t'.Accepted document.request.verificationId := by
  unfold Tenant.acceptVerification at hok
  cases hrecord : t.records document.request.verificationId with
  | some stored =>
    simp only [hrecord, unit_bind_eq_ok] at hok
    cases hok.2
    exact ⟨Kept.refl t, hrecords _ (Option.isSome_of_eq_some hrecord)⟩
  | none =>
    simp only [hrecord] at hok
    obtain ⟨rows, hrows, hok⟩ := bind_eq_ok.mp hok
    cases hok
    obtain ⟨hnew, -, rfl⟩ := acceptVerification_ok hrows
    have hextends := extends_put hnew
    have haccepted := Option.isSome_of_eq_some (Rows.put_self t.system.rows (accepted document.request))
    refine ⟨⟨rfl, hextends, rfl, rfl, rfl, rfl, fun _ id hid => ?_⟩, haccepted⟩
    by_cases hkey : id = document.request.verificationId
    · rw [hkey]
      exact haccepted
    · have hold : (t.records id).isSome := by
        rw [← Function.update_of_ne hkey (some document) t.records]
        exact hid
      obtain ⟨v, hv⟩ := Option.isSome_iff_exists.mp (hrecords id hold)
      exact Option.isSome_of_eq_some (hextends.verifications id v hv)

section source
variable {document : RequestDocument} {now : ℕ} {source : Candidate}

/-- The source of the request passes the checks of an acceptance besides the deadline. -/
structure SourceComplete (t : Tenant) (request : VerificationRequest) (source : Candidate) : Prop where
  row : t.system.rows.candidates (request.candidateId, request.candidateVersion) = some source
  complete : source.status = .COMPLETE
  sha256 : source.candidateSha256 = request.candidateSha256
  resource : source.resourceType = request.resourceType

theorem SourceComplete.checkSource (h : SourceComplete t document.request source) :
    checkSource (t.system.rows.candidates (document.request.candidateId,
      document.request.candidateVersion)) document.request now
        = ensure (now < document.request.deadlineAt) deadlineError := by
  rw [h.row]
  unfold Verification.checkSource
  simp only [ensure, h.complete, h.sha256, h.resource, if_true]
  rfl

theorem SourceComplete.passes (h : SourceComplete t document.request source)
    (hpasses : AcceptPasses t document now) :
    (∃ after, t.acceptVerification document now = .ok after) ∨
      (∃ e, t.acceptVerification document now = .error e ∧ HandOff.isConflict e) ∧
        t.Accepted document.request.verificationId := by
  obtain ⟨hstored, hfree⟩ := hpasses
  unfold Tenant.acceptVerification
  cases hrecord : t.records document.request.verificationId with
  | some stored =>
    refine .inl ⟨t, ?_⟩
    simp [hstored stored hrecord, ensure]
  | none =>
    unfold Verification.acceptVerification
    simp only [h.checkSource]
    cases hv : t.system.rows.verifications document.request.verificationId with
    | some v =>
      refine .inr ⟨⟨_, rfl, ?_⟩, Option.isSome_of_eq_some hv⟩
      decide
    | none =>
      have hdeadline : now < document.request.deadlineAt := by
        refine (hfree hrecord).resolve_left fun haccepted => ?_
        unfold Tenant.Accepted at haccepted
        rw [hv] at haccepted
        cases haccepted
      have htimely : ensure (now < document.request.deadlineAt) deadlineError = .ok () :=
        ensure_eq_ok.mpr hdeadline
      rw [htimely]
      exact .inl ⟨_, rfl⟩

theorem SourceComplete.refused (h : SourceComplete t document.request source)
    (hpasses : ¬ AcceptPasses t document now) :
    ∃ e, t.acceptVerification document now = .error e ∧ ¬ HandOff.isConflict e := by
  unfold Tenant.acceptVerification
  cases hrecord : t.records document.request.verificationId with
  | some stored =>
    have hne : stored ≠ document := by
      rintro rfl
      exact hpasses ⟨fun other hother => Option.some.inj (hother.symm.trans hrecord),
        fun hnone => absurd (hnone.symm.trans hrecord) (by simp)⟩
    exact ⟨keyReused, by simp [ensure, hne], by decide⟩
  | none =>
    have hfree : ¬ (t.Accepted document.request.verificationId ∨ now < document.request.deadlineAt) := by
      intro hfree
      exact hpasses ⟨fun other hother => absurd (hother.symm.trans hrecord) (by simp), fun _ => hfree⟩
    rw [not_or] at hfree
    have hnew : t.system.rows.verifications document.request.verificationId = none :=
      Option.not_isSome_iff_eq_none.mp hfree.1
    unfold Verification.acceptVerification
    simp only [h.checkSource, hnew]
    have hlate : ensure (now < document.request.deadlineAt) deadlineError = .error deadlineError :=
      if_neg hfree.2
    rw [hlate]
    exact ⟨deadlineError, rfl, by decide⟩

end source

theorem Committed.sourceComplete (h : Committed t.system.rows done)
    (parent : VerificationRequest) (requestedAt : ℕ) :
    SourceComplete t (requestForCandidate parent done.outcome requestedAt) done.outcome.candidate :=
  ⟨h.revised, h.complete, rfl, rfl⟩

variable {completed : Option Completed}

theorem Consistent.reverify_calls (h : Consistent t)
    (hcall : t.calls i = some ⟨arguments, completed, .revised outcome parent⟩) (traceId : String)
    (requestedAt acceptedAt : ℕ) :
    let document := reverificationRequest arguments outcome parent traceId requestedAt
    ∃ after stage, t.reverify i ⟨arguments, completed, .revised outcome parent⟩ outcome document acceptedAt
        = after.setCall i ⟨arguments, completed, stage⟩ ∧ Kept t after ∧
      ∀ done ∈ completed,
        AcceptPasses t document acceptedAt ∧ Answered after done.outcome stage ∧ ¬ Refused stage ∨
        ¬ AcceptPasses t document acceptedAt ∧ (∃ e, stage = .raised e) := by
  intro document
  have hsource : ∀ done ∈ completed, outcome = done.outcome ∧
      SourceComplete t document.request outcome.candidate := by
    intro done hdone
    obtain ⟨hmem, hanswered | ⟨e, he⟩⟩ := h.calls i _ hcall done hdone
    · have hsame : outcome = done.outcome := hanswered
      refine ⟨hsame, ?_⟩
      rw [hsame]
      show SourceComplete t (requestForCandidate parent outcome requestedAt) done.outcome.candidate
      rw [hsame]
      exact (h.committed done hmem).sourceComplete parent requestedAt
    · cases he
  unfold Tenant.reverify
  cases hresult : t.acceptVerification document acceptedAt with
  | ok after =>
    obtain ⟨hkept, haccepted⟩ := acceptVerification_kept h.records hresult
    refine ⟨after, .accepted outcome, rfl, hkept, fun done hdone => .inl ?_⟩
    obtain ⟨hsame, hcomplete⟩ := hsource done hdone
    refine ⟨?_, ⟨hsame, hsame ▸ haccepted⟩, id⟩
    by_contra hpasses
    obtain ⟨e, he, -⟩ := hcomplete.refused hpasses
    cases hresult.symm.trans he
  | error e =>
    by_cases hconflict : HandOff.isConflict e
    · refine ⟨t, .accepted outcome, by simp [hconflict], Kept.refl t, fun done hdone => .inl ?_⟩
      obtain ⟨hsame, hcomplete⟩ := hsource done hdone
      have hpasses : AcceptPasses t document acceptedAt := by
        by_contra hpasses
        obtain ⟨e', he', hne⟩ := hcomplete.refused hpasses
        cases hresult.symm.trans he'
        exact hne hconflict
      obtain ⟨after, hafter⟩ | ⟨-, haccepted⟩ := hcomplete.passes hpasses
      · cases hresult.symm.trans hafter
      · exact ⟨hpasses, ⟨hsame, hsame ▸ haccepted⟩, id⟩
    · refine ⟨t, .raised e, by simp [hconflict], Kept.refl t, fun done hdone => .inr ⟨?_, e, rfl⟩⟩
      obtain ⟨hsame, hcomplete⟩ := hsource done hdone
      intro hpasses
      obtain ⟨after, hafter⟩ | ⟨⟨e', he', he⟩, -⟩ := hcomplete.passes hpasses
      · cases hresult.symm.trans hafter
      · cases hresult.symm.trans he'
        exact hconflict he

theorem Kept.setCall (hkept : Kept t t') (h : Consistent t)
    (hcall : ∀ done ∈ call.completed,
      done ∈ t'.completed ∧ (Answered t' done.outcome call.stage ∨ ∃ e, call.stage = .raised e)) :
    Consistent (t'.setCall i call) := by
  refine h.setCall call ⟨hkept.rows, hkept.grows.completed, hkept.grows.queue⟩ ?_ ?_
    (hkept.records h.records) (by rw [← hkept.calls]; rfl) ?_
  · show t'.system.cycles = t'.completed.map Completed.cycle
    rw [hkept.cycles, hkept.completed]
    exact h.cycles
  · intro done hdone
    left
    rw [← hkept.completed]
    exact hdone
  · intro done hdone
    obtain ⟨hmem, hstage⟩ := hcall done hdone
    exact ⟨hmem, hstage⟩

theorem Consistent.reverify (h : Consistent t)
    (hcall : t.calls i = some ⟨arguments, completed, .revised outcome parent⟩) (traceId : String)
    (requestedAt acceptedAt : ℕ)
    (hstep : t' = t.reverify i ⟨arguments, completed, .revised outcome parent⟩ outcome
      (reverificationRequest arguments outcome parent traceId requestedAt) acceptedAt) :
    Consistent t' ∧
      (Idempotent t' ↔ Idempotent t ∧ Repeatable t (.reverify i traceId requestedAt acceptedAt)) := by
  obtain ⟨after, stage, hafter, hkept, hstage⟩ := h.reverify_calls hcall traceId requestedAt acceptedAt
  rw [hafter] at hstep
  rw [hstep]
  have hconsistent : Consistent (after.setCall i ⟨arguments, completed, stage⟩) := by
    refine hkept.setCall h fun done hdone => ⟨?_, ?_⟩
    · rw [hkept.completed]
      exact (h.calls i _ hcall done hdone).1
    · obtain ⟨-, hanswered, -⟩ | ⟨-, hraised⟩ := hstage done hdone
      · exact .inl hanswered
      · exact .inr hraised
  refine ⟨hconsistent, idempotent_setCall h hconsistent (by rw [← hkept.calls]; rfl) ?_⟩
  constructor
  · intro hverdict
    refine ⟨fun before hbefore done _ => ?_, fun call hcall' done hdone document hdocument => ?_⟩
    · rw [hcall] at hbefore
      cases hbefore
      exact ⟨fun _ _ => by simp, fun _ => trivial⟩
    · rw [hcall] at hcall'
      cases hcall'
      cases hdocument
      obtain ⟨hpasses, -, hanswered⟩ | ⟨hpasses, e, rfl⟩ := hstage done hdone
      · refine iff_of_true hpasses ?_
        by_contra hne
        exact hanswered ((hverdict done hdone).2 hne)
      · refine iff_of_false hpasses fun hsame => ?_
        exact (hverdict done hdone).1 hsame e rfl
  · rintro ⟨-, hrepeatable⟩ done hdone
    have hpasses_iff := hrepeatable _ hcall done hdone _ rfl
    obtain ⟨hpasses, hanswered, -⟩ | ⟨hpasses, e, rfl⟩ := hstage done hdone
    · refine ⟨fun _ e he => ?_, fun hne => absurd (hpasses_iff.mp hpasses) hne⟩
      change stage = .raised e at he
      rw [he] at hanswered
      exact hanswered
    · exact ⟨fun hsame => absurd (hpasses_iff.mpr hsame) hpasses, fun _ => trivial⟩

/-! ### The other steps -/

theorem Consistent.enqueue (h : Consistent t) (hcall : t.calls i = some ⟨arguments, completed, .accepted outcome⟩)
    (hstep : t' = t.enqueue i ⟨arguments, completed, .accepted outcome⟩ outcome) :
    Consistent t' ∧ (Idempotent t' ↔ Idempotent t ∧ Repeatable t (.enqueue i)) := by
  rw [hstep]
  have hcalls : (t.enqueue i ⟨arguments, completed, .accepted outcome⟩ outcome).calls
      = Function.update t.calls i (some ⟨arguments, completed, .returned outcome⟩) := rfl
  have hconsistent : Consistent (t.enqueue i ⟨arguments, completed, .accepted outcome⟩ outcome) := by
    refine h.setCall _ ⟨Extends.refl _, List.Subset.refl _, List.subset_append_left _ _⟩ h.cycles
      (fun _ hdone => .inl hdone) h.records hcalls fun done hdone => ?_
    obtain ⟨hmem, ⟨rfl, haccepted⟩ | ⟨e, he⟩⟩ := h.calls i _ hcall done hdone
    · exact ⟨hmem, .inl ⟨rfl, haccepted, List.mem_append_right _ (List.mem_singleton_self _)⟩⟩
    · cases he
  refine ⟨hconsistent, idempotent_setCall h hconsistent hcalls ?_⟩
  rw [hcall]
  constructor
  · intro hverdict
    refine ⟨fun before hbefore done hdone => ?_, trivial⟩
    cases hbefore
    exact ⟨fun _ _ => by simp, fun hne => (hverdict done hdone).2 hne⟩
  · rintro ⟨hbefore, -⟩ done hdone
    exact ⟨fun _ _ => by simp, fun hne => (hbefore _ rfl done hdone).2 hne⟩

theorem Consistent.accepts (h : Consistent t) {document : RequestDocument}
    (hok : t.acceptVerification document now = .ok t') :
    Consistent t' ∧ (Idempotent t' ↔ Idempotent t ∧ Repeatable t (.acceptVerification document now)) := by
  obtain ⟨hkept, -⟩ := acceptVerification_kept h.records hok
  have hconsistent : Consistent t' := {
    cycles := by
      rw [hkept.cycles, hkept.completed]
      exact h.cycles
    committed := fun done hdone => (h.committed done (hkept.completed ▸ hdone)).extends hkept.rows
    records := hkept.records h.records
    calls := fun j call hcall done hdone => by
      obtain ⟨hmem, hstage⟩ := h.calls j call (hkept.calls ▸ hcall) done hdone
      exact ⟨hkept.completed ▸ hmem, hstage.imp_left hkept.grows.answered⟩ }
  refine ⟨hconsistent, ?_⟩
  rw [h.idempotent_iff, hconsistent.idempotent_iff, hkept.calls]
  exact (and_iff_left trivial).symm

/-- One step keeps the rows consistent, and it keeps idempotency exactly when it is repeatable. -/
theorem step_idempotent_iff {action : Action} (h : Consistent t) (hstep : step engine t action = some t') :
    Consistent t' ∧ (Idempotent t' ↔ Idempotent t ∧ Repeatable t action) := by
  cases action with
  | revise i arguments now =>
    cases hfree : t.calls i with
    | none =>
      simp only [step, hfree, Option.some.injEq] at hstep
      rw [← hstep]
      exact ⟨h.revise arguments now, h.revise_iff hfree arguments now⟩
    | some call => simp only [step, hfree, reduceCtorEq] at hstep
  | reverify i traceId requestedAt acceptedAt =>
    simp only [step] at hstep
    split at hstep
    · rename_i hcall
      exact h.reverify hcall traceId requestedAt acceptedAt (Option.some.inj hstep).symm
    · cases hstep
  | enqueue i =>
    simp only [step] at hstep
    split at hstep
    · rename_i hcall
      exact h.enqueue hcall (Option.some.inj hstep).symm
    · cases hstep
  | acceptVerification document now => exact h.accepts (eq_ok_of_toOption hstep)

/-! ### The versions -/

variable {initial : Tenant}

theorem OneVersionEach.of_kept (h : OneVersionEach initial t)
    (hsystem : t'.system.cycles = t.system.cycles)
    (hcandidates : t'.system.rows.candidates = t.system.rows.candidates)
    (hcompleted : t'.completed = t.completed) : OneVersionEach initial t' where
  cycles := by
    rw [hsystem, hcompleted]
    exact h.cycles
  once := by
    rw [hcompleted]
    exact h.once
  versions key := by
    rw [hcandidates, hcompleted]
    exact h.versions key

theorem OneVersionEach.revise (h : OneVersionEach initial t) (hconsistent : Consistent t)
    (arguments : RevisionArguments) (now : ℕ) :
    OneVersionEach initial (t.revise engine i arguments now) := by
  unfold Tenant.revise
  cases hok : reviseTransaction engine t.system arguments now with
  | error e => exact h.of_kept rfl rfl rfl
  | ok result =>
    obtain ⟨system, outcome, parent⟩ := result
    cases hdone : t.completedBy arguments.request.revisionRequestId with
    | some done =>
      obtain ⟨rfl, -, -⟩ := hconsistent.replayed hdone hok
      exact h.of_kept rfl rfl rfl
    | none =>
      obtain ⟨hnew, rfl, -⟩ := hconsistent.completes hdone hok
      refine ⟨?_, ?_, fun key => ?_⟩
      · show t.system.cycles ++ _ = (t.completed ++ [_]).map Completed.cycle
        rw [h.cycles, List.map_append]
        rfl
      · show ((t.completed ++ [_]).map _).Nodup
        rw [List.map_append, List.nodup_append]
        refine ⟨h.once, List.nodup_singleton _, fun id hid other hother heq => ?_⟩
        obtain ⟨done, hmem, rfl⟩ := List.mem_map.mp hid
        rw [List.map_singleton, List.mem_singleton] at hother
        have hfree := List.find?_eq_none.mp hdone done hmem
        exact hfree (decide_eq_true (heq.trans hother))
      · show (t.system.rows.appendCandidate outcome.candidate).candidates key
          = (((t.completed ++ [_]).map _).find? _).or _
        rw [List.map_append, List.find?_append, List.map_singleton, Option.or_assoc]
        by_cases hkey : key = (outcome.candidate.candidateId, outcome.candidate.candidateVersion)
        · have hold := h.versions key
          rw [hkey, hnew, eq_comm, Option.or_eq_none_iff] at hold
          subst hkey
          rw [hold.1]
          simp [Rows.appendCandidate]
        · have hne : ¬ (outcome.candidate.candidateId, outcome.candidate.candidateVersion) = key :=
            fun heq => hkey heq.symm
          have hlast : [outcome.candidate].find? (fun candidate =>
              (candidate.candidateId, candidate.candidateVersion) = key) = none := by
            simp [hne]
          rw [hlast, Option.none_or, ← h.versions key]
          exact Function.update_of_ne hkey _ _

theorem OneVersionEach.step {action : Action} (h : OneVersionEach initial t)
    (hconsistent : Consistent t) (hstep : step engine t action = some t') : OneVersionEach initial t' := by
  cases action with
  | revise i arguments now =>
    cases hfree : t.calls i with
    | none =>
      simp only [RevisionReplay.step, hfree, Option.some.injEq] at hstep
      rw [← hstep]
      exact h.revise hconsistent arguments now
    | some call => simp only [RevisionReplay.step, hfree, reduceCtorEq] at hstep
  | reverify i traceId requestedAt acceptedAt =>
    simp only [RevisionReplay.step] at hstep
    split at hstep
    · rename_i hcall
      obtain ⟨after, stage, hafter, hkept, -⟩ :=
        hconsistent.reverify_calls hcall traceId requestedAt acceptedAt
      rw [← Option.some.inj hstep, hafter]
      exact h.of_kept hkept.cycles hkept.candidates hkept.completed
    · cases hstep
  | enqueue i =>
    simp only [RevisionReplay.step] at hstep
    split at hstep
    · rw [← Option.some.inj hstep]
      exact h.of_kept rfl rfl rfl
    · cases hstep
  | acceptVerification document now =>
    obtain ⟨hkept, -⟩ := acceptVerification_kept hconsistent.records (eq_ok_of_toOption hstep)
    exact h.of_kept hkept.cycles hkept.candidates hkept.completed

/-- A tenant without revisions, whose idempotency records are of verifications that exist. -/
structure Initial (t : Tenant) : Prop where
  cycles : t.system.cycles = []
  completed : t.completed = []
  calls : ∀ i, t.calls i = none
  records : ∀ id, (t.records id).isSome → t.Accepted id

theorem Initial.consistent (h : Initial t) : Consistent t where
  cycles := by rw [h.cycles, h.completed, List.map_nil]
  committed done hdone := by
    rw [h.completed] at hdone
    cases hdone
  records := h.records
  calls i call hcall := by
    rw [h.calls i] at hcall
    cases hcall

theorem Initial.oneVersionEach (h : Initial t) : OneVersionEach t t where
  cycles := h.consistent.cycles
  once := by
    rw [h.completed]
    exact List.nodup_nil
  versions key := by
    rw [h.completed]
    rfl

theorem Initial.idempotent (h : Initial t) : Idempotent t := by
  intro i call hcall
  rw [h.calls i] at hcall
  cases hcall

end tenant

def lectureEngine : Engine where
  childVerificationId := sampleChildId
  planId _ := 1
  contracts := BlockRevision.sampleContracts
  readBlock := BlockRevision.readLectureBlock
  verifyArtifact _ _ := .ok ()
  document _ := BlockRevision.orderedLecture

def lectureRequest : VerificationRequest where
  verificationId := 1
  candidateId := 1
  candidateVersion := 1
  candidateSha256 := "candidate"
  resourceType := "Lecturer_Doc"
  deadlineAt := 1000

/-- The lecture has been accepted for its verification. -/
def lectureTenant : Tenant where
  system := {
    rows := {
      candidates := fun key => if key = (1, 1) then some BlockRevision.orderedLecture.summary else none
      verifications := fun id => if id = 1 then some (accepted lectureRequest) else none
      candidate_key := by
        intro key candidate h
        split_ifs at h with hkey
        cases h
        exact hkey.symm
      verification_key := by
        intro id v h
        split_ifs at h with hid
        cases h
        exact hid.symm }
    cycles := [] }
  completed := []
  records _ := none
  queue := []
  calls _ := none

theorem lectureTenant_initial : Initial lectureTenant :=
  ⟨rfl, rfl, fun _ => rfl, fun id hid => by cases hid⟩

/-- The second block of the lecture is replaced. -/
def lectureArguments : RevisionArguments where
  request := { firstRevision with
    originalCandidateSha256 := "candidate"
    targetAgent := "Lecturer" }
  binding := BlockRevision.lecturePatchRequest
  instructionsArtifact := "instructions"
  instructionsSha256 := "sha256"
  patches := [BlockRevision.lecturePatch]

/-- The same request, with another replacement. -/
def otherArguments : RevisionArguments :=
  { lectureArguments with
    patches := [{ BlockRevision.lecturePatch with operation := .REPLACE_BLOCK "other" "content" }] }

def lectureOutcome : RevisionOutcome :=
  outcome sampleChildId lectureArguments.request
    (Revision.buildCandidate BlockRevision.orderedLecture.summary "candidate")

end CyberControl.RevisionReplay
