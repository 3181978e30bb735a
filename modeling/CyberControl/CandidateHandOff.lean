import CyberControl.Transition
import CyberControl.VerificationLifecycle

/-! # The hand-off of candidates to verification

`Topic3CandidateVerificationConsumer` of `domains/verification/runtime.py` with the part of
`VerificationService` that it calls: a delivery of `topic3.workflow.finalized` accepts a verification of
each complete candidate of the workflow, in a transaction of its own, and puts it into the task queue.
A delivery may fail at any of its awaits, and is then repeated with fresh clock readings. -/

namespace CyberControl.HandOff

open Collections Transition
open Verification (CandidateStatus conflict deadlineError integrityError notFound topic4Error)

/-! ### Workflows -/

/-- `CandidateV1`, restricted to what the modelled part reads. -/
structure Candidate where
  candidateId : ℕ
  candidateVersion : ℕ
  candidateSha256 : ℕ
  blueprintVersion : String
  resourceType : String
  personalizationPolicyDigest : ℕ
  status : CandidateStatus

inductive Locale where
  | zhCN
  | enUS
deriving DecidableEq, Repr

/-- The envelope and what `load_runtime_for_workflow_consumer` returns for it; `targetKpId` is the first
of `target_kp_ids`, and a candidate version is one row. -/
structure Workflow where
  envelopeId : ℕ
  locale : Locale
  courseId : String
  targetKpId : String
  candidates : List Candidate
  distinct : (candidates.map fun candidate => (candidate.candidateId, candidate.candidateVersion)).Nodup

/-! ### Requests -/

/-- `uuid5` of a candidate version; the idempotency key of the accept is made of it alone. -/
structure VerificationId where
  candidateId : ℕ
  candidateVersion : ℕ
  candidateSha256 : ℕ
deriving DecidableEq

def requestId (candidate : Candidate) : VerificationId :=
  ⟨candidate.candidateId, candidate.candidateVersion, candidate.candidateSha256⟩

/-- `SourceSnapshotRefV1` with the time of its full snapshot. -/
structure SourceSnapshotRef where
  sourceEnvelopeId : ℕ
  candidateId : ℕ
  candidateVersion : ℕ
  candidateSha256 : ℕ
  resourceType : String
  snapshotCreatedAt : ℕ
deriving DecidableEq

/-- `VerificationRequestPayloadV1`. -/
structure VerificationRequest where
  verificationId : VerificationId
  sourceSnapshotRef : SourceSnapshotRef
  courseId : String
  courseVersion : String
  targetKpId : String
  personalizationPolicyDigest : ℕ
  createdAt : ℕ
  deadlineAt : ℕ
  requestedAt : ℕ
deriving DecidableEq

/-- `timedelta(minutes=15)` in microseconds. -/
def initialDeadline : ℕ := 900000000

/-- `_request_for_candidate` without a parent request. -/
def requestForCandidate (w : Workflow) (candidate : Candidate) (now : ℕ) : VerificationRequest where
  verificationId := requestId candidate
  sourceSnapshotRef := {
    sourceEnvelopeId := w.envelopeId
    candidateId := candidate.candidateId
    candidateVersion := candidate.candidateVersion
    candidateSha256 := candidate.candidateSha256
    resourceType := candidate.resourceType
    snapshotCreatedAt := now }
  courseId := w.courseId
  courseVersion := candidate.blueprintVersion
  targetKpId := w.targetKpId
  personalizationPolicyDigest := candidate.personalizationPolicyDigest
  createdAt := now
  deadlineAt := now + initialDeadline
  requestedAt := now

/-! ### `VerificationService.accept_verification` -/

/-- `VerificationAcceptedPayloadV1`. -/
structure Accepted where
  verificationId : VerificationId
  acceptedAt : ℕ
  deadlineAt : ℕ
  sourceCandidateId : ℕ
  sourceCandidateVersion : ℕ
  sourceCandidateSha256 : ℕ

/-- A completed `IdempotencyRecordModel`; the digest is the request itself. -/
structure IdempotencyRecord where
  requestDigest : VerificationRequest
  resultPayload : Accepted

/-- The rows that a delivery writes, and the verifications put into the task queue. -/
structure Store where
  records : VerificationId → Option IdempotencyRecord
  verifications : List Accepted
  queue : List VerificationId

def Store.empty : Store := ⟨fun _ => none, [], []⟩

/-- The store after an accept. -/
def Store.commit (store : Store) (request : VerificationRequest) (accepted : Accepted) : Store :=
  { store with
    records := Function.update store.records request.verificationId (some ⟨request, accepted⟩)
    verifications := accepted :: store.verifications }

/-- `Topic4Runtime.enqueue`. -/
def Store.enqueue (store : Store) (id : VerificationId) : Store :=
  { store with queue := store.queue ++ [id] }

def getCandidate (w : Workflow) (candidateId candidateVersion : ℕ) : Option Candidate :=
  w.candidates.find? fun candidate =>
    (candidate.candidateId, candidate.candidateVersion) = (candidateId, candidateVersion)

/-- `accepted` of `accept_verification`. -/
def acceptedPayload (request : VerificationRequest) (now : ℕ) : Accepted where
  verificationId := request.verificationId
  acceptedAt := now
  deadlineAt := request.deadlineAt
  sourceCandidateId := request.sourceSnapshotRef.candidateId
  sourceCandidateVersion := request.sourceSnapshotRef.candidateVersion
  sourceCandidateSha256 := request.sourceSnapshotRef.candidateSha256

/-- `callback` of `accept_verification`. -/
def acceptCallback (w : Workflow) (request : VerificationRequest) (now : ℕ) (store : Store) :
    Except Exn Accepted :=
  if ∃ accepted ∈ store.verifications, accepted.verificationId = request.verificationId then
    .error (conflict "The verification already exists.")
  else
    let source := request.sourceSnapshotRef
    match getCandidate w source.candidateId source.candidateVersion with
    | none => .error (notFound "Source candidate")
    | some candidate =>
      if candidate.status ≠ .COMPLETE then
        .error (integrityError "Only complete Topic 3 candidates can be verified.")
      else if candidate.candidateSha256 ≠ source.candidateSha256 then
        .error (integrityError "Source candidate hash does not match Topic 3.")
      else if candidate.resourceType ≠ source.resourceType then
        .error (integrityError "Source candidate resource type does not match.")
      else if request.deadlineAt ≤ now then
        .error deadlineError
      else .ok (acceptedPayload request now)

/-- `_execute_mutation` of an accept: the record, the verification and the result are one transaction. -/
def acceptVerification (w : Workflow) (request : VerificationRequest) (now : ℕ) (store : Store) :
    Store × Except Exn Accepted :=
  match store.records request.verificationId with
  | some record =>
    if record.requestDigest ≠ request then
      (store, .error (.liyan (MessageConflictError .MESSAGE_DUPLICATE_CONFLICT
        "The idempotency key was reused for different Topic 4 content.")))
    else (store, .ok record.resultPayload)
  | none =>
    match acceptCallback w request now store with
    | .error e => (store, .error e)
    | .ok accepted => (store.commit request accepted, .ok accepted)

/-! ### Deliveries -/

/-- Where a delivery fails on a candidate: before the accept commits (at the artifact store or in the
transaction), after it (the commit is not acknowledged, or the queue takes nothing), or after the task
is in the queue. -/
inductive Fault where
  | beforeCommit
  | afterCommit
  | afterEnqueue
deriving DecidableEq, Repr

/-- The clock readings of one round of the loop, and its failure. -/
structure Attempt where
  requestedAt : ℕ
  acceptedAt : ℕ
  fault : Option Fault

structure Delivery where
  loadFails : Bool
  attempt : Candidate → Attempt

/-- Whatever a failing await raises. -/
def infrastructureFailure : Exn := .other "infrastructure failure"

/-- `exc.code == ErrorCode.TOPIC4_CONFLICT`. -/
def isConflict : Exn → Bool
  | .liyan e => e.code = .TOPIC4_CONFLICT
  | _ => false

/-- One round of the loop of `_consume`, with `Topic4Runtime.accept`. -/
def handOff (w : Workflow) (d : Delivery) (store : Store) (candidate : Candidate) :
    Store × Except Exn Unit :=
  let attempt := d.attempt candidate
  if candidate.status ≠ .COMPLETE then (store, .ok ())
  else if attempt.fault = some .beforeCommit then (store, .error infrastructureFailure)
  else
    match acceptVerification w (requestForCandidate w candidate attempt.requestedAt) attempt.acceptedAt
        store with
    | (after, .error e) => if isConflict e then (after, .ok ()) else (after, .error e)
    | (after, .ok _) =>
      if attempt.fault = some .afterCommit then (after, .error infrastructureFailure)
      else if attempt.fault = some .afterEnqueue then
        (after.enqueue (requestId candidate), .error infrastructureFailure)
      else (after.enqueue (requestId candidate), .ok ())

/-- The loop of `_consume`. -/
def handOffAll (w : Workflow) (d : Delivery) : Store → List Candidate → Store × Except Exn Unit
  | store, [] => (store, .ok ())
  | store, candidate :: rest =>
    match handOff w d store candidate with
    | (after, .error e) => (after, .error e)
    | (after, .ok ()) => handOffAll w d after rest

def consume (w : Workflow) (d : Delivery) (store : Store) : Store × Except Exn Unit :=
  if d.loadFails then (store, .error infrastructureFailure)
  else if w.locale ≠ .zhCN then
    (store, .error (topic4Error .CONTRACT_INVALID
      "Topic 4 currently accepts only the frozen zh-CN verification contract." .CONTRACT 422))
  else handOffAll w d store w.candidates

/-- A delivery that fails, and so is repeated. -/
def redeliver (w : Workflow) (store : Store) (d : Delivery) : Option Store :=
  match consume w d store with
  | (_, .ok ()) => none
  | (after, .error _) => some after

/-! ### What a hand-off is for -/

/-- Every complete candidate has exactly one accepted verification and has been enqueued. -/
def HandedOff (w : Workflow) (store : Store) : Prop :=
  ∀ candidate ∈ w.candidates, candidate.status = .COMPLETE →
    (store.verifications.filter fun accepted => accepted.verificationId = requestId candidate).length = 1 ∧
      requestId candidate ∈ store.queue

/-- No await of the delivery fails, and its accepts are in time. -/
def Delivery.Clean (w : Workflow) (d : Delivery) : Prop :=
  d.loadFails = false ∧ ∀ candidate ∈ w.candidates, (d.attempt candidate).fault = none ∧
    (d.attempt candidate).acceptedAt < (d.attempt candidate).requestedAt + initialDeadline

/-- The first complete candidate, whose accept is the first one of a delivery. -/
def Workflow.first (w : Workflow) : Option Candidate :=
  w.candidates.find? fun candidate => candidate.status = .COMPLETE

/-- The delivery fails before its first accept is committed: when it loads the workflow, in that accept
or on its deadline. -/
def Delivery.CommitsNothing (w : Workflow) (d : Delivery) : Prop :=
  d.loadFails = true ∨ ∃ candidate ∈ w.first, (d.attempt candidate).fault = some .beforeCommit ∨
    (d.attempt candidate).requestedAt + initialDeadline ≤ (d.attempt candidate).acceptedAt

instance (w : Workflow) (d : Delivery) : Decidable (d.CommitsNothing w) := inferInstanceAs (Decidable (_ ∨ _))

/-- Repeated at a later clock time. -/
def Later (w : Workflow) (d d' : Delivery) : Prop :=
  ∀ candidate ∈ w.candidates, (d.attempt candidate).requestedAt < (d'.attempt candidate).requestedAt

/-! ### One candidate -/

section candidate
variable {w : Workflow} {d : Delivery} {store : Store} {candidate : Candidate}

/-- Nothing has been committed for the candidate. -/
structure Fresh (store : Store) (candidate : Candidate) : Prop where
  record : store.records (requestId candidate) = none
  verification : ∀ accepted ∈ store.verifications, accepted.verificationId ≠ requestId candidate

theorem getCandidate_self (h : candidate ∈ w.candidates) :
    getCandidate w candidate.candidateId candidate.candidateVersion = some candidate :=
  find?_key_eq_some w.distinct h

theorem acceptVerification_fresh (hmem : candidate ∈ w.candidates) (hstatus : candidate.status = .COMPLETE)
    (hfresh : Fresh store candidate) {requestedAt now : ℕ} :
    let request := requestForCandidate w candidate requestedAt
    if requestedAt + initialDeadline ≤ now then
      acceptVerification w request now store = (store, .error deadlineError)
    else ∃ accepted, accepted.verificationId = requestId candidate ∧
      acceptVerification w request now store = (store.commit request accepted, .ok accepted) := by
  have hrecord : store.records (requestForCandidate w candidate requestedAt).verificationId = none :=
    hfresh.record
  have hnone : ¬ ∃ accepted ∈ store.verifications, accepted.verificationId
      = (requestForCandidate w candidate requestedAt).verificationId := by
    rintro ⟨accepted, haccepted, hid⟩
    exact hfresh.verification accepted haccepted hid
  have hrow : getCandidate w (requestForCandidate w candidate requestedAt).sourceSnapshotRef.candidateId
      (requestForCandidate w candidate requestedAt).sourceSnapshotRef.candidateVersion
        = some candidate := getCandidate_self hmem
  simp only
  split_ifs with hlate
  · unfold acceptVerification acceptCallback
    simp only [hrecord, if_neg hnone, hrow]
    simp [hstatus, requestForCandidate, hlate]
  · refine ⟨acceptedPayload (requestForCandidate w candidate requestedAt) now, rfl, ?_⟩
    unfold acceptVerification acceptCallback
    simp only [hrecord, if_neg hnone, hrow]
    simp [hstatus, requestForCandidate, hlate]

theorem handOff_skip (hstatus : candidate.status ≠ .COMPLETE) :
    handOff w d store candidate = (store, .ok ()) := by
  unfold handOff
  exact if_pos hstatus

theorem handOff_refused (hmem : candidate ∈ w.candidates) (hstatus : candidate.status = .COMPLETE)
    (hfresh : Fresh store candidate) (h : (d.attempt candidate).fault = some .beforeCommit ∨
      (d.attempt candidate).requestedAt + initialDeadline ≤ (d.attempt candidate).acceptedAt) :
    ∃ e, handOff w d store candidate = (store, .error e) := by
  unfold handOff
  by_cases hfault : (d.attempt candidate).fault = some .beforeCommit
  · exact ⟨infrastructureFailure, by simp [hstatus, hfault]⟩
  · have hlate := h.resolve_left hfault
    have haccept := @acceptVerification_fresh w store candidate hmem hstatus hfresh
      (d.attempt candidate).requestedAt (d.attempt candidate).acceptedAt
    simp only [if_pos hlate] at haccept
    refine ⟨deadlineError, ?_⟩
    simp [hstatus, hfault, haccept, isConflict, deadlineError, topic4Error]

theorem handOff_committed (hmem : candidate ∈ w.candidates) (hstatus : candidate.status = .COMPLETE)
    (hfresh : Fresh store candidate) (hfault : (d.attempt candidate).fault ≠ some .beforeCommit)
    (htimely : ¬ (d.attempt candidate).requestedAt + initialDeadline
      ≤ (d.attempt candidate).acceptedAt) :
    ∃ accepted, accepted.verificationId = requestId candidate ∧
      let committed := store.commit
        (requestForCandidate w candidate (d.attempt candidate).requestedAt) accepted
      handOff w d store candidate =
        if (d.attempt candidate).fault = some .afterCommit then (committed, .error infrastructureFailure)
        else if (d.attempt candidate).fault = some .afterEnqueue then
          (committed.enqueue (requestId candidate), .error infrastructureFailure)
        else (committed.enqueue (requestId candidate), .ok ()) := by
  have haccept := @acceptVerification_fresh w store candidate hmem hstatus hfresh
    (d.attempt candidate).requestedAt (d.attempt candidate).acceptedAt
  simp only [if_neg htimely] at haccept
  obtain ⟨accepted, hid, haccept⟩ := haccept
  refine ⟨accepted, hid, ?_⟩
  unfold handOff
  simp [hstatus, hfault, haccept]

theorem handOff_stale (hstatus : candidate.status = .COMPLETE) {record : IdempotencyRecord}
    (hrecord : store.records (requestId candidate) = some record)
    (hclock : record.requestDigest.requestedAt ≠ (d.attempt candidate).requestedAt) :
    ∃ e, handOff w d store candidate = (store, .error e) := by
  have hdigest : record.requestDigest
      ≠ requestForCandidate w candidate (d.attempt candidate).requestedAt := by
    intro heq
    exact hclock (congrArg VerificationRequest.requestedAt heq)
  have haccept : acceptVerification w
      (requestForCandidate w candidate (d.attempt candidate).requestedAt)
      (d.attempt candidate).acceptedAt store
        = (store, .error (.liyan (MessageConflictError .MESSAGE_DUPLICATE_CONFLICT
            "The idempotency key was reused for different Topic 4 content."))) := by
    have hkey : store.records (requestForCandidate w candidate
        (d.attempt candidate).requestedAt).verificationId = some record := hrecord
    unfold acceptVerification
    simp only [hkey, if_pos hdigest]
  unfold handOff
  by_cases hfault : (d.attempt candidate).fault = some .beforeCommit
  · exact ⟨infrastructureFailure, by simp [hstatus, hfault]⟩
  · exact ⟨_, by simp [hstatus, hfault, haccept, isConflict, MessageConflictError]; rfl⟩

end candidate

/-! ### The loop -/

section loop
variable {w : Workflow} {d : Delivery} {store : Store}

theorem Fresh.commit {candidate other : Candidate} (h : Fresh store other)
    {requestedAt : ℕ} {accepted : Accepted} (haccepted : accepted.verificationId = requestId candidate)
    (hne : requestId candidate ≠ requestId other) :
    Fresh ((store.commit (requestForCandidate w candidate requestedAt) accepted).enqueue
      (requestId candidate)) other := by
  refine ⟨?_, ?_⟩
  · exact (Function.update_of_ne hne.symm _ _).trans h.record
  · intro a ha
    cases List.mem_cons.mp ha with
    | inl hnew =>
      rw [hnew, haccepted]
      exact hne
    | inr hold => exact h.verification a hold

variable {candidate : Candidate}

theorem fresh_rest {rest : List Candidate} {requestedAt : ℕ}
    {accepted : Accepted} (hnew : requestId candidate ∉ rest.map requestId)
    (hfresh : ∀ c ∈ candidate :: rest, c.status = .COMPLETE → Fresh store c)
    (hid : accepted.verificationId = requestId candidate) :
    ∀ c ∈ rest, c.status = .COMPLETE →
      Fresh ((store.commit (requestForCandidate w candidate requestedAt) accepted).enqueue
        (requestId candidate)) c := by
  intro c hc hcomplete
  have hne : requestId candidate ≠ requestId c := fun heq => hnew (heq ▸ List.mem_map_of_mem hc)
  exact (hfresh c (List.mem_cons_of_mem _ hc) hcomplete).commit hid hne

/-- The verifications of a candidate. -/
def Store.accepted (store : Store) (id : VerificationId) : List Accepted :=
  store.verifications.filter fun accepted => accepted.verificationId = id

theorem Fresh.accepted (h : Fresh store candidate) :
    store.accepted (requestId candidate) = [] := by
  unfold Store.accepted
  rw [List.filter_eq_nil_iff]
  exact fun accepted haccepted hid => h.verification accepted haccepted (of_decide_eq_true hid)

theorem accepted_commit {request : VerificationRequest} {accepted : Accepted}
    (id : VerificationId) : (store.commit request accepted).accepted id
      = if accepted.verificationId = id then accepted :: store.accepted id else store.accepted id := by
  unfold Store.accepted Store.commit
  rw [List.filter_cons]
  simp only [decide_eq_true_eq]

theorem handOff_ok {store after : Store} (hmem : candidate ∈ w.candidates)
    (hstatus : candidate.status = .COMPLETE) (hfresh : Fresh store candidate)
    (h : handOff w d store candidate = (after, .ok ())) :
    ∃ accepted, accepted.verificationId = requestId candidate ∧
      after = (store.commit (requestForCandidate w candidate (d.attempt candidate).requestedAt)
        accepted).enqueue (requestId candidate) := by
  by_cases hrefused : (d.attempt candidate).fault = some .beforeCommit ∨
      (d.attempt candidate).requestedAt + initialDeadline ≤ (d.attempt candidate).acceptedAt
  · obtain ⟨e, he⟩ := handOff_refused hmem hstatus hfresh hrefused
    rw [he] at h
    cases h
  · rw [not_or] at hrefused
    obtain ⟨accepted, hid, hcommitted⟩ := handOff_committed hmem hstatus hfresh hrefused.1 hrefused.2
    rw [hcommitted] at h
    split_ifs at h with hcommit henqueue
    · cases h
    · cases h
    · exact ⟨accepted, hid, (congrArg Prod.fst h).symm⟩

variable {candidates : List Candidate}

/-- **A loop that returns** has accepted every complete candidate once and enqueued it. -/
theorem handOffAll_ok {store after : Store}
    (hmem : ∀ candidate ∈ candidates, candidate ∈ w.candidates)
    (hnodup : (candidates.map requestId).Nodup)
    (hfresh : ∀ candidate ∈ candidates, candidate.status = .COMPLETE → Fresh store candidate)
    (h : handOffAll w d store candidates = (after, .ok ())) :
    (∀ candidate ∈ candidates, candidate.status = .COMPLETE →
        (after.accepted (requestId candidate)).length = 1 ∧ requestId candidate ∈ after.queue) ∧
      (∀ id ∉ candidates.map requestId, after.accepted id = store.accepted id) ∧
      store.queue ⊆ after.queue := by
  induction candidates generalizing store with
  | nil =>
    cases h
    exact ⟨by simp, fun _ _ => rfl, List.Subset.refl _⟩
  | cons candidate rest ih =>
    obtain ⟨hnew, hrest⟩ := List.nodup_cons.mp hnodup
    have hmemRest : ∀ c ∈ rest, c ∈ w.candidates := fun c hc => hmem c (List.mem_cons_of_mem _ hc)
    rw [handOffAll] at h
    by_cases hstatus : candidate.status = .COMPLETE
    · cases hround : handOff w d store candidate with
      | mk next result =>
      rw [hround] at h
      cases result with
      | error e => cases h
      | ok u =>
        obtain ⟨accepted, hid, hnext⟩ := handOff_ok (hmem candidate List.mem_cons_self) hstatus
          (hfresh candidate List.mem_cons_self hstatus) hround
        have hfreshRest := hnext ▸ fresh_rest hnew hfresh hid
        obtain ⟨hdone, hothers, hqueue⟩ := ih hmemRest hrest hfreshRest h
        have hnextAccepted : ∀ id, next.accepted id
            = if requestId candidate = id then accepted :: store.accepted id else store.accepted id := by
          intro id
          rw [hnext, ← hid]
          exact @accepted_commit store
            (requestForCandidate w candidate (d.attempt candidate).requestedAt) accepted id
        have hqueued : store.queue ++ [requestId candidate] ⊆ after.queue := by
          rw [hnext] at hqueue
          exact hqueue
        refine ⟨?_, ?_, ?_⟩
        · intro c hc hcomplete
          cases List.mem_cons.mp hc with
          | inl hsame =>
            subst hsame
            rw [hothers _ hnew, hnextAccepted, if_pos rfl,
              (hfresh c List.mem_cons_self hcomplete).accepted]
            exact ⟨rfl, hqueued (by simp)⟩
          | inr hlater => exact hdone c hlater hcomplete
        · intro id hid'
          rw [List.map_cons, List.mem_cons, not_or] at hid'
          rw [hothers id hid'.2, hnextAccepted, if_neg (Ne.symm hid'.1)]
        · intro id hin
          exact hqueued (List.mem_append_left _ hin)
    · rw [handOff_skip hstatus] at h
      obtain ⟨hdone, hothers, hqueue⟩ := ih hmemRest hrest
        (fun c hc => hfresh c (List.mem_cons_of_mem _ hc)) h
      refine ⟨?_, ?_, hqueue⟩
      · intro c hc hcomplete
        cases List.mem_cons.mp hc with
        | inl hsame => exact absurd (hsame ▸ hcomplete) hstatus
        | inr hlater => exact hdone c hlater hcomplete
      · intro id hid
        exact hothers id fun hin => hid (List.mem_cons_of_mem _ hin)

theorem handOffAll_clean
    (hmem : ∀ candidate ∈ candidates, candidate ∈ w.candidates)
    (hnodup : (candidates.map requestId).Nodup)
    (hfresh : ∀ candidate ∈ candidates, candidate.status = .COMPLETE → Fresh store candidate)
    (hclean : d.Clean w) : (handOffAll w d store candidates).2 = .ok () := by
  induction candidates generalizing store with
  | nil => rfl
  | cons candidate rest ih =>
    obtain ⟨hnew, hrest⟩ := List.nodup_cons.mp hnodup
    have hmemRest : ∀ c ∈ rest, c ∈ w.candidates := fun c hc => hmem c (List.mem_cons_of_mem _ hc)
    obtain ⟨hfault, htimely⟩ := hclean.2 candidate (hmem candidate List.mem_cons_self)
    rw [handOffAll]
    by_cases hstatus : candidate.status = .COMPLETE
    · obtain ⟨accepted, hid, hround⟩ := @handOff_committed w d store candidate
        (hmem candidate List.mem_cons_self) hstatus (hfresh candidate List.mem_cons_self hstatus)
        (by simp [hfault]) (by omega)
      simp only [hfault, reduceCtorEq, if_false] at hround
      rw [hround]
      exact ih hmemRest hrest (fresh_rest hnew hfresh hid)
    · rw [handOff_skip hstatus]
      exact ih hmemRest hrest fun c hc => hfresh c (List.mem_cons_of_mem _ hc)

theorem handOffAll_append {skipped candidates : List Candidate}
    (h : ∀ candidate ∈ skipped, candidate.status ≠ .COMPLETE) :
    handOffAll w d store (skipped ++ candidates) = handOffAll w d store candidates := by
  induction skipped with
  | nil => rfl
  | cons candidate rest ih =>
    rw [List.cons_append, handOffAll, handOff_skip (h candidate List.mem_cons_self)]
    exact ih fun c hc => h c (List.mem_cons_of_mem _ hc)

theorem handOffAll_first (h : w.first = some candidate) :
    candidate ∈ w.candidates ∧ candidate.status = .COMPLETE ∧
      ∃ rest, handOffAll w d store w.candidates = handOffAll w d store (candidate :: rest) := by
  obtain ⟨hstatus, skipped, rest, hsplit, hskipped⟩ := List.find?_eq_some_iff_append.mp h
  refine ⟨?_, of_decide_eq_true hstatus, rest, ?_⟩
  · rw [hsplit]
    simp
  · rw [hsplit, handOffAll_append fun c hc => by simpa using hskipped c hc]

/-! ### Records stay -/

variable {id : VerificationId} {record : IdempotencyRecord}

theorem acceptVerification_records
    (h : store.records id = some record) (request : VerificationRequest) (now : ℕ) :
    (acceptVerification w request now store).1.records id = some record := by
  unfold acceptVerification
  cases hrecord : store.records request.verificationId with
  | some other =>
    simp only
    split_ifs with hdigest
    · exact h
    · exact h
  | none =>
    cases hcallback : acceptCallback w request now store with
    | error e => exact h
    | ok accepted =>
      have hne : id ≠ request.verificationId := by
        intro heq
        rw [heq, hrecord] at h
        cases h
      exact (Function.update_of_ne hne _ _).trans h

theorem handOff_records
    (h : store.records id = some record) (candidate : Candidate) :
    (handOff w d store candidate).1.records id = some record := by
  have haccept := acceptVerification_records h (w := w)
    (requestForCandidate w candidate (d.attempt candidate).requestedAt) (d.attempt candidate).acceptedAt
  unfold handOff
  simp only
  cases hresult : acceptVerification w
      (requestForCandidate w candidate (d.attempt candidate).requestedAt)
      (d.attempt candidate).acceptedAt store with
  | mk after result =>
    rw [hresult] at haccept
    cases result with
    | error e =>
      simp only
      split_ifs with hstatus hbefore hconflict
      · exact h
      · exact h
      · exact haccept
      · exact haccept
    | ok accepted =>
      simp only
      split_ifs with hstatus hbefore hcommit henqueue
      · exact h
      · exact h
      · exact haccept
      · exact haccept
      · exact haccept

theorem handOffAll_records (h : store.records id = some record) :
    (handOffAll w d store candidates).1.records id = some record := by
  induction candidates generalizing store with
  | nil => exact h
  | cons candidate rest ih =>
    have hround := handOff_records (w := w) (d := d) h candidate
    rw [handOffAll]
    cases hresult : handOff w d store candidate with
    | mk after result =>
      rw [hresult] at hround
      cases result with
      | error e => exact hround
      | ok u => exact ih hround

end loop

/-! ### Redeliveries -/

section redelivery
variable {w : Workflow}

/-- The accept of the first complete candidate is committed for an earlier clock reading. -/
def Stuck (w : Workflow) (store : Store) (d : Delivery) : Prop :=
  ∃ candidate ∈ w.first, ∃ record ∈ store.records (requestId candidate),
    record.requestDigest.requestedAt < (d.attempt candidate).requestedAt

variable {store : Store} {d : Delivery}

theorem Stuck.consume (h : Stuck w store d) :
    ∃ e, consume w d store = (store, .error e) := by
  obtain ⟨candidate, hfirst, record, hrecord, hclock⟩ := h
  obtain ⟨-, hstatus, rest, hloop⟩ := @handOffAll_first w d store candidate hfirst
  obtain ⟨e, he⟩ := @handOff_stale w d store candidate hstatus record hrecord (by omega)
  unfold HandOff.consume
  split_ifs with hload hlocale
  · exact ⟨_, rfl⟩
  · exact ⟨_, rfl⟩
  · rw [hloop, handOffAll, he]
    exact ⟨e, rfl⟩

theorem fresh_empty (candidate : Candidate) : Fresh Store.empty candidate :=
  ⟨rfl, by simp [Store.empty]⟩

theorem requestIds_nodup (w : Workflow) : (w.candidates.map requestId).Nodup := by
  refine List.Nodup.of_map (fun id => (id.candidateId, id.candidateVersion)) ?_
  rw [List.map_map]
  exact w.distinct

theorem consume_commitsNothing (h : d.CommitsNothing w) :
    ∃ e, consume w d Store.empty = (Store.empty, .error e) := by
  unfold consume
  split_ifs with hload hlocale
  · exact ⟨_, rfl⟩
  · exact ⟨_, rfl⟩
  · obtain ⟨candidate, hfirst, hrefused⟩ := h.resolve_left hload
    obtain ⟨hmem, hstatus, rest, hloop⟩ := @handOffAll_first w d Store.empty candidate hfirst
    obtain ⟨e, he⟩ := handOff_refused hmem hstatus (fresh_empty candidate) hrefused
    rw [hloop, handOffAll, he]
    exact ⟨e, rfl⟩

theorem consume_commits {after : Store} {e : Exn} (hlocale : w.locale = .zhCN)
    (hcommits : ¬ d.CommitsNothing w) (h : consume w d Store.empty = (after, .error e)) :
    ∃ candidate ∈ w.first, ∃ record ∈ after.records (requestId candidate),
      record.requestDigest.requestedAt = (d.attempt candidate).requestedAt := by
  rw [Delivery.CommitsNothing, not_or] at hcommits
  rw [consume, if_neg hcommits.1, if_neg (by simp [hlocale])] at h
  cases hfirst : w.first with
  | none =>
    have hall := List.find?_eq_none.mp hfirst
    have hloop := @handOffAll_append w d Store.empty w.candidates []
      fun c hc => by simpa using hall c hc
    rw [List.append_nil, h] at hloop
    cases hloop
  | some candidate =>
    obtain ⟨hmem, hstatus, rest, hloop⟩ := @handOffAll_first w d Store.empty candidate hfirst
    have hneither : ¬ ((d.attempt candidate).fault = some .beforeCommit ∨
        (d.attempt candidate).requestedAt + initialDeadline ≤ (d.attempt candidate).acceptedAt) :=
      fun hrefused => hcommits.2 ⟨candidate, hfirst, hrefused⟩
    rw [not_or] at hneither
    obtain ⟨accepted, -, hround⟩ := handOff_committed hmem hstatus (fresh_empty candidate) hneither.1
      hneither.2
    have hrecord : (handOff w d Store.empty candidate).1.records (requestId candidate)
        = some ⟨requestForCandidate w candidate (d.attempt candidate).requestedAt, accepted⟩ := by
      rw [hround]
      split_ifs with hcommit henqueue
      · exact Function.update_self _ _ _
      · exact Function.update_self _ _ _
      · exact Function.update_self _ _ _
    refine ⟨candidate, rfl,
      ⟨requestForCandidate w candidate (d.attempt candidate).requestedAt, accepted⟩, ?_, rfl⟩
    rw [hloop, handOffAll] at h
    cases hresult : handOff w d Store.empty candidate with
    | mk next result =>
      rw [hresult] at h hrecord
      cases result with
      | error e' =>
        have hafter : next = after := congrArg Prod.fst h
        rw [← hafter]
        exact hrecord
      | ok u =>
        have hafter : (handOffAll w d next rest).1 = after := congrArg Prod.fst h
        rw [← hafter]
        exact handOffAll_records hrecord

theorem redeliver_some {store after : Store} (h : redeliver w store d = some after) :
    ∃ e, consume w d store = (after, .error e) := by
  rw [redeliver] at h
  cases hresult : consume w d store with
  | mk next result =>
    rw [hresult] at h
    cases result with
    | ok u => cases h
    | error e =>
      cases h
      exact ⟨e, rfl⟩

theorem run_stuck {store after : Store} {deliveries : List Delivery}
    (hstuck : ∀ d ∈ deliveries, Stuck w store d) (h : run (redeliver w) store deliveries = some after) :
    after = store := by
  induction deliveries with
  | nil => exact (Option.some.inj h).symm
  | cons d rest ih =>
    obtain ⟨next, hnext, hrun⟩ := run_cons_eq_some.mp h
    obtain ⟨_, hfailed⟩ := redeliver_some hnext
    obtain ⟨_, hrefused⟩ := (hstuck d List.mem_cons_self).consume
    have hsame : next = store := congrArg Prod.fst (hfailed.symm.trans hrefused)
    rw [hsame] at hrun
    exact ih (fun d' hd' => hstuck d' (List.mem_cons_of_mem _ hd')) hrun

theorem stuck_of_commits {d later : Delivery} {e : Exn} (hlocale : w.locale = .zhCN)
    (hcommits : ¬ d.CommitsNothing w) (h : consume w d Store.empty = (store, .error e))
    (hlater : Later w d later) : Stuck w store later := by
  obtain ⟨candidate, hfirst, record, hrecord, hclock⟩ := consume_commits hlocale hcommits h
  have hmem := (@handOffAll_first w d Store.empty candidate hfirst).1
  refine ⟨candidate, hfirst, record, hrecord, ?_⟩
  rw [hclock]
  exact hlater candidate hmem

/-- After deliveries that all failed, either nothing has been committed or the next one is stuck. -/
theorem run_redeliver {earlier : List Delivery} (hlocale : w.locale = .zhCN)
    (hlater : (earlier ++ [d]).Pairwise (Later w))
    (h : run (redeliver w) Store.empty earlier = some store) :
    (∀ e ∈ earlier, e.CommitsNothing w) ∧ store = Store.empty ∨
      (∃ e ∈ earlier, ¬ e.CommitsNothing w) ∧ Stuck w store d := by
  induction earlier with
  | nil => exact Or.inl ⟨by simp, (Option.some.inj h).symm⟩
  | cons e rest ih =>
    obtain ⟨hfirst, hrest⟩ := List.pairwise_cons.mp hlater
    obtain ⟨next, hnext, hrun⟩ := run_cons_eq_some.mp h
    obtain ⟨_, hfailed⟩ := redeliver_some hnext
    by_cases hnothing : e.CommitsNothing w
    · obtain ⟨_, hrefused⟩ := consume_commitsNothing hnothing
      have hsame : next = Store.empty := congrArg Prod.fst (hfailed.symm.trans hrefused)
      rw [hsame] at hrun
      cases ih hrest hrun with
      | inl hnone => exact Or.inl ⟨List.forall_mem_cons.mpr ⟨hnothing, hnone.1⟩, hnone.2⟩
      | inr hsome =>
        obtain ⟨⟨e', he', hcommits⟩, hstuck⟩ := hsome
        exact Or.inr ⟨⟨e', List.mem_cons_of_mem _ he', hcommits⟩, hstuck⟩
    · have hstuck : ∀ d' ∈ rest ++ [d], Stuck w next d' := fun d' hd' =>
        stuck_of_commits hlocale hnothing hfailed (hfirst d' hd')
      have hsame : store = next :=
        run_stuck (fun d' hd' => hstuck d' (List.mem_append_left _ hd')) hrun
      rw [hsame]
      exact Or.inr ⟨⟨e, List.mem_cons_self, hnothing⟩, hstuck d (by simp)⟩

theorem consume_otherLocale (hlocale : w.locale ≠ .zhCN) :
    ∃ e, consume w d store = (store, .error e) := by
  unfold consume
  split_ifs with hload
  · exact ⟨_, rfl⟩
  · exact ⟨_, rfl⟩

theorem consume_ok (h : (consume w d Store.empty).2 = .ok ()) :
    HandedOff w (consume w d Store.empty).1 := by
  unfold consume at h ⊢
  split_ifs at h ⊢ with hload hlocale
  cases hloop : handOffAll w d Store.empty w.candidates with
  | mk after result =>
    rw [hloop] at h
    cases h
    exact (handOffAll_ok (fun _ hc => hc) (requestIds_nodup w) (fun c _ _ => fresh_empty c) hloop).1

/-- **Redelivery.** After any deliveries that all failed, each at a later time: a delivery that returns
has handed off every complete candidate, and a delivery without a failure returns exactly when the
workflow is a zh-CN one and no earlier delivery has committed an accept. -/
theorem redelivery_returns_iff (w : Workflow) {earlier : List Delivery} (d : Delivery)
    (h : run (redeliver w) Store.empty earlier = some store)
    (hlater : (earlier ++ [d]).Pairwise (Later w)) :
    ((consume w d store).2 = .ok () → HandedOff w (consume w d store).1) ∧
      (d.Clean w →
        ((consume w d store).2 = .ok () ↔ w.locale = .zhCN ∧ ∀ e ∈ earlier, e.CommitsNothing w)) := by
  by_cases hlocale : w.locale = .zhCN
  · cases run_redeliver hlocale hlater h with
    | inl hnothing =>
      obtain ⟨hall, hempty⟩ := hnothing
      rw [hempty]
      refine ⟨consume_ok, fun hclean => ⟨fun _ => ⟨hlocale, hall⟩, fun _ => ?_⟩⟩
      rw [consume, if_neg (by simp [hclean.1]), if_neg (by simp [hlocale])]
      exact handOffAll_clean (fun _ hc => hc) (requestIds_nodup w) (fun c _ _ => fresh_empty c) hclean
    | inr hcommitted =>
      obtain ⟨⟨e, he, hcommits⟩, hstuck⟩ := hcommitted
      obtain ⟨exn, hexn⟩ := hstuck.consume
      rw [hexn]
      refine ⟨nofun, fun _ => ⟨nofun, fun hall => ?_⟩⟩
      exact absurd (hall.2 e he) hcommits
  · obtain ⟨exn, hexn⟩ := @consume_otherLocale w store d hlocale
    rw [hexn]
    refine ⟨nofun, fun _ => ⟨nofun, fun hall => ?_⟩⟩
    exact absurd hall.1 hlocale

/-! ### Samples -/

/-- A workflow of one complete candidate. -/
def oneCandidate : Workflow where
  envelopeId := 1
  locale := .zhCN
  courseId := "control"
  targetKpId := "pid"
  candidates := [{
    candidateId := 1
    candidateVersion := 1
    candidateSha256 := 7
    blueprintVersion := "1"
    resourceType := "LECTURE"
    personalizationPolicyDigest := 9
    status := .COMPLETE }]
  distinct := by decide

/-- A delivery that reads the clock at `time` and fails in each round at `fault`. -/
def deliveredAt (time : ℕ) (fault : Option Fault) : Delivery where
  loadFails := false
  attempt := fun _ => ⟨time, time, fault⟩

theorem deliveredAt_clean (w : Workflow) (time : ℕ) : (deliveredAt time none).Clean w := by
  refine ⟨rfl, fun candidate _ => ⟨rfl, ?_⟩⟩
  exact Nat.lt_add_of_pos_right (Nat.succ_pos _)

/-- Two complete candidates, and one between them that failed. -/
def threeCandidates : Workflow :=
  { oneCandidate with
    candidates := oneCandidate.candidates.flatMap fun c =>
      [c, { c with candidateId := 2, status := .FAILED }, { c with candidateId := 3 }]
    distinct := by decide }

/-- A first delivery fails in its transaction, and the second one hands the candidates off. -/
theorem redelivery_returns_iff_threeCandidates :
    (consume threeCandidates (deliveredAt 1 none) Store.empty).2 = .ok () ∧
      HandedOff threeCandidates (consume threeCandidates (deliveredAt 1 none) Store.empty).1 := by
  have hrun : run (redeliver threeCandidates) Store.empty [deliveredAt 0 (some .beforeCommit)]
      = some Store.empty := rfl
  obtain ⟨hok, hiff⟩ := redelivery_returns_iff threeCandidates (deliveredAt 1 none) hrun
    (by simp [Later, deliveredAt])
  have hreturns := (hiff (deliveredAt_clean threeCandidates 1)).mpr ⟨rfl, by decide⟩
  exact ⟨hreturns, hok hreturns⟩

/-- The first delivery commits the accept, and the task queue takes nothing. The second one is refused,
since its request carries another time under the same key, and the candidate is never enqueued. -/
theorem accepted_candidate_never_enqueued : ∃ store,
    run (redeliver oneCandidate) Store.empty [deliveredAt 0 (some .afterCommit)] = some store ∧
      Later oneCandidate (deliveredAt 0 (some .afterCommit)) (deliveredAt 1 none) ∧
      (deliveredAt 1 none).Clean oneCandidate ∧
      (consume oneCandidate (deliveredAt 1 none) store).2
        = .error (.liyan (MessageConflictError .MESSAGE_DUPLICATE_CONFLICT
            "The idempotency key was reused for different Topic 4 content.")) ∧
      (consume oneCandidate (deliveredAt 1 none) store).1.queue = [] := by
  refine ⟨_, rfl, ?_, deliveredAt_clean oneCandidate 1, rfl, rfl⟩
  simp [Later, deliveredAt]

end redelivery

end CyberControl.HandOff
