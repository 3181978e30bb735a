import CyberControl.ComplianceRecords
import CyberControl.RevisionCandidate
import Mathlib.Data.List.Range

/-! # The lineage of a candidate

`RevisionEngine.revise` (`revision/engine.py`) with the tables it appends to
(`revision/postgres_repository.py`, `topic3/postgres_repository.py`).  Calls overlap: a call reads the
tables as they were when its transaction began and is given a candidate that its caller has read at any
time before, and what it appends meets the unique and foreign keys of the tables as they are. -/

namespace CyberControl.RevisionLineage

open Transition Verification Revision BlockRevision
open Topic3 (BlockV1)
open Compliance (isVersionString)

/-! ### Records -/

inductive RevisionCycleState where
  | PLANNED
  | LOCKED
  | GENERATING
  | COMPLETED
  | FAILED
  | CANCELLED
deriving DecidableEq, Repr

/-- `RevisionPatchV1` with its identifier. -/
structure Patch extends RevisionPatchV1 where
  revisionPatchId : ℕ

structure RevisionPlanV1 where
  revisionPlanId : ℕ
  revisionCycleId : ℕ
  verificationId : ℕ
  candidateId : ℕ
  baseCandidateVersion : ℕ
  baseCandidateSha256 : String
  revisionRound : ℕ
  targetAgent : String
  affectedClaimIds : List ℕ
  affectedBlockIds : List String
  patchIds : List ℕ
  instructionsArtifact : String
  instructionsSha256 : String
  promptBundleVersion : String

structure RevisionResponseV1 where
  revisionRequestId : ℕ
  childVerificationId : ℕ
  revisedCandidateId : ℕ
  revisedCandidateVersion : ℕ
  revisedCandidateSha256 : String
  changedBlockIds : List String
  responseSha256 : String

/-- The document of a completed cycle. -/
structure Document where
  revisionRequestId : ℕ
  plan : RevisionPlanV1
  patches : List Patch
  candidate : CandidateV1
  response : RevisionResponseV1
  reverification : ReverificationCommand

/-- `RevisionCycleV1`, with the document beside it in its row. -/
structure RevisionCycleV1 where
  revisionCycleId : ℕ
  versionCas : ℕ
  verificationId : ℕ
  parentVerificationId : ℕ
  candidateId : ℕ
  baseCandidateVersion : ℕ
  baseCandidateSha256 : String
  revisionRound : ℕ
  state : RevisionCycleState
  lockToken : ℕ
  lockOwner : String
  lockExpiresAt : ℕ
  createdAt : ℕ
  completedAt : Option ℕ
  document : Option Document

structure RevisionOutcome where
  cycle : RevisionCycleV1
  plan : RevisionPlanV1
  patches : List Patch
  candidate : CandidateV1
  response : RevisionResponseV1
  reverification : ReverificationCommand

/-! ### Tables -/

/-- The tables of a tenant; a plan is kept with the version of its cycle, of a verification only its
identifier counts here. -/
structure Tables where
  verifications : List ℕ
  candidates : List CandidateV1
  cycles : List RevisionCycleV1
  plans : List (RevisionPlanV1 × ℕ)
  patches : List Patch

def candidateKey (candidate : CandidateV1) : ℕ × ℕ := (candidate.candidateId, candidate.candidateVersion)

def foreignKeyViolation : Exn := .other "IntegrityError"

/-- The rows have no value of `key` already. -/
def Fresh {α κ : Type} (key : α → κ) (rows : List α) (row : α) : Prop := key row ∉ rows.map key

instance {α κ : Type} [DecidableEq κ] (key : α → κ) (rows : List α) (row : α) :
    Decidable (Fresh key rows row) :=
  inferInstanceAs (Decidable (_ ∉ _))

namespace Tables

def appendCycle (t : Tables) (cycle : RevisionCycleV1) : Except Exn Tables := do
  ensure (Fresh (fun row => (row.revisionCycleId, row.versionCas)) t.cycles cycle) uniqueViolation
  ensure (Fresh (fun row => (row.verificationId, row.revisionRound, row.versionCas)) t.cycles cycle)
    uniqueViolation
  ensure (cycle.verificationId ∈ t.verifications) foreignKeyViolation
  ensure ((cycle.candidateId, cycle.baseCandidateVersion) ∈ t.candidates.map candidateKey)
    foreignKeyViolation
  return { t with cycles := t.cycles ++ [cycle] }

/-- `append_plan`; every plan has `version_cas` one. -/
def appendPlan (t : Tables) (plan : RevisionPlanV1) (revisionCycleVersion : ℕ) : Except Exn Tables := do
  ensure (Fresh (·.1.revisionPlanId) t.plans (plan, revisionCycleVersion)) uniqueViolation
  ensure (Fresh (·.1.revisionCycleId) t.plans (plan, revisionCycleVersion)) uniqueViolation
  ensure ((plan.revisionCycleId, revisionCycleVersion)
    ∈ t.cycles.map fun row => (row.revisionCycleId, row.versionCas)) foreignKeyViolation
  return { t with plans := t.plans ++ [(plan, revisionCycleVersion)] }

def appendPatch (t : Tables) (patch : Patch) : Except Exn Tables := do
  ensure (Fresh (·.revisionPatchId) t.patches patch) uniqueViolation
  ensure (Fresh (fun row => (row.revisionPlanId, row.blockId)) t.patches patch) uniqueViolation
  ensure (patch.revisionPlanId ∈ t.plans.map (·.1.revisionPlanId)) foreignKeyViolation
  return { t with patches := t.patches ++ [patch] }

def appendCandidate (t : Tables) (candidate : CandidateV1) : Except Exn Tables := do
  ensure (Fresh candidateKey t.candidates candidate) uniqueViolation
  return { t with candidates := t.candidates ++ [candidate] }

def getCandidate (t : Tables) (candidateId candidateVersion : ℕ) : Option CandidateV1 :=
  t.candidates.find? fun candidate => candidateKey candidate = (candidateId, candidateVersion)

/-- `find_completed_request`: of the completed cycles of the request the one with the last version. -/
def findCompletedRequest (t : Tables) (revisionRequestId : ℕ) : Option RevisionCycleV1 :=
  ((t.cycles.filter fun cycle => cycle.state = .COMPLETED ∧
      cycle.document.map (·.revisionRequestId) = some revisionRequestId).insertionSort
    fun cycle other => other.versionCas ≤ cycle.versionCas).head?

end Tables

/-! ### `RevisionEngine.revise` -/

/-- The arguments of a call besides the candidate. -/
structure Arguments where
  tenantId : String
  request : RevisionRequest
  parentVerificationId : ℕ
  binding : PatchRequest
  instructionsArtifact : String
  instructionsSha256 : String
  patches : List Patch
  lockOwner : String
  promptBundleVersion : String

def Arguments.blockPatches (arguments : Arguments) : List RevisionPatchV1 :=
  arguments.patches.map (·.toRevisionPatchV1)

/-- The life of a lock in microseconds, the identifiers that the engine derives, the digests, the store of
artifacts, and the check on the records of a completed cycle. -/
structure Engine where
  lockTtl : ℕ
  cycleId : ℕ → ℕ
  planId : ℕ → ℕ
  childVerificationId : ℕ → ℕ → String → ℕ
  contracts : Contracts
  readBlock : String → Except Exn BlockV1
  verifyArtifact : String → String → Except Exn Unit
  putResponse : ℕ → RevisionPlanV1 → List Patch → CandidateV1 → ReverificationCommand → Except Exn String
  recordIntegrityValid : RevisionCycleV1 → Document → Bool
  lockTtl_bounds : 1000000 ≤ lockTtl ∧ lockTtl ≤ 3600000000 := by decide

section engine
variable (engine : Engine)

def replayOutcome (cycle : RevisionCycleV1) : Except Exn RevisionOutcome :=
  match cycle.document with
  | none => .error (revisionError "stored C8 replay document failed contract validation")
  | some document => do
    ensure (validateCandidate engine.contracts document.candidate = .ok ())
      (revisionError "stored C8 replay document failed contract validation")
    ensure (engine.recordIntegrityValid cycle document)
      (revisionError "stored C8 replay record hash validation failed")
    return ⟨cycle, document.plan, document.patches, document.candidate, document.response,
      document.reverification⟩

variable (arguments : Arguments) (candidate : CandidateV1) (lockToken now : ℕ)

def cycle (state : RevisionCycleState) (version : ℕ) (completedAt : Option ℕ) (document : Option Document) :
    RevisionCycleV1 where
  revisionCycleId := engine.cycleId arguments.request.revisionRequestId
  versionCas := version
  verificationId := arguments.request.verificationId
  parentVerificationId := arguments.parentVerificationId
  candidateId := candidate.candidateId
  baseCandidateVersion := candidate.candidateVersion
  baseCandidateSha256 := candidate.candidateSha256
  revisionRound := arguments.request.revisionRound
  state
  lockToken
  lockOwner := arguments.lockOwner
  lockExpiresAt := now + engine.lockTtl
  createdAt := now
  completedAt
  document

def plan : RevisionPlanV1 where
  revisionPlanId := engine.planId (engine.cycleId arguments.request.revisionRequestId)
  revisionCycleId := engine.cycleId arguments.request.revisionRequestId
  verificationId := arguments.request.verificationId
  candidateId := candidate.candidateId
  baseCandidateVersion := candidate.candidateVersion
  baseCandidateSha256 := candidate.candidateSha256
  revisionRound := arguments.request.revisionRound
  targetAgent := arguments.request.targetAgent
  affectedClaimIds := arguments.binding.claimIds.insertionSort (· ≤ ·)
  affectedBlockIds := arguments.binding.blockIds.insertionSort (· ≤ ·)
  patchIds := arguments.patches.map (·.revisionPatchId)
  instructionsArtifact := arguments.instructionsArtifact
  instructionsSha256 := arguments.instructionsSha256
  promptBundleVersion := arguments.promptBundleVersion

/-- The command to verify the revised candidate. -/
def reverification (revised : CandidateV1) : ReverificationCommand :=
  (Revision.outcome engine.childVerificationId arguments.request revised.summary).reverification

def buildResponse (revised : CandidateV1) : Except Exn RevisionResponseV1 := do
  let responseSha256 ← engine.putResponse arguments.request.revisionRequestId
    (plan engine arguments candidate) arguments.patches revised (reverification engine arguments revised)
  return {
    revisionRequestId := arguments.request.revisionRequestId
    childVerificationId := (reverification engine arguments revised).verificationId
    revisedCandidateId := revised.candidateId
    revisedCandidateVersion := revised.candidateVersion
    revisedCandidateSha256 := revised.candidateSha256
    changedBlockIds := (arguments.patches.map (·.blockId)).dedup.insertionSort (· ≤ ·)
    responseSha256 }

/-- The document of the completed cycle. -/
def document (revised : CandidateV1) (response : RevisionResponseV1) : Document where
  revisionRequestId := arguments.request.revisionRequestId
  plan := plan engine arguments candidate
  patches := arguments.patches
  candidate := revised
  response
  reverification := reverification engine arguments revised

/-- What `revise` appends for a revised candidate. -/
def append (t : Tables) (revised : CandidateV1) : Except Exn (Tables × RevisionOutcome) := do
  let plan := plan engine arguments candidate
  let cycle := cycle engine arguments candidate lockToken now
  let t ← t.appendCycle (cycle .LOCKED 1 none none)
  ensure (isVersionString arguments.promptBundleVersion) (.validationError ["prompt_bundle_version"])
  ensure (∀ patch ∈ arguments.patches, patch.revisionPlanId = plan.revisionPlanId)
    (revisionError "patches must reference the derived immutable plan id")
  let t ← t.appendPlan plan 1
  let t ← arguments.patches.foldlM (fun t patch => t.appendPatch patch) t
  let t ← t.appendCycle (cycle .GENERATING 2 none none)
  let t ← t.appendCandidate revised
  let response ← buildResponse engine arguments candidate revised
  let completed := cycle .COMPLETED 3 (some now) (some (document engine arguments candidate revised response))
  let t ← t.appendCycle completed
  return (t, ⟨completed, plan, arguments.patches, revised, response,
    reverification engine arguments revised⟩)

/-- `revise`: what it looks up is read from `snapshot`, and what it appends goes to `t`. -/
def revise (snapshot t : Tables) : Except Exn (Tables × RevisionOutcome) := do
  ensure (1 ≤ arguments.lockOwner.length ∧ arguments.lockOwner.length ≤ 128)
    (.valueError "lock_owner must contain 1 to 128 characters")
  ensure (arguments.promptBundleVersion ≠ "") (.valueError "prompt_bundle_version is required")
  ensure (arguments.binding.tenantId = arguments.tenantId)
    (revisionError "revision request tenant does not match trusted context")
  validateRequestBinding arguments.request candidate.summary now
  validatePatchSet arguments.binding arguments.blockPatches
  match snapshot.findCompletedRequest arguments.request.revisionRequestId with
  | some replay => do
    let outcome ← replayOutcome engine replay
    return (t, outcome)
  | none => do
    validateRoundBudget arguments.request candidate.summary
    engine.verifyArtifact arguments.instructionsArtifact arguments.instructionsSha256
    let replacements ←
      loadReplacementBlocks engine.contracts engine.readBlock candidate arguments.blockPatches
    let revised ←
      BlockRevision.buildCandidate engine.contracts candidate arguments.blockPatches replacements now
    append engine arguments candidate lockToken now t revised

end engine

/-! ### Overlapping calls -/

/-- A call is under way with the tables that its transaction reads, or it has ended. -/
inductive Call where
  | running (arguments : Arguments) (candidate : CandidateV1) (snapshot : Tables)
  | returned (outcome : RevisionOutcome)
  | raised (error : Exn)

/-- The tables, the candidates that the callers have read, and the calls. -/
structure World where
  tables : Tables
  held : ℕ → Option CandidateV1
  calls : ℕ → Option Call

def World.setCall (w : World) (i : ℕ) (call : Call) : World :=
  { w with calls := Function.update w.calls i (some call) }

inductive Action where
  /-- A verification is accepted. -/
  | accept (verificationId : ℕ)
  /-- A caller reads a version of a candidate. -/
  | read (caller candidateId candidateVersion : ℕ)
  /-- A caller starts the transaction of a call with the candidate it holds. -/
  | start (i caller : ℕ) (arguments : Arguments)
  /-- The call runs, and its transaction commits unless the call raises. -/
  | finish (i lockToken now : ℕ)
  /-- The database or the process gives the call up, and its transaction is rolled back. -/
  | abort (i : ℕ) (error : Exn)

/-- The call that takes the step. -/
def Action.call : Action → Option ℕ
  | .accept _ => none
  | .read _ _ _ => none
  | .start i _ _ => some i
  | .finish i _ _ => some i
  | .abort i _ => some i

/-- The transaction of a call ends. -/
def World.finish (engine : Engine) (w : World) (i : ℕ) (arguments : Arguments) (candidate : CandidateV1)
    (snapshot : Tables) (lockToken now : ℕ) : World :=
  match revise engine arguments candidate lockToken now snapshot w.tables with
  | .error e => w.setCall i (.raised e)
  | .ok (tables, outcome) => { w.setCall i (.returned outcome) with tables }

def step (engine : Engine) (w : World) : Action → Option World
  | .accept verificationId =>
    some { w with tables :=
      { w.tables with verifications := w.tables.verifications ++ [verificationId] } }
  | .read caller candidateId candidateVersion =>
    match w.tables.getCandidate candidateId candidateVersion with
    | none => none
    | some candidate => some { w with held := Function.update w.held caller (some candidate) }
  | .start i caller arguments =>
    match w.calls i, w.held caller with
    | none, some candidate => some (w.setCall i (.running arguments candidate w.tables))
    | _, _ => none
  | .finish i lockToken now =>
    match w.calls i with
    | some (.running arguments candidate snapshot) =>
      some (w.finish engine i arguments candidate snapshot lockToken now)
    | _ => none
  | .abort i error =>
    match w.calls i with
    | some (.running _ _ _) => some (w.setCall i (.raised error))
    | _ => none

/-! ### The lineage -/

namespace Tables

/-- The versions of a candidate, in the order in which they were appended. -/
def versions (t : Tables) (candidateId : ℕ) : List CandidateV1 :=
  t.candidates.filter (·.candidateId = candidateId)

/-- The completed cycles that produced a version of a candidate. -/
def producing (t : Tables) (key : ℕ × ℕ) : List RevisionCycleV1 :=
  t.cycles.filter fun cycle => cycle.state = .COMPLETED ∧
    cycle.document.map (fun document => candidateKey document.candidate) = some key

end Tables

/-- A completed cycle revised `base` into `next`. -/
structure Revises (base next : CandidateV1) (cycle : RevisionCycleV1) : Prop where
  candidate : cycle.candidateId = base.candidateId
  version : cycle.baseCandidateVersion = base.candidateVersion
  sha256 : cycle.baseCandidateSha256 = base.candidateSha256
  round : cycle.revisionRound = base.candidateVersion
  produced : cycle.document.map (·.candidate) = some next

/-- The versions of a candidate are numbered from one, there are at most three, and each but the first was
produced from the one before by exactly one completed revision. -/
structure Linear (t : Tables) (candidateId : ℕ) : Prop where
  numbered : (t.versions candidateId).map (·.candidateVersion)
    = List.range' 1 (t.versions candidateId).length
  bounded : (t.versions candidateId).length ≤ 3
  produced : ∀ base ∈ t.versions candidateId, ∀ next ∈ t.versions candidateId,
    next.candidateVersion = base.candidateVersion + 1 →
      ∃ cycle, t.producing (candidateKey next) = [cycle] ∧ Revises base next cycle

/-- Each candidate is there in its first version, nothing has been revised, and no call has started. -/
structure Initial (w : World) : Prop where
  once : (w.tables.candidates.map (·.candidateId)).Nodup
  first : ∀ candidate ∈ w.tables.candidates, candidate.candidateVersion = 1
  cycles : w.tables.cycles = []
  held : ∀ caller, w.held caller = none
  calls : ∀ i, w.calls i = none

/-! ### What a call appends -/

section appended
variable {engine : Engine} {arguments : Arguments} {candidate revised : CandidateV1} {lockToken now : ℕ}
  {snapshot t t' : Tables} {outcome : RevisionOutcome}

theorem appendCycle_ok {cycle : RevisionCycleV1} (h : t.appendCycle cycle = .ok t') :
    t' = { t with cycles := t.cycles ++ [cycle] } := by
  unfold Tables.appendCycle at h
  simp only [unit_bind_eq_ok] at h
  obtain ⟨-, -, -, -, h⟩ := h
  exact (Except.ok.inj h).symm

theorem appendPlan_ok {plan : RevisionPlanV1} {version : ℕ} (h : t.appendPlan plan version = .ok t') :
    t' = { t with plans := t.plans ++ [(plan, version)] } := by
  unfold Tables.appendPlan at h
  simp only [unit_bind_eq_ok] at h
  obtain ⟨-, -, -, h⟩ := h
  exact (Except.ok.inj h).symm

theorem appendPatch_ok {patch : Patch} (h : t.appendPatch patch = .ok t') :
    t' = { t with patches := t.patches ++ [patch] } := by
  unfold Tables.appendPatch at h
  simp only [unit_bind_eq_ok] at h
  obtain ⟨-, -, -, h⟩ := h
  exact (Except.ok.inj h).symm

theorem appendPatches_ok {patches : List Patch}
    (h : patches.foldlM (fun t patch => t.appendPatch patch) t = .ok t') :
    t' = { t with patches := t.patches ++ patches } := by
  induction patches generalizing t with
  | nil =>
    rw [← Except.ok.inj h, List.append_nil]
  | cons patch patches ih =>
    rw [List.foldlM_cons] at h
    obtain ⟨u, hu, h⟩ := bind_eq_ok.mp h
    rw [ih h, appendPatch_ok hu]
    simp

theorem appendCandidate_ok (h : t.appendCandidate candidate = .ok t') :
    Fresh candidateKey t.candidates candidate ∧ t' = { t with candidates := t.candidates ++ [candidate] } := by
  obtain ⟨hfresh, h⟩ := unit_bind_eq_ok.mp h
  exact ⟨ensure_eq_ok.mp hfresh, (Except.ok.inj h).symm⟩

/-- A new version with its cycle, its plan and its patches. -/
structure Appended (arguments : Arguments) (candidate revised : CandidateV1) (t t' : Tables) : Prop where
  fresh : Fresh candidateKey t.candidates revised
  verifications : t'.verifications = t.verifications
  candidates : t'.candidates = t.candidates ++ [revised]
  cycles : ∃ locked generating completed, t'.cycles = t.cycles ++ [locked, generating, completed] ∧
    locked.state = .LOCKED ∧ generating.state = .GENERATING ∧ completed.state = .COMPLETED ∧
    (arguments.request.revisionRound = candidate.candidateVersion → Revises candidate revised completed)
  plans : ∃ plan, t'.plans = t.plans ++ [plan]
  patches : t'.patches = t.patches ++ arguments.patches

theorem append_ok (h : append engine arguments candidate lockToken now t revised = .ok (t', outcome)) :
    Appended arguments candidate revised t t' := by
  unfold append at h
  obtain ⟨t₁, hlocked, h⟩ := bind_eq_ok.mp h
  obtain ⟨-, h⟩ := unit_bind_eq_ok.mp h
  obtain ⟨-, h⟩ := unit_bind_eq_ok.mp h
  obtain ⟨t₂, hplan, h⟩ := bind_eq_ok.mp h
  obtain ⟨t₃, hpatches, h⟩ := bind_eq_ok.mp h
  obtain ⟨t₄, hgenerating, h⟩ := bind_eq_ok.mp h
  obtain ⟨t₅, hcandidate, h⟩ := bind_eq_ok.mp h
  obtain ⟨response, -, h⟩ := bind_eq_ok.mp h
  obtain ⟨t₆, hcompleted, h⟩ := bind_eq_ok.mp h
  obtain rfl := appendCycle_ok hlocked
  obtain rfl := appendPlan_ok hplan
  obtain rfl := appendPatches_ok hpatches
  obtain rfl := appendCycle_ok hgenerating
  obtain ⟨hfresh, rfl⟩ := appendCandidate_ok hcandidate
  obtain rfl := appendCycle_ok hcompleted
  obtain ⟨rfl, -⟩ := Prod.mk.inj (Except.ok.inj h)
  have hcycles (a b c : RevisionCycleV1) : t.cycles ++ [a] ++ [b] ++ [c] = t.cycles ++ [a, b, c] := by simp
  refine ⟨hfresh, rfl, rfl, ⟨_, _, _, hcycles _ _ _, rfl, rfl, rfl, fun hround => ?_⟩, ⟨_, rfl⟩, rfl⟩
  exact ⟨rfl, rfl, rfl, hround, rfl⟩

/-- The next version of a candidate. -/
structure Next (candidate revised : CandidateV1) : Prop where
  candidateId : revised.candidateId = candidate.candidateId
  version : revised.candidateVersion = candidate.candidateVersion + 1

theorem next_of_build {patches : List RevisionPatchV1} {replacements : List (String × BlockV1)}
    (h : BlockRevision.buildCandidate engine.contracts candidate patches replacements now = .ok revised) :
    Next candidate revised := by
  obtain ⟨-, h⟩ := unit_bind_eq_ok.mp h
  obtain ⟨-, h⟩ := unit_bind_eq_ok.mp h
  cases h
  exact ⟨rfl, rfl⟩

/-- **What a call writes.**  It replays a completed request, or it appends the next version of its
candidate, which has been revised at most once. -/
theorem revise_cases (h : revise engine arguments candidate lockToken now snapshot t = .ok (t', outcome)) :
    t' = t ∨ ∃ revised, Next candidate revised ∧ candidate.candidateVersion ≤ 2 ∧
      arguments.request.revisionRound = candidate.candidateVersion ∧
      Appended arguments candidate revised t t' := by
  unfold revise at h
  simp only [unit_bind_eq_ok] at h
  obtain ⟨-, -, -, -, -, h⟩ := h
  cases hfound : snapshot.findCompletedRequest arguments.request.revisionRequestId with
  | some replay =>
    rw [hfound] at h
    obtain ⟨_, -, h⟩ := bind_eq_ok.mp h
    exact .inl (Prod.mk.inj (Except.ok.inj h)).1.symm
  | none =>
    rw [hfound] at h
    simp only [unit_bind_eq_ok] at h
    obtain ⟨hbudget, -, h⟩ := h
    obtain ⟨_, -, h⟩ := bind_eq_ok.mp h
    obtain ⟨revised, hbuild, h⟩ := bind_eq_ok.mp h
    have hround : arguments.request.revisionRound = candidate.candidateVersion :=
      validateRoundBudget_ok.mp hbudget
    have hbound := arguments.request.round_bounds.2
    refine .inr ⟨revised, next_of_build hbuild, ?_, hround, append_ok h⟩
    omega

end appended

/-! ### What the tables keep -/

section lineage
variable {arguments : Arguments} {candidate revised : CandidateV1} {t t' : Tables} {candidateId : ℕ}

theorem mem_versions : candidate ∈ t.versions candidateId ↔
    candidate ∈ t.candidates ∧ candidate.candidateId = candidateId := by
  unfold Tables.versions
  rw [List.mem_filter, decide_eq_true_eq]

theorem mem_producing {key : ℕ × ℕ} {cycle : RevisionCycleV1} : cycle ∈ t.producing key ↔
    cycle ∈ t.cycles ∧ cycle.state = .COMPLETED ∧
      cycle.document.map (fun document => candidateKey document.candidate) = some key := by
  unfold Tables.producing
  rw [List.mem_filter, decide_eq_true_eq]

/-- The versions are one chain for each candidate, and what the completed cycles produced is there. -/
structure Sound (t : Tables) : Prop where
  keys : (t.candidates.map candidateKey).Nodup
  linear : ∀ candidateId, Linear t candidateId
  documented : ∀ cycle ∈ t.cycles, cycle.state = .COMPLETED →
    ∀ document ∈ cycle.document, document.candidate ∈ t.candidates

theorem Sound.eq_of_key_eq (h : Sound t) {other : CandidateV1} (hcandidate : candidate ∈ t.candidates)
    (hother : other ∈ t.candidates) (hkey : candidateKey candidate = candidateKey other) :
    candidate = other :=
  List.inj_on_of_nodup_map h.keys hcandidate hother hkey

theorem Sound.producing_of_fresh (h : Sound t) (hfresh : Fresh candidateKey t.candidates revised) :
    t.producing (candidateKey revised) = [] := by
  rw [List.eq_nil_iff_forall_not_mem]
  intro cycle hcycle
  obtain ⟨hcycle, hstate, hdocument⟩ := mem_producing.mp hcycle
  obtain ⟨document, hdocument, hkey⟩ := Option.map_eq_some_iff.mp hdocument
  apply hfresh
  rw [← hkey]
  exact List.mem_map_of_mem (h.documented cycle hcycle hstate document hdocument)

theorem Linear.version_mem (h : Linear t candidateId) (hcandidate : candidate ∈ t.versions candidateId) :
    1 ≤ candidate.candidateVersion ∧ candidate.candidateVersion ≤ (t.versions candidateId).length := by
  have hmem : candidate.candidateVersion ∈ List.range' 1 (t.versions candidateId).length := by
    rw [← h.numbered]
    exact List.mem_map_of_mem hcandidate
  have hbounds := List.mem_range'_1.mp hmem
  omega

theorem Linear.exists_version (h : Linear t candidateId) {version : ℕ} (hpos : 1 ≤ version)
    (hle : version ≤ (t.versions candidateId).length) :
    ∃ candidate ∈ t.versions candidateId, candidate.candidateVersion = version := by
  have hmem : version ∈ (t.versions candidateId).map (·.candidateVersion) := by
    rw [h.numbered, List.mem_range'_1]
    omega
  exact List.mem_map.mp hmem

namespace Appended

theorem versions_eq (h : Appended arguments candidate revised t t') :
    t'.versions candidateId
      = t.versions candidateId ++ if revised.candidateId = candidateId then [revised] else [] := by
  unfold Tables.versions
  rw [h.candidates, List.filter_append]
  congr 1
  simp [List.filter_cons]

/-- One completed cycle produces the revised version, and no other version. -/
theorem producing_eq (h : Appended arguments candidate revised t t')
    (hround : arguments.request.revisionRound = candidate.candidateVersion) :
    ∃ completed, completed.state = .COMPLETED ∧ completed ∈ t'.cycles ∧
      Revises candidate revised completed ∧ ∀ key, t'.producing key
        = t.producing key ++ if candidateKey revised = key then [completed] else [] := by
  obtain ⟨locked, generating, completed, hcycles, hlocked, hgenerating, hcompleted, hrevises⟩ := h.cycles
  have hrevises := hrevises hround
  refine ⟨completed, hcompleted, by simp [hcycles], hrevises, fun key => ?_⟩
  have hkey : completed.document.map (fun document => candidateKey document.candidate)
      = some (candidateKey revised) := by
    have hmap := congrArg (Option.map candidateKey) hrevises.produced
    rwa [Option.map_map] at hmap
  unfold Tables.producing
  rw [hcycles, List.filter_append]
  congr 1
  simp [hlocked, hgenerating, hcompleted, hkey, List.filter_cons, -Option.map_eq_some_iff]

end Appended

theorem Sound.length_eq (hsound : Sound t) (hfresh : Fresh candidateKey t.candidates revised)
    (hcandidate : candidate ∈ t.candidates) (hnext : Next candidate revised) :
    (t.versions candidate.candidateId).length = candidate.candidateVersion := by
  have hlinear := hsound.linear candidate.candidateId
  obtain ⟨-, hle⟩ := hlinear.version_mem (mem_versions.mpr ⟨hcandidate, rfl⟩)
  by_contra hne
  obtain ⟨next, hmem, hversion⟩ := hlinear.exists_version
    (show 1 ≤ candidate.candidateVersion + 1 by omega)
    (show candidate.candidateVersion + 1 ≤ (t.versions candidate.candidateId).length by omega)
  obtain ⟨hmem, hid⟩ := mem_versions.mp hmem
  apply hfresh
  have hkey : candidateKey revised = candidateKey next := by
    unfold candidateKey
    rw [hnext.candidateId, hnext.version, hid, hversion]
  rw [hkey]
  exact List.mem_map_of_mem hmem

variable (hsound : Sound t) (h : Appended arguments candidate revised t t')
  (hround : arguments.request.revisionRound = candidate.candidateVersion)
include hsound h hround

theorem Sound.linear_other (hne : revised.candidateId ≠ candidateId) : Linear t' candidateId := by
  have hlinear := hsound.linear candidateId
  have hversions : t'.versions candidateId = t.versions candidateId := by
    rw [h.versions_eq, if_neg hne, List.append_nil]
  obtain ⟨completed, -, -, -, hproducing⟩ := h.producing_eq hround
  refine ⟨?_, ?_, ?_⟩
  · rw [hversions]
    exact hlinear.numbered
  · rw [hversions]
    exact hlinear.bounded
  · intro base hbase next hmem hversion
    rw [hversions] at hbase hmem
    obtain ⟨cycle, hcycle, hrevises⟩ := hlinear.produced base hbase next hmem hversion
    refine ⟨cycle, ?_, hrevises⟩
    rw [hproducing, hcycle, if_neg, List.append_nil]
    intro hkey
    exact hne ((Prod.mk.inj hkey).1.trans (mem_versions.mp hmem).2)

variable (hcandidate : candidate ∈ t.candidates) (hnext : Next candidate revised)
  (hbudget : candidate.candidateVersion ≤ 2)
include hcandidate hnext hbudget

theorem Sound.linear_self : Linear t' revised.candidateId := by
  have hlinear := hsound.linear candidate.candidateId
  have hlength := hsound.length_eq h.fresh hcandidate hnext
  have hversions : t'.versions revised.candidateId = t.versions candidate.candidateId ++ [revised] := by
    rw [h.versions_eq, if_pos rfl, hnext.candidateId]
  obtain ⟨completed, -, -, hrevises, hproducing⟩ := h.producing_eq hround
  refine ⟨?_, ?_, ?_⟩
  · rw [hversions, List.map_append, hlinear.numbered, List.length_append, List.length_singleton,
      List.range'_1_concat, List.map_singleton, hnext.version, hlength, Nat.add_comm 1]
  · rw [hversions, List.length_append, List.length_singleton, hlength]
    omega
  · intro base hbase next hmem hversion
    rw [hversions, List.mem_append, List.mem_singleton] at hbase hmem
    rcases hmem with hmem | rfl
    · have hnextBound := (hlinear.version_mem hmem).2
      rcases hbase with hbase | rfl
      · obtain ⟨cycle, hcycle, hbase⟩ := hlinear.produced base hbase next hmem hversion
        refine ⟨cycle, ?_, hbase⟩
        -- the new cycle produces another version
        rw [hproducing, hcycle, if_neg, List.append_nil]
        intro hkey
        apply h.fresh
        rw [hkey]
        exact List.mem_map_of_mem (mem_versions.mp hmem).1
      · have hlater := hnext.version
        omega
    · refine ⟨completed, ?_, ?_⟩
      · rw [hproducing, hsound.producing_of_fresh h.fresh, if_pos rfl]
        rfl
      · rcases hbase with hbase | rfl
        · obtain ⟨hbase, hid⟩ := mem_versions.mp hbase
          have hkey : candidateKey candidate = candidateKey base := by
            have hlater := hnext.version
            unfold candidateKey
            rw [hid, show candidate.candidateVersion = base.candidateVersion by omega]
          rw [← hsound.eq_of_key_eq hcandidate hbase hkey]
          exact hrevises
        · omega

theorem Sound.append : Sound t' := by
  refine ⟨?_, fun candidateId => ?_, ?_⟩
  · rw [h.candidates, List.map_append, List.map_singleton, ← List.concat_eq_append]
    exact hsound.keys.concat h.fresh
  · by_cases hid : revised.candidateId = candidateId
    · rw [← hid]
      exact hsound.linear_self h hround hcandidate hnext hbudget
    · exact hsound.linear_other h hround hid
  · obtain ⟨locked, generating, completed, hcycles, hlocked, hgenerating, -, hrevises⟩ := h.cycles
    intro cycle hcycle hstate document hdocument
    rw [hcycles, List.mem_append] at hcycle
    rw [h.candidates, List.mem_append]
    rcases hcycle with hcycle | hcycle
    · exact .inl (hsound.documented cycle hcycle hstate document hdocument)
    · simp only [List.mem_cons, List.not_mem_nil, or_false] at hcycle
      rcases hcycle with rfl | rfl | rfl
      · cases hlocked.symm.trans hstate
      · cases hgenerating.symm.trans hstate
      · have hproduced := (hrevises hround).produced
        rw [hdocument] at hproduced
        exact .inr (List.mem_singleton.mpr (Option.some.inj hproduced))

end lineage

/-! ### Every run -/

def Call.candidate : Call → Option CandidateV1
  | .running _ candidate _ => some candidate
  | .returned _ => none
  | .raised _ => none

/-- The tables keep their chains, and the candidates that callers hold are in them. -/
structure Inv (w : World) : Prop where
  sound : Sound w.tables
  held : ∀ caller, ∀ candidate ∈ w.held caller, candidate ∈ w.tables.candidates
  running : ∀ i, ∀ call ∈ w.calls i, ∀ candidate ∈ call.candidate, candidate ∈ w.tables.candidates

section runs
variable {engine : Engine} {w w' : World}

theorem Initial.versions_length (h : Initial w) (candidateId : ℕ) :
    (w.tables.versions candidateId).length ≤ 1 := by
  have hids : (w.tables.versions candidateId).map (·.candidateId)
      = List.replicate (w.tables.versions candidateId).length candidateId :=
    List.map_eq_replicate_iff.mpr fun candidate hcandidate => (mem_versions.mp hcandidate).2
  have hnodup : ((w.tables.versions candidateId).map (·.candidateId)).Nodup :=
    h.once.sublist (List.filter_sublist.map _)
  rw [hids] at hnodup
  exact List.nodup_replicate.mp hnodup

theorem Initial.linear (h : Initial w) (candidateId : ℕ) : Linear w.tables candidateId := by
  have hfirst : ∀ candidate ∈ w.tables.versions candidateId, candidate.candidateVersion = 1 :=
    fun candidate hcandidate => h.first candidate (mem_versions.mp hcandidate).1
  have hlength := h.versions_length candidateId
  refine ⟨?_, by omega, fun base hbase next hmem hversion => ?_⟩
  · rw [List.map_eq_replicate_iff.mpr hfirst]
    rcases Nat.le_one_iff_eq_zero_or_eq_one.mp hlength with hzero | hone
    · rw [hzero]
      rfl
    · rw [hone]
      rfl
  · have hbaseFirst := hfirst base hbase
    have hnextFirst := hfirst next hmem
    omega

theorem Initial.inv (h : Initial w) : Inv w where
  sound := {
    keys := by
      refine List.Nodup.of_map Prod.fst ?_
      rw [List.map_map]
      exact h.once
    linear := h.linear
    documented := fun cycle hcycle => by
      rw [h.cycles] at hcycle
      cases hcycle }
  held caller candidate hheld := by
    rw [h.held] at hheld
    cases hheld
  running i call hcall := by
    rw [h.calls] at hcall
    cases hcall

theorem mem_update {α : Type} {f : ℕ → Option α} {i j : ℕ} {a b : α}
    (h : b ∈ Function.update f i (some a) j) : b = a ∨ b ∈ f j := by
  by_cases hj : j = i
  · rw [hj, Function.update_self] at h
    exact .inl (Option.some.inj h).symm
  · rw [Function.update_of_ne hj] at h
    exact .inr h

variable {i : ℕ}

theorem Inv.setCall (h : Inv w) {call : Call}
    (hcall : ∀ candidate ∈ call.candidate, candidate ∈ w.tables.candidates) : Inv (w.setCall i call) where
  sound := h.sound
  held := h.held
  running j other hother candidate hcandidate := by
    rcases mem_update hother with rfl | hother
    · exact hcall candidate hcandidate
    · exact h.running j other hother candidate hcandidate

theorem Inv.finish (h : Inv w) {arguments : Arguments} {candidate : CandidateV1}
    {snapshot : Tables} (hcandidate : candidate ∈ w.tables.candidates) (lockToken now : ℕ) :
    Inv (w.finish engine i arguments candidate snapshot lockToken now) := by
  unfold World.finish
  split
  next e _ => exact h.setCall fun _ hnone => nomatch hnone
  next tables outcome hrevise =>
    have hended : Inv (w.setCall i (.returned outcome)) := h.setCall fun _ hnone => nomatch hnone
    rcases revise_cases hrevise with rfl | ⟨revised, hnext, hbudget, hround, happended⟩
    · exact hended
    · have hkept : w.tables.candidates ⊆ tables.candidates := by
        rw [happended.candidates]
        exact List.subset_append_left _ _
      exact ⟨h.sound.append happended hround hcandidate hnext hbudget,
        fun caller c hheld => hkept (hended.held caller c hheld),
        fun j call hcall c hc => hkept (hended.running j call hcall c hc)⟩

variable {action : Action}

theorem step_cases (h : step engine w action = some w') :
    (∃ verificationId, action = .accept verificationId ∧ w' = { w with tables :=
      { w.tables with verifications := w.tables.verifications ++ [verificationId] } }) ∨
    (∃ caller candidateId version candidate, action = .read caller candidateId version ∧
      w.tables.getCandidate candidateId version = some candidate ∧
      w' = { w with held := Function.update w.held caller (some candidate) }) ∨
    (∃ i caller arguments candidate, action = .start i caller arguments ∧ w.held caller = some candidate ∧
      w' = w.setCall i (.running arguments candidate w.tables)) ∨
    (∃ i lockToken now arguments candidate snapshot, action = .finish i lockToken now ∧
      w.calls i = some (.running arguments candidate snapshot) ∧
      w' = w.finish engine i arguments candidate snapshot lockToken now) ∨
    (∃ i error, action = .abort i error ∧ w' = w.setCall i (.raised error)) := by
  cases action with
  | accept verificationId => exact .inl ⟨verificationId, rfl, (Option.some.inj h).symm⟩
  | read caller candidateId version =>
    simp only [step] at h
    split at h
    · cases h
    next candidate hfound =>
      exact .inr (.inl ⟨caller, candidateId, version, candidate, rfl, hfound, (Option.some.inj h).symm⟩)
  | start i caller arguments =>
    simp only [step] at h
    split at h
    next candidate _ hheld =>
      exact .inr (.inr (.inl ⟨i, caller, arguments, candidate, rfl, hheld, (Option.some.inj h).symm⟩))
    · cases h
  | finish i lockToken now =>
    simp only [step] at h
    split at h
    next arguments candidate snapshot hcall =>
      exact .inr (.inr (.inr (.inl ⟨i, lockToken, now, arguments, candidate, snapshot, rfl, hcall,
        (Option.some.inj h).symm⟩)))
    · cases h
  | abort i error =>
    simp only [step] at h
    split at h
    · exact .inr (.inr (.inr (.inr ⟨i, error, rfl, (Option.some.inj h).symm⟩)))
    · cases h

theorem Inv.step (h : Inv w) (hstep : step engine w action = some w') : Inv w' := by
  obtain ⟨verificationId, -, rfl⟩ | ⟨caller, candidateId, version, candidate, -, hfound, rfl⟩ |
    ⟨i, caller, arguments, candidate, -, hheld, rfl⟩ |
    ⟨i, lockToken, now, arguments, candidate, snapshot, -, hcall, rfl⟩ | ⟨i, error, -, rfl⟩ :=
    step_cases hstep
  · obtain ⟨hkeys, hlinear, hdocumented⟩ := h.sound
    refine ⟨⟨hkeys, fun id => ?_, hdocumented⟩, h.held, h.running⟩
    exact ⟨(hlinear id).numbered, (hlinear id).bounded, (hlinear id).produced⟩
  · refine ⟨h.sound, fun other c hc => ?_, h.running⟩
    rcases mem_update hc with rfl | hc
    · exact List.mem_of_find?_eq_some hfound
    · exact h.held other c hc
  · refine h.setCall fun c hc => ?_
    rw [← Option.some.inj hc]
    exact h.held caller candidate hheld
  · exact h.finish (h.running i _ hcall candidate rfl) lockToken now
  · exact h.setCall fun _ hnone => nomatch hnone

theorem tables_of_not_returned (hstep : step engine w action = some w')
    (hcall : action.call = some i) (hraised : ∀ outcome, w'.calls i ≠ some (.returned outcome)) :
    w'.tables = w.tables := by
  obtain ⟨verificationId, rfl, -⟩ | ⟨caller, candidateId, version, candidate, rfl, -, -⟩ |
    ⟨j, caller, arguments, candidate, -, -, rfl⟩ |
    ⟨j, lockToken, now, arguments, candidate, snapshot, rfl, -, rfl⟩ | ⟨j, error, -, rfl⟩ :=
    step_cases hstep
  · cases hcall
  · cases hcall
  · rfl
  · cases hcall
    unfold World.finish at hraised ⊢
    split
    next => rfl
    next tables outcome hrevise =>
      rw [hrevise] at hraised
      exact absurd (Function.update_self _ _ _) (hraised outcome)
  · rfl

theorem candidates_subset (hstep : step engine w action = some w') :
    w.tables.candidates ⊆ w'.tables.candidates := by
  obtain ⟨verificationId, -, rfl⟩ | ⟨caller, candidateId, version, candidate, -, -, rfl⟩ |
    ⟨i, caller, arguments, candidate, -, -, rfl⟩ |
    ⟨i, lockToken, now, arguments, candidate, snapshot, -, -, rfl⟩ | ⟨i, error, -, rfl⟩ :=
    step_cases hstep
  · exact List.Subset.refl _
  · exact List.Subset.refl _
  · exact List.Subset.refl _
  · unfold World.finish
    split
    next => exact List.Subset.refl _
    next tables outcome hrevise =>
      rcases revise_cases hrevise with rfl | ⟨revised, -, -, -, happended⟩
      · exact List.Subset.refl _
      · show _ ⊆ tables.candidates
        rw [happended.candidates]
        exact List.subset_append_left _ _
  · exact List.Subset.refl _

/-- **Revision lineage.** In every run of overlapping calls from candidates in their first version, the
persisted versions of each candidate are numbered from one and are at most three, each version but the
first was produced by exactly one completed revision, whose base version, base digest and round are those
of the version before, and no step of a call that raises changes a table. -/
theorem linear_of_run (engine : Engine) {initial final : World} {actions : List Action}
    (hinitial : Initial initial) (hrun : run (step engine) initial actions = some final) :
    (∀ candidate ∈ initial.tables.candidates, Linear final.tables candidate.candidateId ∧
      1 ≤ (final.tables.versions candidate.candidateId).length) ∧
    ∀ w action w' i, step engine w action = some w' → action.call = some i →
      (∀ outcome, w'.calls i ≠ some (.returned outcome)) → w'.tables = w.tables := by
  have hinv : Inv final := run_invariant (fun _ _ _ hI hs => hI.step hs) hinitial.inv hrun
  refine ⟨fun candidate hcandidate => ⟨hinv.sound.linear _, ?_⟩,
    fun w action w' i hstep hcall hraised => tables_of_not_returned hstep hcall hraised⟩
  have hkept : candidate ∈ final.tables.candidates :=
    run_invariant (I := fun w => candidate ∈ w.tables.candidates)
      (fun _ _ _ hmem hs => candidates_subset hs hmem) hcandidate hrun
  exact List.length_pos_of_mem (mem_versions.mpr ⟨hkept, rfl⟩)

end runs

/-! ### Overlapping revisions of a lecture -/

def sampleEngine : Engine where
  lockTtl := 600000000
  cycleId := id
  planId := id
  childVerificationId verificationId version _ := 10 * verificationId + version
  contracts := sampleContracts
  readBlock := readLectureBlock
  verifyArtifact _ _ := .ok ()
  putResponse _ _ _ _ _ := .ok "response"
  recordIntegrityValid _ _ := true

/-- The second block of the first version of the lecture is replaced. -/
def firstRequest (requestId verificationId : ℕ) : RevisionRequest where
  revisionRequestId := requestId
  verificationId
  originalCandidateId := 1
  originalCandidateVersion := 1
  originalCandidateSha256 := "candidate"
  targetAgent := "Lecturer"
  revisionRound := 1
  deadlineAt := 10
  version_pos := firstRevision.version_pos
  round_bounds := firstRevision.round_bounds

/-- It is replaced again. -/
def secondRequest : RevisionRequest := { firstRequest 3 3 with
  originalCandidateVersion := 2
  revisionRound := 2
  version_pos := secondRevision.version_pos
  round_bounds := secondRevision.round_bounds }

def lectureArguments (request : RevisionRequest) : Arguments where
  tenantId := "tenant"
  request
  parentVerificationId := request.verificationId
  binding := lecturePatchRequest
  instructionsArtifact := "instructions"
  instructionsSha256 := "instructions"
  patches := [{ lecturePatch with
    revisionPlanId := request.revisionRequestId
    revisionPatchId := request.revisionRequestId }]
  lockOwner := "worker"
  promptBundleVersion := "v1"

def lectureWorld : World where
  tables := {
    verifications := [1, 2, 3]
    candidates := [orderedLecture]
    cycles := []
    plans := []
    patches := [] }
  held _ := none
  calls _ := none

/-- Two calls revise the first version; the later one is left with a stale candidate, and a third call
revises the second version. -/
def lectureActions : List Action :=
  [.read 0 1 1, .start 1 0 (lectureArguments (firstRequest 1 1)),
    .start 2 0 (lectureArguments (firstRequest 2 2)), .finish 1 1 1, .finish 2 2 2, .read 0 1 2,
    .start 3 0 (lectureArguments secondRequest), .finish 3 3 3]

theorem linear_of_run_lecture : ∃ final,
    run (step sampleEngine) lectureWorld lectureActions = some final ∧ Linear final.tables 1 ∧
      (final.tables.versions 1).length = 3 := by
  have hrun : (run (step sampleEngine) lectureWorld lectureActions).map
      (fun final => (final.tables.versions 1).length) = some 3 := by decide +kernel
  obtain ⟨final, hfinal, hlength⟩ := Option.map_eq_some_iff.mp hrun
  have hfirst : ∀ candidate ∈ lectureWorld.tables.candidates, candidate.candidateVersion = 1 := by
    simp [lectureWorld, orderedLecture, BlockRevision.lecture]
  obtain ⟨hlinear, -⟩ := linear_of_run sampleEngine
    ⟨by decide, hfirst, rfl, fun _ => rfl, fun _ => rfl⟩ hfinal
  exact ⟨final, hfinal, (hlinear orderedLecture (by simp [lectureWorld])).1, hlength⟩

end CyberControl.RevisionLineage
