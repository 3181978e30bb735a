import CyberControl.ReleaseConsistency

/-! # Verifications that wait for their release

From `RELEASE_PENDING` an authorization has to be derivable, and no review changes the decision of the
report and the aggregation, on which the derivation insists. -/

namespace CyberControl.Release

open Topic3 Transition Verification

/-! ### Moves of a verification -/

/-- What an operation makes of the state and the decisions of a verification; `approved` tells whether it
is a review that approves it. -/
inductive Moved (approved : Prop) (v v' : VerificationRecord) : Prop
  | executed (hstate : stateOf v' = stateOf v) (hfinalizations : v'.finalizations = v.finalizations)
  | advanced {source target : VerificationState} (hsource : stateOf v = some source)
      (htarget : stateOf v' = some target)
      (hsources : source ∈ [VerificationState.ACCEPTED, .REVERIFYING, .MODULE_DISPATCHING])
      (htargets : target ∈ [VerificationState.REVIEW_REQUIRED, .MODULE_DISPATCHING, .VERIFYING])
      (hfinalizations : v'.finalizations = v.finalizations)
  | finalized {f : Finalization} (hsource : stateOf v = some .VERIFYING)
      (htarget : stateOf v' = some (decisionTarget f.aggregation.decision))
      (hfinalizations : v'.finalizations = v.finalizations ++ [f])
  | reviewed {decision : ReviewDecision} (hsource : stateOf v = some .REVIEW_REQUIRED)
      (htarget : stateOf v' = some (reviewDecisionTarget decision))
      (happroved : decision.approves → approved) (hfinalizations : v'.finalizations = v.finalizations)

/-- The rows after an operation: a verification is accepted, or one is moved. -/
inductive Wrote (action : LifecycleAction) (rows : Rows) : Rows → Prop
  | accepted (request : VerificationRequest)
      (hnew : rows.verifications request.verificationId = none) :
      Wrote action rows (rows.put (accepted request))
  | moved {v v' : VerificationRecord} (hv : rows.verifications v.request.verificationId = some v)
      (hrequest : v'.request = v.request)
      (hmoved : Moved (action.approves = some v.request.verificationId) v v') :
      Wrote action rows (rows.put v')

section steps
variable {ids : ReleaseIds} {c1 : ControlPlane} {s after : System} {action : LifecycleAction} {rows : Rows}

theorem Wrote.of_moved {id : ℕ} {v v' : VerificationRecord}
    (hv : rows.verifications id = some v) (hrequest : v'.request = v.request)
    (hmoved : Moved (action.approves = some id) v v') : Wrote action rows (rows.put v') := by
  have hid := rows.verification_key id v hv
  subst hid
  exact .moved hv hrequest hmoved

variable {rows rows' : Rows}

theorem Wrote.candidates_eq (h : Wrote action rows rows') :
    rows'.candidates = rows.candidates := by
  cases h with
  | accepted request hnew => rfl
  | moved hv hrequest hmoved => rfl

variable {id expected now : ℕ}

theorem wrote_prepare
    (h : prepareControlPlane c1 s.rows id expected now = .ok rows) : Wrote action s.rows rows := by
  obtain ⟨v, current, _, claims, risks, plan, changes, critical, hv, hcurrent, hstate, -, -, -, hchanges, rfl⟩ :=
    prepareControlPlane_ok h
  have hstates := (stateSequence_ok hchanges).1
  have hsource : current.currentState ∈
      [VerificationState.ACCEPTED, .REVERIFYING, .MODULE_DISPATCHING] := by
    rcases hstate with hstate | hstate
    · simp [hstate]
    · simp [hstate]
  cases critical with
  | false =>
    exact .of_moved hv rfl (.advanced (stateOf_eq hcurrent)
      (stateOf_append [.SNAPSHOT_VALIDATING, .CLAIM_EXTRACTING, .CLAIMS_READY] rfl hstates)
      hsource (by decide) rfl)
  | true =>
    exact .of_moved hv rfl (.advanced (stateOf_eq hcurrent)
      (stateOf_append [.SNAPSHOT_VALIDATING, .CLAIM_EXTRACTING, .CLAIMS_READY] rfl hstates)
      hsource (by decide) rfl)

theorem wrote_startModules {reasonCode : String}
    (h : transitionState s.rows id expected .VERIFYING reasonCode now = .ok rows) :
    Wrote action s.rows rows := by
  obtain ⟨v, current, changes, hv, hcurrent, hchanges, rfl⟩ := transitionState_ok h
  have hstate := Revision.eq_moduleDispatching (stateSequence_allowed hchanges)
  refine .of_moved hv rfl (.advanced (stateOf_eq hcurrent)
    (stateOf_append [] rfl (stateSequence_ok hchanges).1) ?_ (by simp) rfl)
  simp [hstate]

theorem wrote_finalize {report : Except Exn Unit}
    (h : finalizeControlPlane c1 s.rows id expected now report = .ok rows) :
    Wrote action s.rows rows := by
  obtain ⟨v, current, verdicts, aggregation, changes, hv, hcurrent, hstate, -, hchanges, rfl⟩ :=
    finalizeControlPlane_ok h
  refine .of_moved hv rfl (.finalized (f := ⟨current.revisionRound, verdicts, aggregation⟩) ?_
    (stateOf_append [.AGGREGATING] rfl (stateSequence_ok hchanges).1) rfl)
  rw [stateOf_eq hcurrent, hstate]

/-- **One operation.** -/
theorem lifecycle_wrote (hstep : stepLifecycle ids c1 s action = some after) :
    Wrote action s.rows after.rows ∧ after.authorizations = s.authorizations ∧
      after.consumptions = s.consumptions ∧ after.batches = s.batches ∧ after.outbox = s.outbox ∧
      after.events = s.events ∧ s.reports ⊆ after.reports := by
  have hok := eq_ok_of_toOption hstep
  cases action with
  | accept request now =>
    obtain ⟨rows, hrows, hafter⟩ := bind_eq_ok.mp hok
    cases hafter
    obtain ⟨hnew, -, rfl⟩ := acceptVerification_ok hrows
    exact ⟨.accepted request hnew, rfl, rfl, rfl, rfl, rfl, List.Subset.refl _⟩
  | prepare id expected now reviewTaskId =>
    obtain ⟨rows, hrows, hok⟩ := bind_eq_ok.mp hok
    obtain ⟨_, _, hafter⟩ := bind_eq_ok.mp hok
    cases hafter
    exact ⟨wrote_prepare hrows, rfl, rfl, rfl, rfl, rfl, List.Subset.refl _⟩
  | startModules id expected now =>
    obtain ⟨rows, hrows, hafter⟩ := bind_eq_ok.mp hok
    cases hafter
    exact ⟨wrote_startModules hrows, rfl, rfl, rfl, rfl, rfl, List.Subset.refl _⟩
  | executeModules id expected handlers =>
    obtain ⟨rows, hrows, hafter⟩ := bind_eq_ok.mp hok
    cases hafter
    obtain ⟨v, runs, results, hv, rfl⟩ := executeModules_ok hrows
    exact ⟨.of_moved hv rfl (.executed rfl rfl), rfl, rfl, rfl, rfl, rfl, List.Subset.refl _⟩
  | finalize id expected now reviewTaskId report =>
    obtain ⟨rows, hrows, hok⟩ := bind_eq_ok.mp hok
    obtain ⟨_, _, hok⟩ := bind_eq_ok.mp hok
    obtain ⟨_, _, hok⟩ := bind_eq_ok.mp hok
    obtain ⟨_, _, hafter⟩ := bind_eq_ok.mp hok
    cases hafter
    exact ⟨wrote_finalize hrows, rfl, rfl, rfl, rfl, rfl, List.subset_append_left _ _⟩
  | review context decision expectedTask expectedState now =>
    obtain ⟨⟨rows, reviewTasks⟩, hrows, hafter⟩ := bind_eq_ok.mp hok
    cases hafter
    obtain ⟨v, current, changes, hv, hcurrent, hstate, hchanges, rfl⟩ := submitHumanReview_ok hrows
    refine ⟨.of_moved hv rfl (.reviewed ?_ (stateOf_append [] rfl hchanges) ?_ rfl), rfl, rfl, rfl, rfl, rfl,
      List.Subset.refl _⟩
    · rw [stateOf_eq hcurrent, hstate]
    · intro happroves
      exact if_pos happroves

theorem Wrote.at (h : Wrote action rows rows') {id : ℕ} {v' : VerificationRecord}
    (hv' : rows'.verifications id = some v') :
    rows.verifications id = some v' ∨ (∃ request, v' = Verification.accepted request) ∨
      ∃ v, rows.verifications id = some v ∧ Moved (action.approves = some id) v v' := by
  cases h with
  | accepted request hnew =>
    by_cases hid : id = (Verification.accepted request).request.verificationId
    · rw [hid, Rows.put_self] at hv'
      exact .inr (.inl ⟨request, (Option.some.inj hv').symm⟩)
    · rw [Rows.put_of_ne rows hid] at hv'
      exact .inl hv'
  | @moved v w hv hrequest hmoved =>
    by_cases hid : id = w.request.verificationId
    · rw [hid, Rows.put_self] at hv'
      rw [← Option.some.inj hv', hid, hrequest]
      exact .inr (.inr ⟨v, hv, hmoved⟩)
    · rw [Rows.put_of_ne rows hid] at hv'
      exact .inl hv'

theorem Wrote.kept (h : Wrote action rows rows') {id : ℕ} {v : VerificationRecord}
    (hv : rows.verifications id = some v) :
    ∃ v', rows'.verifications id = some v' ∧ v'.request = v.request ∧
      (v' = v ∨ Moved (action.approves = some id) v v') := by
  cases h with
  | accepted request hnew =>
    have hid : id ≠ (Verification.accepted request).request.verificationId := by
      intro hid
      rw [hid] at hv
      exact absurd (hnew.symm.trans hv) (by simp)
    rw [Rows.put_of_ne rows hid]
    exact ⟨v, hv, rfl, .inl rfl⟩
  | @moved w w' hw hrequest hmoved =>
    by_cases hid : id = w'.request.verificationId
    · rw [hid, hrequest, hw] at hv
      cases hv
      rw [hid, Rows.put_self, hrequest]
      exact ⟨w', rfl, hrequest, .inr hmoved⟩
    · rw [Rows.put_of_ne rows hid]
      exact ⟨v, hv, rfl, .inl rfl⟩

end steps

/-! ### Decisions that release -/

/-- Some decision on the verification releases its candidate. -/
def ReleaseDecided (v : VerificationRecord) : Prop :=
  ∃ f ∈ v.finalizations, decisionTarget f.aggregation.decision = .RELEASE_PENDING

/-- The verification waits for its release, by such a decision. -/
def DecidedPending (s : System) (id : ℕ) : Prop :=
  ∀ v, s.rows.verifications id = some v → stateOf v = some .RELEASE_PENDING → ReleaseDecided v

/-- The verification waits for its release without such a decision. -/
def ReviewedPending (s : System) (id : ℕ) : Prop :=
  ∃ v, s.rows.verifications id = some v ∧ stateOf v = some .RELEASE_PENDING ∧ ¬ ReleaseDecided v

section decisions
variable {ids : ReleaseIds} {c1 : ControlPlane} {s after : System} {action : LifecycleAction} {id : ℕ}

theorem DecidedPending.step (h : DecidedPending s id) (hunreviewed : action.approves ≠ some id)
    (hstep : stepLifecycle ids c1 s action = some after) : DecidedPending after id := by
  intro v' hv' hpending
  rcases (lifecycle_wrote hstep).1.at hv' with hold | ⟨request, rfl⟩ | ⟨v, hv, hmoved⟩
  · exact h v' hold hpending
  · cases hpending
  · cases hmoved with
    | executed hstate hfinalizations =>
      obtain ⟨f, hf, hdecision⟩ := h v hv (hstate ▸ hpending)
      exact ⟨f, hfinalizations ▸ hf, hdecision⟩
    | advanced _ htarget _ htargets _ =>
      rw [htarget] at hpending
      rw [Option.some.inj hpending] at htargets
      exact absurd htargets (by decide)
    | @finalized f _ htarget hfinalizations =>
      refine ⟨f, ?_, Option.some.inj (htarget.symm.trans hpending)⟩
      rw [hfinalizations]
      exact List.mem_append_right _ (List.mem_singleton_self f)
    | reviewed _ htarget happroved _ =>
      rw [htarget] at hpending
      exact absurd (happroved (reviewDecisionTarget_eq_releasePending.mp (Option.some.inj hpending)))
        hunreviewed

theorem ReviewedPending.step (h : ReviewedPending s id)
    (hstep : stepLifecycle ids c1 s action = some after) : ReviewedPending after id := by
  obtain ⟨v, hv, hpending, hundecided⟩ := h
  obtain ⟨v', hv', -, hsame | hmoved⟩ := (lifecycle_wrote hstep).1.kept hv
  · subst hsame
    exact ⟨v', hv', hpending, hundecided⟩
  · refine ⟨v', hv', ?_⟩
    cases hmoved with
    | executed hstate hfinalizations =>
      refine ⟨hstate.trans hpending, ?_⟩
      rintro ⟨f, hf, hdecision⟩
      exact hundecided ⟨f, hfinalizations ▸ hf, hdecision⟩
    | advanced hsource _ hsources _ _ =>
      rw [Option.some.inj (hsource.symm.trans hpending)] at hsources
      exact absurd hsources (by decide)
    | finalized hsource _ _ => exact absurd (hsource.symm.trans hpending) (by decide)
    | reviewed hsource _ _ _ => exact absurd (hsource.symm.trans hpending) (by decide)

/-- A review that approves a verification puts it there: what was to be reviewed is not released. -/
theorem reviewedPending_of_approves (hconsistent : AllConsistent ids s)
    (happroves : action.approves = some id) (hstep : stepLifecycle ids c1 s action = some after) :
    ReviewedPending after id := by
  have hok := eq_ok_of_toOption hstep
  cases action with
  | review context decision expectedTask expectedState now =>
    obtain ⟨⟨rows, reviewTasks⟩, hrows, hafter⟩ := bind_eq_ok.mp hok
    cases hafter
    obtain ⟨v, current, changes, hv, hcurrent, hstate, hchanges, rfl⟩ := submitHumanReview_ok hrows
    obtain ⟨hdecision, hid⟩ := Option.ite_none_right_eq_some.mp happroves
    cases hid
    have htarget : stateOf { v with states := v.states ++ changes }
        = some (reviewDecisionTarget decision.decision) := stateOf_append [] rfl hchanges
    have hself := Rows.put_self s.rows { v with states := v.states ++ changes }
    rw [s.rows.verification_key _ v hv] at hself
    refine ⟨_, hself, ?_, ?_⟩
    · rw [htarget, reviewDecisionTarget_eq_releasePending.mpr hdecision]
    · rintro ⟨f, hf, hreleased⟩
      have hreviewed := (hconsistent.consistent _ v hv).reviewed
        ((stateOf_eq hcurrent).trans (congrArg some hstate)) f hf
      rw [hreviewed] at hreleased
      cases hreleased
  | accept request now => cases happroves
  | prepare target expected now reviewTaskId => cases happroves
  | startModules target expected now => cases happroves
  | executeModules target expected handlers => cases happroves
  | finalize target expected now reviewTaskId report => cases happroves

end decisions

/-! ### Derivation -/

/-- A call of `derive_release_authorization` for all blocks of the candidate of the verification, in a
context with a subject, whose policy check comes before the authorization expires. -/
structure DerivationCall (ids : ReleaseIds) (catalogue : Catalogue) (s : System) (id : ℕ)
    (mode : ReleaseMode) where
  context : TenantContext
  command : ReleaseDerivationCommand
  idempotencyKey : String
  now : ℕ
  checkedAt : ℕ
  verificationId_eq : command.verificationId = id
  mode_eq : command.requestedReleaseMode = mode
  all_blocks : command.requestedBlockIds = [] ∨ ∀ v ∈ s.rows.verifications id,
    ∀ candidate ∈ s.rows.candidates (v.request.candidateId, v.request.candidateVersion),
      ∀ blockId, blockId ∈ command.requestedBlockIds ↔ blockId ∈ catalogue.blockIds candidate
  command_valid : validateCommand ids context command idempotencyKey = .ok ()
  subject : context.subjectRef ≠ ""
  unexpired : checkedAt < now + command.ttl

/-- The requests that publish an authorization of what is persisted: that of version one and the commits. -/
def PublishesWith (ids : ReleaseIds) (context : TenantContext) (authorization : Authorization)
    (authority : ReleaseAuthority) (request : PublicationRequest) : Prop :=
  request = publicationRequest ids context authorization authority.report authority.candidate ∨
    ∃ command, request = commitRequest ids context command authorization authority.report authority.candidate

/-- The derived authorization can be published: every request of it before it expires passes the policy. -/
def Publishable (ids : ReleaseIds) (catalogue : Catalogue) (s : System) (authorization : Authorization) :
    Prop :=
  ∃ authority, releaseAuthority s authorization.verificationId = .ok authority ∧
    ∀ (context : TenantContext) (request : PublicationRequest) (now : ℕ),
      context.tenantId = authorization.tenantId → context.subjectRef ≠ "" →
      now < authorization.expiresAt → PublishesWith ids context authorization authority request →
      validateRequest catalogue ids.canonicalSha256 request context now = .ok ()

/-- For at least one mode every derivation succeeds, with an authorization that can be published. -/
def Releasable (ids : ReleaseIds) (catalogue : Catalogue) (s : System) (id : ℕ) : Prop :=
  ∃ mode, ∀ call : DerivationCall ids catalogue s id mode, ∃ issued authorization,
    deriveReleaseAuthorization ids catalogue s call.context call.command call.idempotencyKey call.now
      call.checkedAt = .ok (issued, authorization) ∧ Publishable ids catalogue issued authorization

section derivation
variable {ids : ReleaseIds} {catalogue : Catalogue} {s : System} {id : ℕ} {v : VerificationRecord}

theorem exists_authority (h : Consistent ids s v) (hv : s.rows.verifications id = some v)
    {f : Finalization} (hf : f ∈ v.finalizations) {current : StateChange}
    (hcurrent : v.states.getLast? = some current) :
    ∃ authority, releaseAuthority s id = .ok authority ∧ authority.state = current ∧
      authority.aggregation = f.aggregation ∧
      s.rows.candidates (v.request.candidateId, v.request.candidateVersion) = some authority.candidate ∧
      authority.candidate.candidateSha256 = v.request.candidateSha256 ∧
      authority.report ∈ s.reports ∧ Reported ids v.request f authority.report := by
  have hid := s.rows.verification_key id v hv
  obtain ⟨hsingle, report, hreports, hreported⟩ := h.decided f hf
  obtain ⟨candidate, hcandidate, hsha⟩ := h.candidate
  obtain ⟨claim, reportSha256, hclaim, heq⟩ := hreported.eq_verificationReport
  rw [hid] at hreports
  have hmem : report ∈ s.reportsOf id := by
    rw [hreports]
    exact List.mem_singleton_self report
  refine ⟨⟨report, candidate, f.aggregation, current⟩, ?_, rfl, rfl, hcandidate, hsha,
    (List.mem_filter.mp hmem).1, hreported⟩
  have hlatest : s.latestReport id = some report := by
    unfold System.latestReport
    rw [hreports, List.argmax_singleton]
  have haggregation : latestAggregation v = some f.aggregation := by
    unfold latestAggregation
    rw [hsingle, List.map_singleton, List.argmax_singleton]
  have hkey : s.rows.candidates (report.candidateId, report.candidateVersion) = some candidate := by
    rw [heq]
    show s.rows.candidates (claim.candidateId, claim.candidateVersion) = some candidate
    rw [hclaim.candidateId_eq, hclaim.candidateVersion_eq]
    exact hcandidate
  unfold releaseAuthority
  simp only [hlatest, hv, haggregation, hcurrent, hkey]

theorem requestedReleaseBlocks_all {candidate : Candidate} {requested : List String}
    (h : requested = [] ∨ ∀ blockId, blockId ∈ requested ↔ blockId ∈ catalogue.blockIds candidate) :
    requestedReleaseBlocks catalogue candidate requested = .ok (catalogue.blockIds candidate) := by
  unfold requestedReleaseBlocks
  split_ifs with hnil
  · rfl
  · have hall := h.resolve_left hnil
    rw [unit_bind_eq_ok, require_eq_ok]
    refine ⟨fun blockId hblock => (hall blockId).mp hblock, congrArg Except.ok ?_⟩
    rw [List.filter_eq_self]
    intro blockId hblock
    exact decide_eq_true ((hall blockId).mpr hblock)

theorem exists_mode {decision : AggregateDecision} (h : decisionTarget decision = .RELEASE_PENDING) :
    ∃ mode : ReleaseMode, decision = mode.expectedDecision := by
  cases decision with
  | RELEASE => exact ⟨.FULL, rfl⟩
  | RELEASE_WITH_DISCLOSURE => exact ⟨.FULL_WITH_DISCLOSURE, rfl⟩
  | REVISE => cases h
  | REVIEW_REQUIRED => cases h
  | BLOCK => cases h

theorem expectedDisclosures_length {mode : ReleaseMode} {aggregation : AggregationResult}
    (h : aggregation.disclosureCodes.length ≤ 32) : (expectedDisclosures mode aggregation).length ≤ 32 := by
  unfold expectedDisclosures
  split_ifs
  · exact h
  · exact Nat.zero_le 32

theorem Authorization.build_ok {a : Authorization} (hversion : 1 ≤ a.candidateVersion)
    (hblocks : a.allowedBlockIds ≠ []) (hlength : a.allowedBlockIds.length ≤ 2048)
    (hcodes : a.disclosureCodes.length ≤ 32) (hexpiry : a.issuedAt < a.expiresAt) :
    a.build = .ok a := by
  have hpos : 1 ≤ a.allowedBlockIds.length := List.length_pos_of_ne_nil hblocks
  have herrors : a.fieldErrors = [] := by
    unfold Authorization.fieldErrors
    rw [if_pos hversion, if_pos ⟨hpos, hlength⟩, if_pos hcodes, if_neg (Nat.not_le_of_lt hexpiry)]
    rfl
  exact if_pos herrors

theorem ReleaseDerivationCommand.ttl_bounds (command : ReleaseDerivationCommand) :
    0 < command.ttl ∧ command.ttl ≤ maxAuthorizationTtl := by
  obtain ⟨hpos, hle⟩ := command.ttlSeconds_bounds
  unfold ReleaseDerivationCommand.ttl maxAuthorizationTtl oneSecond
  omega

/-- The authorization that a call derives from a release decision. -/
def DerivationCall.authorization {mode : ReleaseMode} (call : DerivationCall ids catalogue s id mode)
    (authority : ReleaseAuthority) : Authorization :=
  derivedAuthorization ids authority call.context call.command call.idempotencyKey call.now
    (catalogue.blockIds authority.candidate)

/-- What the steps of a derivation rely on: the authority of a verification whose decision the mode of the
call expects. -/
structure Derivable (ids : ReleaseIds) (s : System) (id : ℕ) (mode : ReleaseMode)
    (authority : ReleaseAuthority) : Prop where
  authority_eq : releaseAuthority s id = .ok authority
  pending : authority.state.currentState = .RELEASE_PENDING
  report_decision : authority.report.decision = mode.expectedDecision
  aggregation_decision : authority.aggregation.decision = mode.expectedDecision
  report_verification : authority.report.verificationId = id
  report_intact : authority.report.recordIntegrityValid = true
  report_bound : authority.report.BoundTo authority.candidate
  report_artifact : authority.report.artifactSha256 = authority.report.reportSha256
  report_aggregation :
    authority.report.aggregationResultId = ids.aggregationResultId authority.aggregation
  aggregation_verification : authority.aggregation.verificationId = id
  aggregation_candidateId : authority.aggregation.candidateId = authority.candidate.candidateId
  aggregation_version : authority.aggregation.candidateVersion = authority.candidate.candidateVersion
  aggregation_sha256 : authority.aggregation.candidateSha256 = authority.candidate.candidateSha256
  disclosureCodes_length : authority.aggregation.disclosureCodes.length ≤ 32
  disclosureCodes_ne_nil : mode = .FULL_WITH_DISCLOSURE → authority.aggregation.disclosureCodes ≠ []
  version_pos : 1 ≤ authority.candidate.candidateVersion
  report_mem : authority.report ∈ s.reports
  verification : ∃ v, s.rows.verifications id = some v ∧
    s.rows.candidates (v.request.candidateId, v.request.candidateVersion) = some authority.candidate

/-- A tenant whose candidates meet their contract. -/
def CandidatesValid (s : System) : Prop :=
  ∀ key candidate, s.rows.candidates key = some candidate → 1 ≤ candidate.candidateVersion

theorem exists_derivable (h : Consistent ids s v) (hversions : CandidatesValid s)
    (hv : s.rows.verifications id = some v) (hpending : stateOf v = some .RELEASE_PENDING)
    (hdecided : ReleaseDecided v) : ∃ mode authority, Derivable ids s id mode authority := by
  obtain ⟨f, hf, hdecision⟩ := hdecided
  obtain ⟨current, hcurrent, hstate⟩ := exists_stateOf hpending
  obtain ⟨mode, hmode⟩ := exists_mode hdecision
  obtain ⟨authority, hauthority, hstateEq, haggregation, hcandidate, hsha, hmem, hreported⟩ :=
    exists_authority h hv hf hcurrent
  obtain ⟨claim, reportSha256, hclaim, hreport⟩ := hreported.eq_verificationReport
  have hbound := hreported.aggregation_bound
  have hid := s.rows.verification_key id v hv
  obtain ⟨hkeyId, hkeyVersion⟩ := Prod.mk.inj (s.rows.candidate_key _ _ hcandidate)
  refine ⟨mode, authority, hauthority, ?_, ?_, ?_, ?_, ?_, ⟨?_, ?_, ?_⟩, ?_, ?_, ?_, ?_, ?_, ?_, ?_, ?_,
    hversions _ _ hcandidate, hmem, v, hv, hcandidate⟩
  · rw [hstateEq, hstate]
  · rw [hreport]
    exact hmode
  · rw [haggregation, hmode]
  · rw [hreport]
    exact hbound.verificationId_eq.trans hid
  · rw [hreport]
    rfl
  · rw [hreport]
    exact hclaim.candidateId_eq.trans hkeyId.symm
  · rw [hreport]
    exact hclaim.candidateVersion_eq.trans hkeyVersion.symm
  · rw [hreport]
    exact hclaim.candidateSha256_eq.trans hsha.symm
  · rw [hreport]
    rfl
  · rw [hreport, haggregation]
    rfl
  · rw [haggregation, hbound.verificationId_eq, hid]
  · rw [haggregation, hbound.candidateId_eq, hkeyId]
  · rw [haggregation, hbound.candidateVersion_eq, hkeyVersion]
  · rw [haggregation, hbound.candidateSha256_eq, hsha]
  · rw [haggregation]
    exact hbound.disclosureCodes_length
  · rintro rfl
    rw [haggregation]
    exact hbound.disclosureCodes_ne_nil hmode

section call
variable {mode : ReleaseMode} {authority : ReleaseAuthority}

theorem DerivationCall.disclosureCodes_eq (call : DerivationCall ids catalogue s id mode) :
    (call.authorization authority).disclosureCodes = expectedDisclosures mode authority.aggregation :=
  congrArg (expectedDisclosures · authority.aggregation) call.mode_eq

variable (h : Derivable ids s id mode authority) (call : DerivationCall ids catalogue s id mode)
include h

theorem Derivable.derive :
    deriveAuthorization ids catalogue authority call.context call.command call.idempotencyKey call.now
      = .ok (call.authorization authority) := by
  have hblocks : requestedReleaseBlocks catalogue authority.candidate call.command.requestedBlockIds
      = .ok (catalogue.blockIds authority.candidate) := by
    obtain ⟨v, hv, hcandidate⟩ := h.verification
    refine requestedReleaseBlocks_all ?_
    rcases call.all_blocks with hnil | hall
    · exact .inl hnil
    · exact .inr (hall v hv authority.candidate hcandidate)
  have hbuild : (call.authorization authority).build = .ok (call.authorization authority) := by
    refine Authorization.build_ok h.version_pos (catalogue.blockIds_ne_nil _) (catalogue.blockIds_length _)
      (expectedDisclosures_length h.disclosureCodes_length) ?_
    exact Nat.lt_add_of_pos_right call.command.ttl_bounds.1
  unfold deriveAuthorization
  rw [unit_bind_eq_ok, require_eq_ok, unit_bind_eq_ok, require_eq_ok, hblocks, call.mode_eq]
  exact ⟨h.pending, ⟨h.report_decision, h.aggregation_decision⟩, hbuild⟩

theorem Derivable.boundTo :
    (call.authorization authority).BoundTo authority.report authority.candidate :=
  ⟨call.verificationId_eq.trans h.report_verification.symm, rfl, rfl, rfl, rfl, rfl⟩

theorem Derivable.validate :
    validatePersistedReleaseAuthority ids catalogue s call.context (call.authorization authority)
      (some authority.report) (some authority.candidate) (some authority.state) false = .ok () := by
  have hauthority : releaseAuthority s (call.authorization authority).verificationId = .ok authority := by
    rw [← h.authority_eq]
    exact congrArg (releaseAuthority s) call.verificationId_eq
  have hmode : (call.authorization authority).releaseMode = mode := call.mode_eq
  unfold validatePersistedReleaseAuthority
  rw [bind_eq_ok]
  refine ⟨authority, hauthority, ?_⟩
  simp only [unit_bind_eq_ok, require_eq_ok, hmode]
  refine ⟨⟨rfl, rfl, h.report_intact, rfl, rfl, fun hfalse => absurd hfalse Bool.false_ne_true, ?_⟩,
    ⟨h.report_decision, h.aggregation_decision⟩,
    ⟨catalogue.blockIds_ne_nil _, List.Subset.refl _⟩, fun _ => List.Subset.refl _, ?_⟩
  · exact ⟨h.boundTo call, h.report_artifact, h.report_aggregation,
      h.aggregation_verification.trans h.report_verification.symm, h.aggregation_candidateId,
      h.aggregation_version, h.aggregation_sha256⟩
  · exact call.disclosureCodes_eq

theorem Derivable.policy {context : TenantContext} {now : ℕ}
    (htenant : context.tenantId = call.context.tenantId) (hsubject : context.subjectRef ≠ "")
    (hnow : now < call.now + call.command.ttl) :
    validateAuthorization (call.authorization authority) context now = .ok () := by
  obtain ⟨httl, hmax⟩ := call.command.ttl_bounds
  have hmode : (call.authorization authority).releaseMode = mode := call.mode_eq
  rw [validateAuthorization_ok, hmode, call.disclosureCodes_eq]
  refine ⟨htenant, rfl, Nat.lt_add_of_pos_right httl, ?_, hnow, catalogue.blockIds_ne_nil _, ?_, ?_, hsubject⟩
  · show call.now + call.command.ttl - call.now ≤ maxAuthorizationTtl
    omega
  · rintro rfl
    exact h.disclosureCodes_ne_nil rfl
  · rintro rfl
    rfl

theorem Derivable.issue (hunissued : s.authorizations = []) :
    issueAuthorization s call.context (call.authorization authority) call.checkedAt
      = .ok { s with authorizations := [call.authorization authority] } := by
  obtain ⟨v, hv, -⟩ := h.verification
  have hverification : s.rows.verifications (call.authorization authority).verificationId = some v := by
    rw [← hv]
    exact congrArg s.rows.verifications call.verificationId_eq
  have hreport : authority.report.reportId ∈ s.reports.map (·.reportId) :=
    List.mem_map_of_mem h.report_mem
  unfold issueAuthorization storeAuthorization assertTenant System.authorization
  simp only [unit_bind_eq_ok, require_eq_ok, hunissued, List.find?_nil]
  refine ⟨h.policy call rfl call.subject call.unexpired, rfl, rfl, ?_, ⟨?_, hreport⟩, rfl⟩
  · intro row hrow
    cases hrow
  · rw [hverification]
    rfl

theorem Derivable.publishable {issued : System} (hrows : issued.rows = s.rows)
    (hreports : issued.reports = s.reports) :
    Publishable ids catalogue issued (call.authorization authority) := by
  have hauthority : releaseAuthority issued (call.authorization authority).verificationId
      = .ok authority := by
    rw [← h.authority_eq, show (call.authorization authority).verificationId = id from call.verificationId_eq]
    unfold releaseAuthority System.latestReport System.reportsOf
    rw [hrows, hreports]
  refine ⟨authority, hauthority, fun context request now htenant hsubject hnow hrequest => ?_⟩
  have hmode : (call.authorization authority).releaseMode = mode := call.mode_eq
  have hdecision : authority.report.decision
      = (call.authorization authority).releaseMode.expectedDecision :=
    h.report_decision.trans (congrArg ReleaseMode.expectedDecision hmode).symm
  have hbound := h.boundTo call
  have hverification := h.report_verification.trans call.verificationId_eq.symm
  rw [validateRequest_ok]
  rcases hrequest with rfl | ⟨command, rfl⟩
  all_goals
    refine ⟨h.policy call htenant hsubject hnow, h.report_intact, rfl, rfl, h.report_artifact, hbound,
      ⟨hverification, h.report_bound⟩, ⟨catalogue.blockIds_nodup _, List.Subset.refl _⟩,
      fun _ => List.Subset.refl _, hdecision, ?_⟩
  · exact require_eq_ok.mpr rfl
  · unfold validateDocument commitRequest
    simp [unit_bind_eq_ok, require_eq_ok, extensionKeys, command.commitCommandId_ne,
      command.idempotencyKeySha256_ne]

/-- **A release decision can be released.** -/
theorem Derivable.releasable (hunissued : s.authorizations = []) :
    Releasable ids catalogue s id := by
  refine ⟨mode, fun call => ⟨{ s with authorizations := [call.authorization authority] },
    call.authorization authority, ?_, h.publishable call rfl rfl⟩⟩
  have hauthority : releaseAuthority s call.command.verificationId = .ok authority := by
    rw [call.verificationId_eq]
    exact h.authority_eq
  have hnone : s.authorization (ids.derivedAuthorizationId call.idempotencyKey) = none := by
    unfold System.authorization
    rw [hunissued]
    rfl
  unfold deriveReleaseAuthorization
  rw [unit_bind_eq_ok]
  refine ⟨call.command_valid, ?_⟩
  simp only [hnone]
  rw [bind_eq_ok]
  refine ⟨authority, hauthority, ?_⟩
  rw [bind_eq_ok]
  refine ⟨_, h.derive call, ?_⟩
  rw [unit_bind_eq_ok, bind_eq_ok]
  exact ⟨h.validate call, _, h.issue call hunissued, rfl⟩

end call

theorem exists_call (ids : ReleaseIds) (catalogue : Catalogue) (s : System) (id : ℕ) (mode : ReleaseMode) :
    Nonempty (DerivationCall ids catalogue s id mode) := by
  refine ⟨{
    context := ⟨"tenant", "subject", "trace"⟩
    command := {
      tenantId := "tenant"
      traceId := "trace"
      verificationId := id
      requestedReleaseMode := mode
      requestedBlockIds := []
      ttlSeconds := 1
      idempotencyKeySha256 := ids.keySha256 "key"
      recordIntegrityValid := true }
    idempotencyKey := "key"
    now := 0
    checkedAt := 0
    verificationId_eq := rfl
    mode_eq := rfl
    all_blocks := .inl rfl
    command_valid := ?_
    subject := by decide
    unexpired := ?_ }⟩
  · unfold validateCommand
    rw [require_eq_ok]
    exact ⟨rfl, rfl, rfl, rfl⟩
  · show 0 < 0 + 1 * oneSecond
    decide

/-- Without a release decision no call derives an authorization, whatever the mode. -/
theorem not_releasable_of_reviewed (h : Consistent ids s v) (hunissued : s.authorizations = [])
    (hv : s.rows.verifications id = some v) (hpending : stateOf v = some .RELEASE_PENDING)
    (hundecided : ¬ ReleaseDecided v) : ¬ Releasable ids catalogue s id := by
  rintro ⟨mode, hall⟩
  obtain ⟨call⟩ := exists_call ids catalogue s id mode
  obtain ⟨issued, authorization, hderive, -⟩ := hall call
  have hnone : s.authorization (ids.derivedAuthorizationId call.idempotencyKey) = none := by
    unfold System.authorization
    rw [hunissued]
    rfl
  unfold deriveReleaseAuthorization at hderive
  rw [unit_bind_eq_ok] at hderive
  simp only [hnone] at hderive
  obtain ⟨-, hderive⟩ := hderive
  obtain ⟨authority, hauthority, hderive⟩ := bind_eq_ok.mp hderive
  obtain ⟨_, hauthorization, -⟩ := bind_eq_ok.mp hderive
  unfold deriveAuthorization at hauthorization
  rw [unit_bind_eq_ok, unit_bind_eq_ok, require_eq_ok, require_eq_ok] at hauthorization
  obtain ⟨-, ⟨-, haggregation⟩, -⟩ := hauthorization
  rw [call.verificationId_eq] at hauthority
  obtain ⟨current, hcurrent, -⟩ := exists_stateOf hpending
  apply hundecided
  obtain ⟨f, hf⟩ : ∃ f, f ∈ v.finalizations := by
    refine List.exists_mem_of_ne_nil _ fun hnil => ?_
    have hreports := h.undecided hnil
    rw [s.rows.verification_key id v hv] at hreports
    have hlatest : s.latestReport id = none := by
      unfold System.latestReport
      rw [hreports]
      rfl
    unfold releaseAuthority at hauthority
    rw [hlatest] at hauthority
    cases hauthority
  obtain ⟨authority', hauthority', -, heq, -⟩ := exists_authority h hv hf hcurrent
  cases hauthority'.symm.trans hauthority
  refine ⟨f, hf, ?_⟩
  rw [← heq, haggregation]
  cases call.command.requestedReleaseMode <;> rfl

end derivation

/-! ### Runs -/

/-- A tenant before its first verification: candidates that meet their contract, and nothing else. -/
structure Fresh (s : System) : Prop where
  candidates : CandidatesValid s
  verifications : ∀ id, s.rows.verifications id = none
  reports : s.reports = []
  authorizations : s.authorizations = []

section runs
variable {ids : ReleaseIds} {c1 : BoundControlPlane} {initial final : System}
  {actions : List LifecycleAction} {id : ℕ}

/-- What every run of the control plane keeps. -/
structure Unissued (ids : ReleaseIds) (s : System) : Prop where
  consistent : AllConsistent ids s
  candidates : CandidatesValid s
  authorizations : s.authorizations = []

theorem Fresh.unissued {s : System} (h : Fresh s) : Unissued ids s where
  consistent := by
    refine ⟨fun id v hv => ?_, fun id _ => ?_⟩
    · rw [h.verifications] at hv
      cases hv
    · unfold System.reportsOf
      rw [h.reports]
      rfl
  candidates := h.candidates
  authorizations := h.authorizations

theorem Unissued.step {s after : System} {action : LifecycleAction} (h : Unissued ids s)
    (hstep : stepLifecycle ids c1.toControlPlane s action = some after) : Unissued ids after := by
  obtain ⟨hwrote, hauthorizations, -⟩ := lifecycle_wrote hstep
  have hcandidates := hwrote.candidates_eq
  refine ⟨consistent_lifecycle h.consistent hstep, ?_, hauthorizations.trans h.authorizations⟩
  unfold CandidatesValid
  rw [hcandidates]
  exact h.candidates

theorem Unissued.run (h : Unissued ids initial)
    (hrun : run (stepLifecycle ids c1.toControlPlane) initial actions = some final) : Unissued ids final :=
  run_invariant (fun _ _ _ hs hstep => Unissued.step hs hstep) h hrun

theorem decidedPending_run (h : DecidedPending initial id)
    (hunreviewed : ∀ action ∈ actions, action.approves ≠ some id)
    (hrun : run (stepLifecycle ids c1.toControlPlane) initial actions = some final) :
    DecidedPending final id := by
  induction actions generalizing initial with
  | nil =>
    cases hrun
    exact h
  | cons action rest ih =>
    obtain ⟨next, hnext, hrest⟩ := run_cons_eq_some.mp hrun
    refine ih (h.step (hunreviewed action List.mem_cons_self) hnext) ?_ hrest
    exact fun a ha => hunreviewed a (List.mem_cons_of_mem action ha)

theorem reviewedPending_run (h : Unissued ids initial)
    (hreviewed : ∃ action ∈ actions, action.approves = some id)
    (hrun : run (stepLifecycle ids c1.toControlPlane) initial actions = some final) :
    ReviewedPending final id := by
  induction actions generalizing initial with
  | nil =>
    obtain ⟨action, haction, -⟩ := hreviewed
    cases haction
  | cons action rest ih =>
    obtain ⟨next, hnext, hrest⟩ := run_cons_eq_some.mp hrun
    by_cases happroves : action.approves = some id
    · exact run_invariant (I := fun s => ReviewedPending s id) (fun _ _ _ hs hstep => hs.step hstep)
        (reviewedPending_of_approves h.consistent happroves hnext) hrest
    · obtain ⟨reviewer, hmem, hreviewer⟩ := hreviewed
      have hne : reviewer ≠ action := by
        rintro rfl
        exact happroves hreviewer
      exact ih (h.step hnext) ⟨reviewer, (List.mem_cons.mp hmem).resolve_left hne, hreviewer⟩ hrest

/-- **The way into release.** In every run of the control plane, a verification that waits for its release
can be released exactly when no human review approved it. -/
theorem releasable_iff_unreviewed (ids : ReleaseIds) (catalogue : Catalogue) (c1 : BoundControlPlane)
    {initial final : System} {actions : List LifecycleAction} (hinitial : Fresh initial)
    (hrun : run (stepLifecycle ids c1.toControlPlane) initial actions = some final) {id : ℕ}
    (hpending : final.currentState id = some .RELEASE_PENDING) :
    Releasable ids catalogue final id ↔ ∀ action ∈ actions, action.approves ≠ some id := by
  have hfinal : Unissued ids final := hinitial.unissued.run hrun
  constructor
  · intro hreleasable action haction happroves
    obtain ⟨v, hv, hstate, hundecided⟩ :=
      reviewedPending_run hinitial.unissued ⟨action, haction, happroves⟩ hrun
    exact not_releasable_of_reviewed (hfinal.consistent.consistent id v hv) hfinal.authorizations hv hstate
      hundecided hreleasable
  · intro hunreviewed
    have hdecided : DecidedPending final id := by
      refine decidedPending_run (fun v hv => ?_) hunreviewed hrun
      rw [hinitial.verifications] at hv
      cases hv
    cases hv : final.rows.verifications id with
    | none =>
      unfold System.currentState at hpending
      rw [hv] at hpending
      cases hpending
    | some v =>
      rw [currentState_eq hv] at hpending
      obtain ⟨mode, authority, hderivable⟩ := exists_derivable (hfinal.consistent.consistent id v hv)
        hfinal.candidates hv hpending (hdecided v hv hpending)
      exact hderivable.releasable hfinal.authorizations

end runs

/-! ### Two lectures -/

def sampleBlock : BlockV1 where
  blockId := "block"
  blockType := .MARKDOWN
  ordinal := 0
  title := none
  contentSchemaVersion := "topic3.lecturer-content.v1"
  content := .object [("text", .string "The closed loop is stable.")]
  contentSha256 := "content"
  dependencyBlockIds := []
  status := .COMPLETE
  createdAt := 0

/-- Every candidate has one block. -/
def sampleCatalogue : Catalogue where
  blocks _ := [sampleBlock]
  blocks_ne_nil _ := List.cons_ne_nil _ _
  blocks_length _ := by
    show 1 ≤ 2048
    decide
  blockIds_nodup _ := List.nodup_singleton _

def sampleIds : ReleaseIds where
  aggregationResultId aggregation := aggregation.verificationId
  reportId verificationId _ := verificationId
  derivedAuthorizationId key := key.length
  batchId authorizationId _ := authorizationId
  publicEventId batchId := batchId
  streamId batchId := batchId
  outboxId batchId := batchId
  keySha256 key := key
  canonicalSha256
    | .publication _ => "publication"
    | .extended _ _ => "extended"
    | .other text => text

/-- The control plane that takes one claim from each candidate, at a level of risk. -/
def claimAt (level : RiskLevel) : BoundControlPlane where
  toControlPlane := { Revision.sampleControlPlane with level := fun _ => level }
  extract_bound := by
    intro candidate verificationId claims h claim hclaim
    cases h
    rw [List.mem_singleton.mp hclaim]
    exact ⟨rfl, rfl, rfl, rfl⟩

/-- The tenant of `Revision.oneLecture`, with empty tables of the gate. -/
def oneLecture : System where
  toSystem := Revision.oneLecture
  reviewTasks := []
  reports := []
  authorizations := []
  consumptions := []
  batches := []
  outbox := []
  events := []

theorem fresh_oneLecture : Fresh oneLecture where
  candidates := by
    intro key candidate h
    obtain ⟨-, h⟩ := Option.ite_none_right_eq_some.mp h
    rw [← Option.some.inj h]
    exact Nat.le_refl 1
  verifications _ := rfl
  reports := rfl
  authorizations := rfl

def acceptLecture : LifecycleAction :=
  .accept
    { verificationId := 1
      candidateId := 1
      candidateVersion := 1
      candidateSha256 := "v1"
      resourceType := "LECTURE"
      deadlineAt := 1000 } 0

/-- A verification whose modules support the claim. -/
def verifyLecture : List LifecycleAction :=
  [acceptLecture, .prepare 1 1 0 5, .startModules 1 5 0,
    .executeModules 1 6 (sampleHandlers .C4_GRAPH fun _ => .SUPPORTED), .finalize 1 6 0 5 (.ok "report")]

def reviewer : TenantContext := ⟨"tenant", "reviewer", "trace"⟩

def approval : HumanReviewDecision where
  tenantId := "tenant"
  traceId := "trace"
  reviewTaskId := 5
  verificationId := 1
  decision := .APPROVE
  reviewerSubjectRef := "reviewer"
  rationaleArtifactSha256 := "rationale"
  rationaleSha256 := "rationale"
  disclosureCodes := []
  waivedFindingIds := []
  recordIntegrityValid := true

/-- A verification whose claim is critical, and a human review that approves it. -/
def approveLecture : List LifecycleAction :=
  [acceptLecture, .prepare 1 1 0 5, .review reviewer approval 1 5 0]

/-- The supported lecture can be released. -/
theorem releasable_iff_unreviewed_supported : ∃ final,
    run (stepLifecycle sampleIds (claimAt .HIGH).toControlPlane) oneLecture verifyLecture = some final ∧
      final.currentState 1 = some .RELEASE_PENDING ∧ Releasable sampleIds sampleCatalogue final 1 := by
  have hrun : (run (stepLifecycle sampleIds (claimAt .HIGH).toControlPlane) oneLecture verifyLecture).map
      (·.currentState 1) = some (some .RELEASE_PENDING) := by decide +kernel
  obtain ⟨final, hfinal, hpending⟩ := Option.map_eq_some_iff.mp hrun
  refine ⟨final, hfinal, hpending, ?_⟩
  rw [releasable_iff_unreviewed sampleIds sampleCatalogue (claimAt .HIGH) fresh_oneLecture hfinal hpending]
  decide

/-- **A dead end.** The approved lecture waits for its release, and cannot be released. -/
theorem approved_lecture_not_releasable : ∃ final,
    run (stepLifecycle sampleIds (claimAt .CRITICAL).toControlPlane) oneLecture approveLecture = some final ∧
      final.currentState 1 = some .RELEASE_PENDING ∧ ¬ Releasable sampleIds sampleCatalogue final 1 := by
  have hrun : (run (stepLifecycle sampleIds (claimAt .CRITICAL).toControlPlane) oneLecture
      approveLecture).map (·.currentState 1) = some (some .RELEASE_PENDING) := by decide +kernel
  obtain ⟨final, hfinal, hpending⟩ := Option.map_eq_some_iff.mp hrun
  have hinvariant : Unissued sampleIds final := fresh_oneLecture.unissued.run hfinal
  have hreviewed : ReviewedPending final 1 :=
    reviewedPending_run fresh_oneLecture.unissued ⟨_, List.mem_of_mem_getLast? rfl, rfl⟩ hfinal
  obtain ⟨v, hv, hstate, hundecided⟩ := hreviewed
  exact ⟨final, hfinal, hpending, not_releasable_of_reviewed (hinvariant.consistent.consistent 1 v hv)
    hinvariant.authorizations hv hstate hundecided⟩

end CyberControl.Release
