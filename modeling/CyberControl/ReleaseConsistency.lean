import CyberControl.ReleaseRuntime

/-! # What is persisted about a verification

The claims, the report and the aggregation of a verification speak of its candidate, it is decided at most
once, and from its decision on it stays in the states after one. -/

namespace CyberControl.Release

open Topic3 Verification

/-! ### Bindings -/

structure BoundClaim (request : VerificationRequest) (claim : Claim) : Prop where
  verificationId_eq : claim.verificationId = request.verificationId
  candidateId_eq : claim.candidateId = request.candidateId
  candidateVersion_eq : claim.candidateVersion = request.candidateVersion
  candidateSha256_eq : claim.candidateSha256 = request.candidateSha256

/-- A decision on the request. -/
structure BoundAggregation (request : VerificationRequest) (aggregation : AggregationResult) : Prop where
  verificationId_eq : aggregation.verificationId = request.verificationId
  candidateId_eq : aggregation.candidateId = request.candidateId
  candidateVersion_eq : aggregation.candidateVersion = request.candidateVersion
  candidateSha256_eq : aggregation.candidateSha256 = request.candidateSha256
  disclosureCodes_length : aggregation.disclosureCodes.length ≤ 32
  disclosureCodes_ne_nil : aggregation.decision = .RELEASE_WITH_DISCLOSURE →
    aggregation.disclosureCodes ≠ []

/-- The report of a decision on the request. -/
structure Reported (ids : ReleaseIds) (request : VerificationRequest) (f : Finalization)
    (report : VerificationReport) : Prop where
  eq_verificationReport : ∃ claim reportSha256, BoundClaim request claim ∧
    report = verificationReport ids f claim reportSha256
  aggregation_bound : BoundAggregation request f.aggregation

/-- The latest state of a verification. -/
def stateOf (v : VerificationRecord) : Option VerificationState := v.states.getLast?.map (·.currentState)

variable {v : VerificationRecord} {current : StateChange}

theorem stateOf_eq (h : v.states.getLast? = some current) : stateOf v = some current.currentState := by
  unfold stateOf
  rw [h]
  rfl

theorem exists_stateOf {state : VerificationState} (h : stateOf v = some state) :
    ∃ current, v.states.getLast? = some current ∧ current.currentState = state :=
  Option.map_eq_some_iff.mp h

theorem stateOf_append {v v' : VerificationRecord} {changes : List StateChange}
    (targets : List VerificationState) {target : VerificationState} (hstates : v'.states = v.states ++ changes)
    (h : changes.map (·.currentState) = targets ++ [target]) : stateOf v' = some target := by
  have hlast : changes.getLast?.map (·.currentState) = some target := by
    rw [← List.getLast?_map, h, List.getLast?_concat]
  obtain ⟨change, hchange, hstate⟩ := Option.map_eq_some_iff.mp hlast
  unfold stateOf
  rw [hstates, List.getLast?_append, hchange]
  exact congrArg some hstate

theorem currentState_eq {s : System} {id : ℕ}
    (h : s.rows.verifications id = some v) : s.currentState id = stateOf v := by
  unfold System.currentState
  rw [h]
  rfl

/-! ### Consistency -/

def settledStates : List VerificationState := .RELEASED :: Revision.decided

/-- What the tables hold about a verification. -/
structure Consistent (ids : ReleaseIds) (s : System) (v : VerificationRecord) : Prop where
  candidate : ∃ candidate,
    s.rows.candidates (v.request.candidateId, v.request.candidateVersion) = some candidate ∧
      candidate.candidateSha256 = v.request.candidateSha256
  claims : ∀ claim ∈ v.claims, BoundClaim v.request claim
  undecided : v.finalizations = [] → s.reportsOf v.request.verificationId = []
  decided : ∀ f ∈ v.finalizations, v.finalizations = [f] ∧
    ∃ report, s.reportsOf v.request.verificationId = [report] ∧ Reported ids v.request f report
  settled : v.finalizations ≠ [] → ∀ state ∈ stateOf v, state ∈ settledStates
  reviewed : stateOf v = some .REVIEW_REQUIRED →
    ∀ f ∈ v.finalizations, f.aggregation.decision = .REVIEW_REQUIRED

/-- Every verification is consistent, and there is no report without one. -/
structure AllConsistent (ids : ReleaseIds) (s : System) : Prop where
  consistent : ∀ id v, s.rows.verifications id = some v → Consistent ids s v
  unreported : ∀ id, s.rows.verifications id = none → s.reportsOf id = []

section consistency
variable {ids : ReleaseIds} {s s' : System} {v v' : VerificationRecord}

theorem Consistent.finalizations_eq_nil (h : Consistent ids s v)
    (hcurrent : v.states.getLast? = some current) (hstate : current.currentState ∉ settledStates) :
    v.finalizations = [] := by
  by_contra hdecided
  exact hstate (h.settled hdecided _ (stateOf_eq hcurrent))

/-- A change of the states and the results of a verification keeps it consistent. -/
theorem Consistent.restate (h : Consistent ids s v)
    (hcandidates : ∀ key candidate, s.rows.candidates key = some candidate →
      s'.rows.candidates key = some candidate)
    (hreports : s'.reportsOf v.request.verificationId = s.reportsOf v.request.verificationId)
    (hrequest : v'.request = v.request) (hclaims : v'.claims = v.claims)
    (hfinalizations : v'.finalizations = v.finalizations)
    (hsettled : v.finalizations ≠ [] → ∀ state ∈ stateOf v', state ∈ settledStates)
    (hreviewed : stateOf v' = some .REVIEW_REQUIRED →
      ∀ f ∈ v.finalizations, f.aggregation.decision = .REVIEW_REQUIRED) : Consistent ids s' v' := by
  obtain ⟨candidate, hcandidate, hsha⟩ := h.candidate
  refine ⟨?_, ?_, ?_, ?_, ?_, ?_⟩
  · rw [hrequest]
    exact ⟨candidate, hcandidates _ _ hcandidate, hsha⟩
  · rw [hrequest, hclaims]
    exact h.claims
  · rw [hrequest, hfinalizations, hreports]
    exact h.undecided
  · rw [hrequest, hfinalizations, hreports]
    exact h.decided
  · rw [hfinalizations]
    exact hsettled
  · rw [hfinalizations]
    exact hreviewed

theorem AllConsistent.put (h : AllConsistent ids s)
    (hcandidates : ∀ key candidate, s.rows.candidates key = some candidate →
      s'.rows.candidates key = some candidate)
    (hrows : s'.rows.verifications = (s.rows.put v').verifications)
    (hreports : ∀ id ≠ v'.request.verificationId, s'.reportsOf id = s.reportsOf id)
    (hv' : Consistent ids s' v') : AllConsistent ids s' := by
  refine ⟨fun id w hw => ?_, fun id hnone => ?_⟩
  · rw [hrows] at hw
    by_cases hid : id = v'.request.verificationId
    · subst hid
      rw [Rows.put_self] at hw
      rw [← Option.some.inj hw]
      exact hv'
    · rw [Rows.put_of_ne s.rows hid] at hw
      have hold := h.consistent id w hw
      have hkey := s.rows.verification_key id w hw
      refine hold.restate hcandidates ?_ rfl rfl rfl hold.settled hold.reviewed
      rw [hkey]
      exact hreports id hid
  · have hid : id ≠ v'.request.verificationId := by
      intro hid
      rw [hrows, hid, Rows.put_self] at hnone
      cases hnone
    rw [hrows, Rows.put_of_ne s.rows hid] at hnone
    rw [hreports id hid]
    exact h.unreported id hnone

theorem AllConsistent.frame (h : AllConsistent ids s)
    (hcandidates : ∀ key candidate, s.rows.candidates key = some candidate →
      s'.rows.candidates key = some candidate)
    (hrows : s'.rows.verifications = s.rows.verifications) (hreports : s'.reports = s.reports) :
    AllConsistent ids s' := by
  have hsame : ∀ id, s'.reportsOf id = s.reportsOf id := by
    intro id
    unfold System.reportsOf
    rw [hreports]
  refine ⟨fun id w hw => ?_, fun id hnone => ?_⟩
  · rw [hrows] at hw
    have hold := h.consistent id w hw
    exact hold.restate hcandidates (hsame _) rfl rfl rfl hold.settled hold.reviewed
  · rw [hrows] at hnone
    rw [hsame]
    exact h.unreported id hnone

end consistency

/-! ### The control plane -/

section lifecycle
variable {ids : ReleaseIds} {c1 : BoundControlPlane} {s after : System} {rows : Rows}

theorem consistent_accept (h : AllConsistent ids s) {request : VerificationRequest} {now : ℕ}
    (hrows : acceptVerification s.rows request now = .ok rows) :
    AllConsistent ids { s with rows } := by
  obtain ⟨hnew, hcandidate, rfl⟩ := acceptVerification_ok hrows
  refine h.put (fun _ _ hc => hc) (show _ = (s.rows.put (accepted request)).verifications from rfl)
    (fun _ _ => rfl) ?_
  refine ⟨hcandidate, by simp [accepted], fun _ => h.unreported _ hnew, by simp [accepted], ?_, ?_⟩
  · intro hdecided
    exact absurd rfl hdecided
  · intro hstate
    cases hstate

variable {id expected now : ℕ}

theorem consistent_prepare (h : AllConsistent ids s)
    {reviewTasks : List ReviewTask}
    (hrows : prepareControlPlane c1.toControlPlane s.rows id expected now = .ok rows) :
    AllConsistent ids { s with rows, reviewTasks } := by
  obtain ⟨v, current, candidate, claims, risks, plan, changes, critical, hv, hcurrent, hstate, hcandidate,
    hsha, hextract, hchanges, rfl⟩ := prepareControlPlane_ok hrows
  have hold := h.consistent id v hv
  have hnone : v.finalizations = [] := by
    refine hold.finalizations_eq_nil hcurrent ?_
    rcases hstate with hstate | hstate
    · rw [hstate]
      decide
    · rw [hstate]
      decide
  refine h.put (fun _ _ hc => hc) rfl (fun _ _ => rfl) ?_
  refine ⟨hold.candidate, ?_, hold.undecided, ?_, fun hdecided => absurd hnone hdecided, ?_⟩
  · intro claim hclaim
    obtain ⟨hid, hcandidateId, hversion, hclaimSha⟩ := c1.extract_bound _ _ _ hextract claim hclaim
    obtain ⟨hkeyId, hkeyVersion⟩ := Prod.mk.inj (s.rows.candidate_key _ candidate hcandidate)
    exact ⟨hid.trans (s.rows.verification_key id v hv).symm, hcandidateId.trans hkeyId,
      hversion.trans hkeyVersion, hclaimSha.trans hsha⟩
  · intro f hf
    exact absurd hf (by simp [hnone])
  · intro _ f hf
    exact absurd hf (by simp [hnone])

theorem consistent_startModules (h : AllConsistent ids s) {reasonCode : String}
    (hrows : transitionState s.rows id expected .VERIFYING reasonCode now = .ok rows) :
    AllConsistent ids { s with rows } := by
  obtain ⟨v, current, changes, hv, hcurrent, hchanges, rfl⟩ := transitionState_ok hrows
  have hold := h.consistent id v hv
  have hnone : v.finalizations = [] := by
    refine hold.finalizations_eq_nil hcurrent ?_
    rw [Revision.eq_moduleDispatching (stateSequence_allowed hchanges)]
    decide
  refine h.put (fun _ _ hc => hc) rfl (fun _ _ => rfl) ?_
  refine hold.restate (fun _ _ hc => hc) rfl rfl rfl rfl (fun hdecided => absurd hnone hdecided) ?_
  intro _ f hf
  exact absurd hf (by simp [hnone])

theorem consistent_executeModules (h : AllConsistent ids s) {id expected : ℕ} {handlers : Handlers}
    (hrows : executeModules s.rows id expected handlers = .ok rows) :
    AllConsistent ids { s with rows } := by
  obtain ⟨v, runs, results, hv, rfl⟩ := executeModules_ok hrows
  have hold := h.consistent id v hv
  refine h.put (fun _ _ hc => hc) rfl (fun _ _ => rfl) ?_
  exact hold.restate (fun _ _ hc => hc) rfl rfl rfl rfl hold.settled hold.reviewed

theorem decisionTarget_settled (decision : AggregateDecision) : decisionTarget decision ∈ settledStates :=
  List.mem_cons_of_mem _ (Revision.decisionTarget_decided decision)

theorem consistent_finalize (h : AllConsistent ids s) {report : Except Exn Unit}
    {reportSha256 : String}
    {reviewTasks : List ReviewTask}
    (hrows : finalizeControlPlane c1.toControlPlane s.rows id expected now report = .ok rows)
    (hv : requireVerification rows id = .ok (v, current)) :
    AllConsistent ids { s with
      rows
      reports := s.reports ++ (newReport ids v reportSha256).toList
      reviewTasks } := by
  obtain ⟨w, last, verdicts, aggregation, changes, hw, hlast, hstate, haggregate, hchanges, rfl⟩ :=
    finalizeControlPlane_ok hrows
  have hold := h.consistent id w hw
  have hkey := s.rows.verification_key id w hw
  have hnone : w.finalizations = [] := by
    refine hold.finalizations_eq_nil hlast ?_
    rw [hstate]
    decide
  obtain ⟨claim, hclaim, hverification, hcandidateId, hversion, hsha, hcodes, hdisclose⟩ :=
    aggregate_bound haggregate
  have hbound := hold.claims claim (List.mem_of_mem_head? hclaim)
  obtain ⟨hv, -⟩ := requireVerification_ok hv
  have hself := Rows.put_self s.rows { w with
    states := w.states ++ changes
    finalizations := w.finalizations ++ [⟨last.revisionRound, verdicts, aggregation⟩] }
  have hvw : v = { w with
      states := w.states ++ changes
      finalizations := w.finalizations ++ [⟨last.revisionRound, verdicts, aggregation⟩] } := by
    apply Option.some.inj
    rw [← hv, ← hself, ← hkey]
  have hreport : newReport ids v reportSha256
      = some (verificationReport ids ⟨last.revisionRound, verdicts, aggregation⟩ claim reportSha256) := by
    rw [hvw]
    simp [newReport, hnone, hclaim]
  have hreportId : aggregation.verificationId = w.request.verificationId :=
    hverification.trans hbound.verificationId_eq
  have hothers : ∀ other ≠ w.request.verificationId,
      (s.reports ++ (newReport ids v reportSha256).toList).filter (·.verificationId = other)
        = s.reportsOf other := by
    intro other hother
    rw [List.filter_append, hreport]
    simp [verificationReport, hreportId, System.reportsOf, Ne.symm hother]
  have hown : (s.reports ++ (newReport ids v reportSha256).toList).filter
      (·.verificationId = w.request.verificationId)
        = [verificationReport ids ⟨last.revisionRound, verdicts, aggregation⟩ claim reportSha256] := by
    have hempty : s.reports.filter (·.verificationId = w.request.verificationId) = [] :=
      hold.undecided hnone
    rw [List.filter_append, hempty, hreport]
    simp [verificationReport, hreportId]
  have htarget : stateOf { w with
      states := w.states ++ changes
      finalizations := w.finalizations ++ [⟨last.revisionRound, verdicts, aggregation⟩] }
        = some (decisionTarget aggregation.decision) :=
    stateOf_append [.AGGREGATING] rfl (stateSequence_ok hchanges).1
  refine h.put (fun _ _ hc => hc) rfl hothers ?_
  refine ⟨hold.candidate, hold.claims, ?_, ?_, ?_, ?_⟩
  · intro hempty
    exact absurd hempty (by simp)
  · intro f hf
    have heq : f = ⟨last.revisionRound, verdicts, aggregation⟩ := by
      simpa [hnone] using hf
    subst heq
    refine ⟨by simp [hnone], _, hown, ⟨claim, reportSha256, hbound, rfl⟩, ?_⟩
    exact ⟨hreportId, hcandidateId.trans hbound.candidateId_eq, hversion.trans hbound.candidateVersion_eq,
      hsha.trans hbound.candidateSha256_eq, hcodes, hdisclose⟩
  · intro _ state hmem
    rw [htarget] at hmem
    rw [← Option.some.inj hmem]
    exact decisionTarget_settled aggregation.decision
  · intro hreview f hf
    have heq : f = ⟨last.revisionRound, verdicts, aggregation⟩ := by
      simpa [hnone] using hf
    subst heq
    rw [htarget] at hreview
    revert hreview
    cases aggregation.decision <;> simp [decisionTarget]

theorem consistent_review (h : AllConsistent ids s) {context : TenantContext}
    {decision : HumanReviewDecision} {expectedTask expectedState now : ℕ}
    {tasks reviewTasks : List ReviewTask}
    (hrows : submitHumanReview s.rows tasks context decision expectedTask expectedState now
      = .ok (rows, reviewTasks)) : AllConsistent ids { s with rows, reviewTasks } := by
  obtain ⟨v, current, changes, hv, hcurrent, hstate, hchanges, rfl⟩ := submitHumanReview_ok hrows
  have hold := h.consistent _ v hv
  have htarget : stateOf { v with states := v.states ++ changes }
      = some (reviewDecisionTarget decision.decision) := stateOf_append [] rfl hchanges
  refine h.put (fun _ _ hc => hc) rfl (fun _ _ => rfl) ?_
  refine hold.restate (fun _ _ hc => hc) rfl rfl rfl rfl ?_ ?_
  · intro _ state hmem
    rw [htarget] at hmem
    rw [← Option.some.inj hmem]
    cases decision.decision <;> decide
  · intro hreview
    rw [htarget] at hreview
    revert hreview
    cases decision.decision <;> simp [reviewDecisionTarget]

/-- **Consistency.** Every operation of the control plane keeps it. -/
theorem consistent_lifecycle (h : AllConsistent ids s) {action : LifecycleAction}
    (hstep : stepLifecycle ids c1.toControlPlane s action = some after) : AllConsistent ids after := by
  have hok := eq_ok_of_toOption hstep
  cases action with
  | accept request now =>
    obtain ⟨rows, hrows, hafter⟩ := bind_eq_ok.mp hok
    cases hafter
    exact consistent_accept h hrows
  | prepare id expected now reviewTaskId =>
    obtain ⟨rows, hrows, hok⟩ := bind_eq_ok.mp hok
    obtain ⟨_, _, hafter⟩ := bind_eq_ok.mp hok
    cases hafter
    exact consistent_prepare h hrows
  | startModules id expected now =>
    obtain ⟨rows, hrows, hafter⟩ := bind_eq_ok.mp hok
    cases hafter
    exact consistent_startModules h hrows
  | executeModules id expected handlers =>
    obtain ⟨rows, hrows, hafter⟩ := bind_eq_ok.mp hok
    cases hafter
    exact consistent_executeModules h hrows
  | finalize id expected now reviewTaskId report =>
    obtain ⟨rows, hrows, hok⟩ := bind_eq_ok.mp hok
    obtain ⟨⟨v, current⟩, hv, hok⟩ := bind_eq_ok.mp hok
    obtain ⟨reportSha256, _, hok⟩ := bind_eq_ok.mp hok
    obtain ⟨tasks, _, hafter⟩ := bind_eq_ok.mp hok
    cases hafter
    exact consistent_finalize h hrows hv
  | review context decision expectedTask expectedState now =>
    obtain ⟨⟨rows, reviewTasks⟩, hrows, hafter⟩ := bind_eq_ok.mp hok
    cases hafter
    exact consistent_review h hrows

end lifecycle

end CyberControl.Release
