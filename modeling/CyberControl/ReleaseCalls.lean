import CyberControl.ReleasePending

/-! # Calls of the release gate

The API runs each of its operations on the gate as several transactions, and other operations may commit
between two of them.  A call holds what it has read so far, and is kept when it goes on. -/

namespace CyberControl.Release

open Topic3 Verification

/-! ### Requests -/

/-- What a client may ask the gate for. -/
inductive Entry where
  | issue (context : TenantContext) (authorization : Authorization)
  | derive (context : TenantContext) (command : ReleaseDerivationCommand) (idempotencyKey : String)
  | publish (context : TenantContext) (request : PublicationRequest)
  | commit (context : TenantContext) (command : PublicationCommitCommand) (idempotencyKey : String)

/-- A call between two of its transactions. -/
inductive Call where
  | requesting (context : TenantContext) (command : ReleaseDerivationCommand) (idempotencyKey : String)
  | derived (context : TenantContext) (authorization : Authorization) (authority : ReleaseAuthority)
  | issuing (context : TenantContext) (authorization : Authorization)
  | committing (context : TenantContext) (command : PublicationCommitCommand)
      (authorization : Authorization)
  | authorized (context : TenantContext) (command : PublicationCommitCommand)
      (authorization : Authorization) (authority : ReleaseAuthority)
  | publishing (context : TenantContext) (request : PublicationRequest)

/-- The rows of a tenant with the calls that are under way. -/
structure Gate where
  system : System
  calls : List Call

section calls
variable (ids : ReleaseIds) (catalogue : Catalogue)

/-- The checks of `commit_release_v2` on its command. -/
def validateCommitCommand (context : TenantContext) (command : PublicationCommitCommand)
    (idempotencyKey : String) : Except ReleaseError Unit :=
  require (command.tenantId = context.tenantId ∧ command.traceId = context.traceId ∧
      command.idempotencyKeySha256 = ids.keySha256 idempotencyKey ∧ command.recordIntegrityValid)
    (.release "C12 v2 commit command does not match trusted context")

/-- The first transaction of a request; a derivation may find its authorization and end there. -/
def enter (s : System) : Entry → Except ReleaseError (Option Call)
  | .issue context authorization => do
    validatePersistedReleaseAuthority ids catalogue s context authorization none none none true
    return some (.issuing context authorization)
  | .derive context command idempotencyKey => do
    validateCommand ids context command idempotencyKey
    match s.authorization (ids.derivedAuthorizationId idempotencyKey) with
    | some existing => do
      let _ ← existingAuthorization catalogue s command existing
      return none
    | none => return some (.requesting context command idempotencyKey)
  | .publish context request => do
    validatePersistedReleaseAuthority ids catalogue s context request.authorization
      (some request.report) (some request.candidate) none false
    return some (.publishing context request)
  | .commit context command idempotencyKey => do
    validateCommitCommand ids context command idempotencyKey
    match s.authorization command.authorizationId with
    | none => .error (.release "C12 authorization does not exist in the current tenant")
    | some authorization => return some (.committing context command authorization)

def Authorization.AuthorityOf (a : Authorization) (authority : ReleaseAuthority) : Prop :=
  authority.report.reportId = a.reportId ∧ authority.candidate.candidateId = a.candidateId ∧
    authority.candidate.candidateVersion = a.candidateVersion

instance (a : Authorization) (authority : ReleaseAuthority) : Decidable (a.AuthorityOf authority) :=
  inferInstanceAs (Decidable (_ ∧ _))

/-- The next transaction of a call, with the clock readings of the policy and of the repository.  The
conflict that `derive_release_authorization` catches writes nothing. -/
def resume (s : System) (now : ℕ) (clock : PublishClock) :
    Call → Except ReleaseError (System × Option Call)
  | .requesting context command idempotencyKey => do
    let authority ← releaseAuthority s command.verificationId
    let authorization ← deriveAuthorization ids catalogue authority context command idempotencyKey now
    return (s, some (.derived context authorization authority))
  | .derived context authorization authority => do
    validatePersistedReleaseAuthority ids catalogue s context authorization (some authority.report)
      (some authority.candidate) (some authority.state) false
    return (s, some (.issuing context authorization))
  | .issuing context authorization => do
    let issued ← issueAuthorization s context authorization now
    return (issued, none)
  | .committing context command authorization => do
    let authority ← releaseAuthority s authorization.verificationId
    require (authorization.AuthorityOf authority) (.release "C12 authorization authority changed")
    return (s, some (.authorized context command authorization authority))
  | .authorized context command authorization authority => do
    validatePersistedReleaseAuthority ids catalogue s context authorization (some authority.report)
      (some authority.candidate) (some authority.state) false
    return (s, some (.publishing context
      (commitRequest ids context command authorization authority.report authority.candidate)))
  | .publishing context request => do
    let (published, _) ← publish ids catalogue s context request now clock
    return (published, none)

/-! ### Steps -/

/-- One transaction. -/
inductive Action where
  | lifecycle (action : LifecycleAction)
  | revision (request : Revision.RevisionRequest) (patches : Revision.Patches) (clock : Revision.Clock)
      (stops : Bool)
  | enter (entry : Entry)
  | resume (index now : ℕ) (clock : PublishClock)

variable (c1 : ControlPlane) (childVerificationId : ℕ → ℕ → String → ℕ)

/-- A transaction that raises writes nothing and is no step. -/
def step (g : Gate) : Action → Option Gate
  | .lifecycle action => do
    let after ← stepLifecycle ids c1 g.system action
    return { g with system := after }
  | .revision request patches clock stops => do
    let after ← (Revision.revision childVerificationId g.system.toSystem request patches clock
      stops).toOption
    return { g with system := { g.system with toSystem := after } }
  | .enter entry => do
    let call ← (enter ids catalogue g.system entry).toOption
    return { g with calls := g.calls ++ call.toList }
  | .resume index now clock => do
    let call ← g.calls[index]?
    let (after, next) ← (resume ids catalogue g.system now clock call).toOption
    return ⟨after, g.calls ++ next.toList⟩

end calls

/-! ### What the transactions read and write -/

section specs
variable {ids : ReleaseIds} {catalogue : Catalogue} {s after : System} {context : TenantContext}

theorem releaseAuthority_ok {id : ℕ} {authority : ReleaseAuthority}
    (h : releaseAuthority s id = .ok authority) :
    ∃ v, s.rows.verifications id = some v ∧ s.latestReport id = some authority.report ∧
      latestAggregation v = some authority.aggregation ∧
      s.rows.candidates (authority.report.candidateId, authority.report.candidateVersion)
        = some authority.candidate := by
  unfold releaseAuthority at h
  split at h
  · rename_i report v hreport hv
    split at h
    · rename_i aggregation state haggregation hstate
      split at h
      · cases h
      · rename_i candidate hcandidate
        cases h
        exact ⟨v, hv, hreport, haggregation, hcandidate⟩
    · cases h
  · cases h

/-- What an authorization satisfies that has been compared with what is persisted. -/
structure Validated (ids : ReleaseIds) (catalogue : Catalogue) (authorization : Authorization)
    (authority : ReleaseAuthority) : Prop where
  persisted : Persisted ids authorization authority
  report_decision : authority.report.decision = authorization.releaseMode.expectedDecision
  aggregation_decision : authority.aggregation.decision = authorization.releaseMode.expectedDecision
  allowed_subset : authorization.allowedBlockIds ⊆ catalogue.blockIds authority.candidate
  disclosureCodes_eq : authorization.disclosureCodes
    = expectedDisclosures authorization.releaseMode authority.aggregation

variable {authorization : Authorization}

theorem validatePersistedReleaseAuthority_ok
    {report : Option VerificationReport} {candidate : Option Candidate} {state : Option StateChange}
    {requirePending : Bool}
    (h : validatePersistedReleaseAuthority ids catalogue s context authorization report candidate state
      requirePending = .ok ()) :
    ∃ authority, releaseAuthority s authorization.verificationId = .ok authority ∧
      Validated ids catalogue authorization authority := by
  obtain ⟨authority, hauthority, h⟩ := bind_eq_ok.mp h
  simp only [unit_bind_eq_ok, require_eq_ok] at h
  obtain ⟨⟨-, -, -, -, -, -, hpersisted⟩, ⟨hreport, haggregation⟩, ⟨-, hallowed⟩, -, hcodes⟩ := h
  exact ⟨authority, hauthority, hpersisted, hreport, haggregation, hallowed, hcodes⟩

theorem storeAuthorization_ok (h : storeAuthorization s context authorization = .ok after) :
    after = s ∨ after = { s with authorizations := s.authorizations ++ [authorization] } := by
  unfold storeAuthorization at h
  rw [unit_bind_eq_ok, unit_bind_eq_ok] at h
  obtain ⟨-, -, h⟩ := h
  split at h
  · obtain ⟨-, h⟩ := unit_bind_eq_ok.mp h
    cases h
    exact .inl rfl
  · rw [unit_bind_eq_ok, unit_bind_eq_ok] at h
    obtain ⟨-, -, h⟩ := h
    cases h
    exact .inr rfl

theorem issueAuthorization_ok {now : ℕ}
    (h : issueAuthorization s context authorization now = .ok after) :
    after = s ∨ after = { s with authorizations := s.authorizations ++ [authorization] } :=
  storeAuthorization_ok (unit_bind_eq_ok.mp h).2

/-- What the first consumption of an authorization writes: the publication, and the released state. -/
structure Consumed (ids : ReleaseIds) (catalogue : Catalogue) (s : System) (context : TenantContext)
    (request : PublicationRequest) (clock : PublishClock) (after : System) : Prop where
  unused : ∀ batch ∈ s.batches,
    batch.publicationBatchId ≠ ids.batchId request.authorization.authorizationId request.requestSha256
  candidate : s.rows.candidates
    (request.authorization.candidateId, request.authorization.candidateVersion) = some request.candidate
  released : ∃ v v', s.rows.verifications request.authorization.verificationId = some v ∧
    stateOf v = some .RELEASE_PENDING ∧ stateOf v' = some .RELEASED ∧ v'.request = v.request ∧
    v'.claims = v.claims ∧ v'.finalizations = v.finalizations ∧
    after = { s.publish (publication ids catalogue context request clock) with rows := s.rows.put v' }

variable {request : PublicationRequest} {result : PublicationResult} {clock : PublishClock}

theorem consume_ok (h : consume ids catalogue s context request clock = .ok (after, result)) :
    result = (publication ids catalogue context request clock).result ∧
      Consumed ids catalogue s context request clock after := by
  unfold consume at h
  cases hv : requireVerification s.rows request.authorization.verificationId with
  | error e =>
    simp only [hv] at h
    cases h
  | ok pair =>
    obtain ⟨v, current⟩ := pair
    simp only [hv] at h
    obtain ⟨hstate, h⟩ := unit_bind_eq_ok.mp h
    rw [require_eq_ok] at hstate
    obtain ⟨hrow, hcurrent⟩ := requireVerification_ok hv
    split at h
    · rename_i report candidate hreport hcandidate
      obtain ⟨hsame, h⟩ := unit_bind_eq_ok.mp h
      obtain ⟨hunused, hchange⟩ := unit_bind_eq_ok.mp h
      obtain ⟨-, heq⟩ := require_eq_ok.mp hsame
      cases hchanges : stateSequence current [(.RELEASED, "PUBLICATION_COMMITTED")] with
      | error e =>
        simp only [hchanges] at hchange
        cases hchange
      | ok changes =>
        simp only [hchanges] at hchange
        cases hchange
        refine ⟨rfl, require_eq_ok.mp hunused, heq ▸ hcandidate, v,
          { v with states := v.states ++ changes }, hrow, ?_, ?_, rfl, rfl, rfl, rfl⟩
        · rw [stateOf_eq hcurrent, hstate]
        · exact stateOf_append [] rfl (stateSequence_ok hchanges).1
    · cases h

theorem consumeAndPublish_ok
    (h : consumeAndPublish ids catalogue s context request clock = .ok (after, result)) :
    s.authorization request.authorization.authorizationId = some request.authorization ∧
      ((after = s ∧ ∃ consumed,
        s.consumption request.authorization.authorizationId = some consumed ∧
        consumed.requestSha256 = request.requestSha256 ∧
        s.currentState request.authorization.verificationId = some .RELEASED ∧
        replay s consumed.publicationBatchId = .ok result) ∨
      (s.consumption request.authorization.authorizationId = none ∧
        clock.checkedAt < request.authorization.expiresAt ∧
        result = (publication ids catalogue context request clock).result ∧
        Consumed ids catalogue s context request clock after)) := by
  obtain ⟨-, h⟩ := unit_bind_eq_ok.mp h
  cases hrow : s.authorization request.authorization.authorizationId with
  | none =>
    simp only [hrow] at h
    cases h
  | some row =>
    simp only [hrow] at h
    simp only [unit_bind_eq_ok] at h
    obtain ⟨hsame, -, -, h⟩ := h
    rw [require_eq_ok] at hsame
    refine ⟨congrArg some hsame, ?_⟩
    cases hconsumed : s.consumption request.authorization.authorizationId with
    | some consumed =>
      simp only [hconsumed] at h
      obtain ⟨hsha, h⟩ := unit_bind_eq_ok.mp h
      obtain ⟨hreleased, h⟩ := unit_bind_eq_ok.mp h
      obtain ⟨result', hreplay, h⟩ := bind_eq_ok.mp h
      cases h
      exact .inl ⟨rfl, consumed, rfl, require_eq_ok.mp hsha, require_eq_ok.mp hreleased, hreplay⟩
    | none =>
      simp only [hconsumed] at h
      obtain ⟨hexpiry, h⟩ := unit_bind_eq_ok.mp h
      rw [require_eq_ok, hsame] at hexpiry
      exact .inr ⟨rfl, hexpiry, consume_ok h⟩

theorem publish_ok {now : ℕ}
    (h : publish ids catalogue s context request now clock = .ok (after, result)) :
    request.authorization ∈ s.authorizations ∧
      (after = s ∨ Consumed ids catalogue s context request clock after) := by
  obtain ⟨-, h⟩ := unit_bind_eq_ok.mp h
  obtain ⟨hrow, ⟨hsame, -⟩ | ⟨-, -, -, hconsumed⟩⟩ := consumeAndPublish_ok h
  · exact ⟨List.mem_of_find?_eq_some hrow, .inl hsame⟩
  · exact ⟨List.mem_of_find?_eq_some hrow, .inr hconsumed⟩

end specs

end CyberControl.Release
