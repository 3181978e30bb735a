import CyberControl.ReleaseCalls

/-! # Only what is verified is published

Whatever the calls of the control plane, the revisions and the calls of the release gate do between each
other's transactions, a verification is released at most once, on a decision that releases it. -/

namespace CyberControl.Release

open Topic3 Transition Verification

/-! ### The control plane and the gate -/

/-- Candidates, decisions and reports are only added. -/
structure Grows (s s' : System) : Prop where
  candidates : ∀ key candidate, s.rows.candidates key = some candidate →
    s'.rows.candidates key = some candidate
  finalizations : ∀ id v, s.rows.verifications id = some v →
    ∃ v', s'.rows.verifications id = some v' ∧ v.finalizations ⊆ v'.finalizations
  reports : s.reports ⊆ s'.reports

/-- What the control plane may do: the tables of the gate stay, and no verification gets into `RELEASED`
or out of it. -/
structure Controlled (ids : ReleaseIds) (s s' : System) : Prop where
  consistent : AllConsistent ids s → AllConsistent ids s'
  grows : Grows s s'
  authorizations : s'.authorizations = s.authorizations
  batches : s'.batches = s.batches
  outbox : s'.outbox = s.outbox
  events : s'.events = s.events
  released : ∀ id, s'.currentState id = some .RELEASED ↔ s.currentState id = some .RELEASED

variable {id : ℕ}

section control
variable {ids : ReleaseIds} {c1 : BoundControlPlane} {s s' s'' : System}

theorem Grows.trans (h : Grows s s') (h' : Grows s' s'') : Grows s s'' := by
  refine ⟨fun key c hc => h'.candidates key c (h.candidates key c hc), fun id v hv => ?_,
    List.Subset.trans h.reports h'.reports⟩
  obtain ⟨v', hv', hsubset⟩ := h.finalizations id v hv
  obtain ⟨v'', hv'', hsubset'⟩ := h'.finalizations id v' hv'
  exact ⟨v'', hv'', List.Subset.trans hsubset hsubset'⟩

theorem Grows.of_eq (hrows : s'.rows = s.rows) (hreports : s'.reports = s.reports) : Grows s s' := by
  refine ⟨fun key c hc => hrows ▸ hc, fun id v hv => ⟨v, hrows ▸ hv, List.Subset.refl _⟩, ?_⟩
  rw [hreports]
  exact List.Subset.refl _

theorem Controlled.trans (h : Controlled ids s s') (h' : Controlled ids s' s'') : Controlled ids s s'' where
  consistent := fun hs => h'.consistent (h.consistent hs)
  grows := h.grows.trans h'.grows
  authorizations := h'.authorizations.trans h.authorizations
  batches := h'.batches.trans h.batches
  outbox := h'.outbox.trans h.outbox
  events := h'.events.trans h.events
  released := fun id => (h'.released id).trans (h.released id)

theorem decisionTarget_ne_released (decision : AggregateDecision) : decisionTarget decision ≠ .RELEASED := by
  cases decision <;> decide

theorem reviewDecisionTarget_ne_released (decision : ReviewDecision) :
    reviewDecisionTarget decision ≠ .RELEASED := by
  cases decision <;> decide

theorem Moved.released {approved : Prop} {v v' : VerificationRecord} (h : Moved approved v v') :
    stateOf v' = some .RELEASED ↔ stateOf v = some .RELEASED := by
  cases h with
  | executed hstate _ => rw [hstate]
  | advanced hsource htarget hsources htargets _ =>
    rw [hsource, htarget, Option.some_inj, Option.some_inj]
    constructor
    · rintro rfl
      exact absurd htargets (by decide)
    · rintro rfl
      exact absurd hsources (by decide)
  | @finalized f hsource htarget _ =>
    rw [hsource, htarget, Option.some_inj, Option.some_inj]
    exact ⟨fun h => absurd h (decisionTarget_ne_released _), fun h => absurd h (by decide)⟩
  | reviewed hsource htarget _ _ =>
    rw [hsource, htarget, Option.some_inj, Option.some_inj]
    exact ⟨fun h => absurd h (reviewDecisionTarget_ne_released _), fun h => absurd h (by decide)⟩

theorem Moved.finalizations_subset {approved : Prop} {v v' : VerificationRecord}
    (h : Moved approved v v') : v.finalizations ⊆ v'.finalizations := by
  cases h with
  | executed _ hfinalizations => exact hfinalizations ▸ List.Subset.refl _
  | advanced _ _ _ _ hfinalizations => exact hfinalizations ▸ List.Subset.refl _
  | finalized _ _ hfinalizations => exact hfinalizations ▸ List.subset_append_left _ _
  | reviewed _ _ _ hfinalizations => exact hfinalizations ▸ List.Subset.refl _

theorem exists_of_currentState {state : VerificationState} (h : s.currentState id = some state) :
    ∃ v, s.rows.verifications id = some v ∧ stateOf v = some state := by
  obtain ⟨v, hv, hstate⟩ := Option.bind_eq_some_iff.mp h
  exact ⟨v, hv, hstate⟩

theorem Wrote.released {action : LifecycleAction} (h : Wrote action s.rows s'.rows) (id : ℕ) :
    s'.currentState id = some .RELEASED ↔ s.currentState id = some .RELEASED := by
  constructor
  · intro hreleased
    obtain ⟨v', hv', hstate⟩ := exists_of_currentState hreleased
    rcases h.at hv' with hold | ⟨request, rfl⟩ | ⟨v, hv, hmoved⟩
    · rw [currentState_eq hold, hstate]
    · cases hstate
    · rw [currentState_eq hv, hmoved.released.mp hstate]
  · intro hreleased
    obtain ⟨v, hv, hstate⟩ := exists_of_currentState hreleased
    obtain ⟨v', hv', -, rfl | hmoved⟩ := h.kept hv
    · rw [currentState_eq hv', hstate]
    · rw [currentState_eq hv', hmoved.released.mpr hstate]

theorem controlled_lifecycle {action : LifecycleAction}
    (hstep : stepLifecycle ids c1.toControlPlane s action = some s') : Controlled ids s s' := by
  obtain ⟨hwrote, hauthorizations, -, hbatches, houtbox, hevents, hreports⟩ := lifecycle_wrote hstep
  have hcandidates := hwrote.candidates_eq
  refine ⟨fun hs => consistent_lifecycle hs hstep, ⟨fun key c hc => hcandidates ▸ hc, fun id v hv => ?_,
    hreports⟩, hauthorizations, hbatches, houtbox, hevents, hwrote.released⟩
  obtain ⟨v', hv', -, rfl | hmoved⟩ := hwrote.kept hv
  · exact ⟨v', hv', List.Subset.refl _⟩
  · exact ⟨v', hv', hmoved.finalizations_subset⟩

/-- A revision adds a candidate, and then it accepts a verification if it does not stop before. -/
theorem controlled_revision {childVerificationId : ℕ → ℕ → String → ℕ}
    {request : Revision.RevisionRequest} {patches : Revision.Patches} {clock : Revision.Clock} {stops : Bool}
    {after : Revision.System}
    (h : Revision.revision childVerificationId s.toSystem request patches clock stops = .ok after) :
    Controlled ids s { s with toSystem := after } := by
  obtain ⟨revised, hsame, hkept, hafter⟩ := Revision.revision_ok h
  have hrevised : Controlled ids s { s with toSystem := revised } := by
    refine ⟨fun hs => hs.frame hkept hsame rfl, ⟨hkept, fun id v hv => ⟨v, ?_, List.Subset.refl _⟩,
      List.Subset.refl _⟩, rfl, rfl, rfl, rfl, fun id => ?_⟩
    · exact (congrFun hsame id).trans hv
    · unfold System.currentState
      rw [hsame]
  rcases hafter with rfl | ⟨child, now, rows, haccept, rfl⟩
  · exact hrevised
  · obtain ⟨hnew, -, hrows⟩ := acceptVerification_ok haccept
    have hwrote : Wrote (.accept child now) revised.rows rows := hrows ▸ .accepted child hnew
    refine hrevised.trans ⟨fun hs => consistent_accept hs haccept, ⟨?_, fun id v hv => ?_,
      List.Subset.refl _⟩, rfl, rfl, rfl, rfl, hwrote.released⟩
    · intro key c hc
      exact hwrote.candidates_eq ▸ hc
    · obtain ⟨v', hv', -, rfl | hmoved⟩ := hwrote.kept hv
      · exact ⟨v', hv', List.Subset.refl _⟩
      · exact ⟨v', hv', hmoved.finalizations_subset⟩

end control

/-! ### Authorized decisions -/

/-- The one decision on a verification, its report and its candidate. -/
structure Decision (s : System) (id : ℕ) (authority : ReleaseAuthority) : Prop where
  verification : ∃ v f, s.rows.verifications id = some v ∧ v.finalizations = [f] ∧
    f.aggregation = authority.aggregation
  reports : s.reportsOf id = [authority.report]
  candidate : s.rows.candidates (authority.report.candidateId, authority.report.candidateVersion)
    = some authority.candidate

/-- The authorization is one of the decision on its verification. -/
def Authorized (ids : ReleaseIds) (catalogue : Catalogue) (s : System) (authorization : Authorization) :
    Prop :=
  ∃ authority, Decision s authorization.verificationId authority ∧
    Validated ids catalogue authorization authority

variable {context : TenantContext} {authorization : Authorization}

section decision
variable {ids : ReleaseIds} {catalogue : Catalogue} {s s' : System} {id : ℕ} {authority : ReleaseAuthority}

theorem decision_of_releaseAuthority (hconsistent : AllConsistent ids s)
    (h : releaseAuthority s id = .ok authority) : Decision s id authority := by
  obtain ⟨v, hv, hreport, haggregation, hcandidate⟩ := releaseAuthority_ok h
  obtain ⟨f, hf, hfa⟩ := List.mem_map.mp (List.argmax_mem haggregation)
  obtain ⟨hsingle, report, hreports, -⟩ := (hconsistent.consistent id v hv).decided f hf
  rw [s.rows.verification_key id v hv] at hreports
  have hmem := List.argmax_mem hreport
  rw [hreports] at hmem
  refine ⟨⟨v, f, hv, hsingle, hfa⟩, ?_, hcandidate⟩
  rw [hreports, List.mem_singleton.mp hmem]

theorem Decision.releaseAuthority (h : Decision s id authority) :
    s.latestReport id = some authority.report ∧
      ∃ v, s.rows.verifications id = some v ∧ latestAggregation v = some authority.aggregation := by
  obtain ⟨v, f, hv, hsingle, hfa⟩ := h.verification
  refine ⟨?_, v, hv, ?_⟩
  · unfold System.latestReport
    rw [h.reports, List.argmax_singleton]
  · unfold latestAggregation
    rw [hsingle, List.map_singleton, List.argmax_singleton, hfa]

theorem Decision.grows (h : Decision s id authority) (hgrows : Grows s s')
    (hconsistent : AllConsistent ids s') : Decision s' id authority := by
  obtain ⟨v, f, hv, hsingle, hfa⟩ := h.verification
  obtain ⟨v', hv', hsubset⟩ := hgrows.finalizations id v hv
  have hf : f ∈ v'.finalizations := by
    apply hsubset
    rw [hsingle]
    exact List.mem_singleton_self f
  obtain ⟨hsingle', report, hreports, -⟩ := (hconsistent.consistent id v' hv').decided f hf
  rw [s'.rows.verification_key id v' hv'] at hreports
  have hmem : authority.report ∈ s'.reportsOf id := by
    have hold : authority.report ∈ s.reportsOf id := by
      rw [h.reports]
      exact List.mem_singleton_self _
    obtain ⟨hreport, hid⟩ := List.mem_filter.mp hold
    exact List.mem_filter.mpr ⟨hgrows.reports hreport, hid⟩
  rw [hreports] at hmem
  refine ⟨⟨v', f, hv', hsingle', hfa⟩, ?_, hgrows.candidates _ _ h.candidate⟩
  rw [hreports, List.mem_singleton.mp hmem]

theorem Authorized.grows (h : Authorized ids catalogue s authorization)
    (hgrows : Grows s s') (hconsistent : AllConsistent ids s') :
    Authorized ids catalogue s' authorization := by
  obtain ⟨authority, hdecision, hvalidated⟩ := h
  exact ⟨authority, hdecision.grows hgrows hconsistent, hvalidated⟩

theorem authorized_of_validate
    {report : Option VerificationReport} {candidate : Option Candidate} {state : Option StateChange}
    {requirePending : Bool} (hconsistent : AllConsistent ids s)
    (h : validatePersistedReleaseAuthority ids catalogue s context authorization report candidate state
      requirePending = .ok ()) : Authorized ids catalogue s authorization := by
  obtain ⟨authority, hauthority, hvalidated⟩ := validatePersistedReleaseAuthority_ok h
  exact ⟨authority, decision_of_releaseAuthority hconsistent hauthority, hvalidated⟩

end decision

/-! ### Publications -/

/-- The publications of a verification: their rows are its batches, messages and events, and there is one
exactly when the verification is released. -/
structure Ledger (ids : ReleaseIds) (catalogue : Catalogue) (s : System) (id : ℕ)
    (publications : List Publication) : Prop where
  batches : s.batches.filter (·.verificationId = id) = publications.flatMap fun p => [p.pending, p.committed]
  outbox : s.outbox.filter (·.correlationId = id) = publications.map (·.message)
  events : s.events.filter (·.payloadArtifact.document.verificationId = id) = publications.map (·.event)
  length_le : publications.length ≤ 1
  released : s.currentState id = some .RELEASED ↔ publications ≠ []
  authorized : ∀ p ∈ publications, ∃ context request clock,
    p = publication ids catalogue context request clock ∧ request.authorization ∈ s.authorizations ∧
      request.authorization.verificationId = id ∧
      s.rows.candidates (request.authorization.candidateId, request.authorization.candidateVersion)
        = some request.candidate

/-- **The invariant.** -/
structure Safe (ids : ReleaseIds) (catalogue : Catalogue) (g : Gate) : Prop where
  consistent : AllConsistent ids g.system
  authorized : ∀ a ∈ g.system.authorizations, Authorized ids catalogue g.system a
  issuing : ∀ context a, .issuing context a ∈ g.calls → Authorized ids catalogue g.system a
  ledger : ∀ id, ∃ publications, Ledger ids catalogue g.system id publications

section safety
variable {ids : ReleaseIds} {catalogue : Catalogue} {c1 : BoundControlPlane}
  {childVerificationId : ℕ → ℕ → String → ℕ} {s s' : System} {g g' : Gate}

theorem Ledger.frame {publications : List Publication} (h : Ledger ids catalogue s id publications)
    (hbatches : s'.batches = s.batches) (houtbox : s'.outbox = s.outbox) (hevents : s'.events = s.events)
    (hreleased : s'.currentState id = some .RELEASED ↔ s.currentState id = some .RELEASED)
    (hauthorizations : s.authorizations ⊆ s'.authorizations)
    (hcandidates : ∀ key candidate, s.rows.candidates key = some candidate →
      s'.rows.candidates key = some candidate) : Ledger ids catalogue s' id publications := by
  refine ⟨hbatches ▸ h.batches, houtbox ▸ h.outbox, hevents ▸ h.events, h.length_le,
    hreleased.trans h.released, fun p hp => ?_⟩
  obtain ⟨context, request, clock, heq, hauthorization, hid, hcandidate⟩ := h.authorized p hp
  exact ⟨context, request, clock, heq, hauthorizations hauthorization, hid, hcandidates _ _ hcandidate⟩

theorem Safe.control (h : Safe ids catalogue g) (hcontrolled : Controlled ids g.system s') :
    Safe ids catalogue { g with system := s' } := by
  have hconsistent := hcontrolled.consistent h.consistent
  refine ⟨hconsistent, fun a ha => ?_, fun context a ha => ?_, fun id => ?_⟩
  · rw [hcontrolled.authorizations] at ha
    exact (h.authorized a ha).grows hcontrolled.grows hconsistent
  · exact (h.issuing context a ha).grows hcontrolled.grows hconsistent
  · obtain ⟨publications, hledger⟩ := h.ledger id
    refine ⟨publications, hledger.frame hcontrolled.batches hcontrolled.outbox hcontrolled.events
      (hcontrolled.released id) ?_ hcontrolled.grows.candidates⟩
    rw [hcontrolled.authorizations]
    exact List.Subset.refl _

theorem Safe.ask (h : Safe ids catalogue g) {call : Option Call}
    (hcall : ∀ context a, .issuing context a ∈ call → Authorized ids catalogue g.system a) :
    Safe ids catalogue { g with calls := g.calls ++ call.toList } := by
  refine ⟨h.consistent, h.authorized, fun context a ha => ?_, h.ledger⟩
  rcases List.mem_append.mp ha with hold | hnew
  · exact h.issuing context a hold
  · exact hcall context a (Option.mem_toList.mp hnew)

theorem Safe.issue (h : Safe ids catalogue g)
    (hauthorized : Authorized ids catalogue g.system authorization) :
    Safe ids catalogue { g with
      system := { g.system with authorizations := g.system.authorizations ++ [authorization] } } := by
  have hconsistent : AllConsistent ids
      { g.system with authorizations := g.system.authorizations ++ [authorization] } :=
    h.consistent.frame (fun _ _ hc => hc) rfl rfl
  have hgrows : Grows g.system
      { g.system with authorizations := g.system.authorizations ++ [authorization] } := .of_eq rfl rfl
  refine ⟨hconsistent, fun a ha => ?_, fun context a ha => ?_, fun id => ?_⟩
  · rcases List.mem_append.mp ha with hold | hnew
    · exact (h.authorized a hold).grows hgrows hconsistent
    · rw [List.mem_singleton.mp hnew]
      exact hauthorized.grows hgrows hconsistent
  · exact (h.issuing context a ha).grows hgrows hconsistent
  · obtain ⟨publications, hledger⟩ := h.ledger id
    exact ⟨publications, hledger.frame rfl rfl rfl Iff.rfl (List.subset_append_left _ _) hgrows.candidates⟩

variable {request : PublicationRequest} {clock : PublishClock}

theorem consistent_consumed
    (h : AllConsistent ids s) (hconsumed : Consumed ids catalogue s context request clock s') :
    AllConsistent ids s' := by
  obtain ⟨-, -, v, v', hv, -, hstate, hrequest, hclaims, hfinalizations, rfl⟩ := hconsumed
  have hold := h.consistent _ v hv
  refine h.put (fun _ _ hc => hc) rfl (fun _ _ => rfl) ?_
  refine hold.restate (fun _ _ hc => hc) rfl hrequest hclaims hfinalizations ?_ ?_
  · intro _ state hmem
    rw [hstate] at hmem
    rw [← Option.some.inj hmem]
    decide
  · intro hreview
    rw [hstate] at hreview
    cases hreview

theorem grows_consumed (hconsumed : Consumed ids catalogue s context request clock s') : Grows s s' := by
  obtain ⟨-, -, v, v', hv, -, -, hrequest, -, hfinalizations, rfl⟩ := hconsumed
  refine ⟨fun _ _ hc => hc, fun id w hw => ?_, List.Subset.refl _⟩
  have hkey := s.rows.verification_key _ v hv
  by_cases hid : id = v'.request.verificationId
  · rw [hid]
    refine ⟨v', Rows.put_self s.rows v', ?_⟩
    have hw' : w = v := by
      rw [hid, hrequest, hkey, hv] at hw
      exact (Option.some.inj hw).symm
    rw [hw', hfinalizations]
    exact List.Subset.refl _
  · exact ⟨w, (Rows.put_of_ne s.rows hid).trans hw, List.Subset.refl _⟩

theorem currentState_consumed (hconsumed : Consumed ids catalogue s context request clock s') :
    s.currentState request.authorization.verificationId = some .RELEASE_PENDING ∧
      s'.currentState request.authorization.verificationId = some .RELEASED ∧
      ∀ id ≠ request.authorization.verificationId, s'.currentState id = s.currentState id := by
  obtain ⟨-, -, v, v', hv, hpending, hstate, hrequest, -, -, rfl⟩ := hconsumed
  have hkey : v'.request.verificationId = request.authorization.verificationId := by
    rw [hrequest]
    exact s.rows.verification_key _ v hv
  refine ⟨?_, ?_, fun id hid => ?_⟩
  · rw [currentState_eq hv, hpending]
  · rw [← hkey, currentState_eq (Rows.put_self s.rows v'), hstate]
  · unfold System.currentState
    show ((s.rows.put v').verifications id).bind _ = _
    rw [Rows.put_of_ne s.rows (hkey ▸ hid)]

theorem Ledger.publish {publications : List Publication}
    (h : Ledger ids catalogue s id publications)
    (hauthorization : request.authorization ∈ s.authorizations)
    (hconsumed : Consumed ids catalogue s context request clock s') :
    ∃ publications', Ledger ids catalogue s' id publications' := by
  obtain ⟨hpending, hreleased, hothers⟩ := currentState_consumed hconsumed
  obtain ⟨-, hcandidate, v, v', -, -, -, -, -, -, rfl⟩ := hconsumed
  by_cases hid : id = request.authorization.verificationId
  · subst hid
    have hnil : publications = [] := by
      by_contra hne
      exact absurd (hpending.symm.trans (h.released.mpr hne)) (by decide)
    subst hnil
    refine ⟨[publication ids catalogue context request clock], ?_, ?_, ?_, Nat.le_refl 1, ?_, ?_⟩
    · show (s.batches ++ _).filter _ = _
      rw [List.filter_append, h.batches]
      simp [publication, pendingBatch]
    · show (s.outbox ++ _).filter _ = _
      rw [List.filter_append, h.outbox]
      simp [publication]
    · show (s.events ++ _).filter _ = _
      rw [List.filter_append, h.events]
      simp [publication, eventArtifact, putDocument]
    · exact ⟨fun _ => List.cons_ne_nil _ _, fun _ => hreleased⟩
    · intro p hp
      exact ⟨context, request, clock, List.mem_singleton.mp hp, hauthorization, rfl, hcandidate⟩
  · have hne : request.authorization.verificationId ≠ id := fun heq => hid heq.symm
    refine ⟨publications, ?_, ?_, ?_, h.length_le, ?_, h.authorized⟩
    · show (s.batches ++ _).filter _ = _
      rw [List.filter_append, h.batches]
      simp [publication, pendingBatch, hne]
    · show (s.outbox ++ _).filter _ = _
      rw [List.filter_append, h.outbox]
      simp [publication, hne]
    · show (s.events ++ _).filter _ = _
      rw [List.filter_append, h.events]
      simp [publication, eventArtifact, putDocument, hne]
    · rw [hothers id hid]
      exact h.released

theorem Safe.publish (h : Safe ids catalogue g)
    (hauthorization : request.authorization ∈ g.system.authorizations)
    (hconsumed : Consumed ids catalogue g.system context request clock s') :
    Safe ids catalogue { g with system := s' } := by
  have hconsistent := consistent_consumed h.consistent hconsumed
  have hgrows := grows_consumed hconsumed
  refine ⟨hconsistent, fun a ha => ?_, fun context a ha => ?_, fun id => ?_⟩
  · have hsame : s'.authorizations = g.system.authorizations := by
      obtain ⟨-, -, v, v', -, -, -, -, -, -, rfl⟩ := hconsumed
      rfl
    rw [hsame] at ha
    exact (h.authorized a ha).grows hgrows hconsistent
  · exact (h.issuing context a ha).grows hgrows hconsistent
  · obtain ⟨publications, hledger⟩ := h.ledger id
    exact hledger.publish hauthorization hconsumed

theorem Safe.enter (h : Safe ids catalogue g) {entry : Entry} {call : Option Call}
    (henter : enter ids catalogue g.system entry = .ok call) :
    Safe ids catalogue { g with calls := g.calls ++ call.toList } := by
  refine h.ask fun context a ha => ?_
  cases entry with
  | issue context' authorization =>
    obtain ⟨hvalid, henter⟩ := unit_bind_eq_ok.mp henter
    cases henter
    cases ha
    exact authorized_of_validate h.consistent hvalid
  | derive context' command idempotencyKey =>
    obtain ⟨-, henter⟩ := unit_bind_eq_ok.mp henter
    split at henter
    · obtain ⟨_, -, henter⟩ := bind_eq_ok.mp henter
      cases henter
      cases ha
    · cases henter
      cases ha
  | publish context' request =>
    obtain ⟨-, henter⟩ := unit_bind_eq_ok.mp henter
    cases henter
    cases ha
  | commit context' command idempotencyKey =>
    obtain ⟨-, henter⟩ := unit_bind_eq_ok.mp henter
    split at henter
    · cases henter
    · cases henter
      cases ha

theorem Safe.resume (h : Safe ids catalogue g) {call : Call} (hcall : call ∈ g.calls) {now : ℕ}
    {next : Option Call}
    (hresume : resume ids catalogue g.system now clock call = .ok (s', next)) :
    Safe ids catalogue ⟨s', g.calls ++ next.toList⟩ := by
  cases call with
  | requesting context command idempotencyKey =>
    obtain ⟨_, -, hresume⟩ := bind_eq_ok.mp hresume
    obtain ⟨_, -, hresume⟩ := bind_eq_ok.mp hresume
    cases hresume
    exact h.ask fun context a ha => by cases ha
  | derived context authorization authority =>
    obtain ⟨hvalid, hresume⟩ := unit_bind_eq_ok.mp hresume
    cases hresume
    refine h.ask fun context a ha => ?_
    cases ha
    exact authorized_of_validate h.consistent hvalid
  | issuing context authorization =>
    obtain ⟨issued, hissue, hresume⟩ := bind_eq_ok.mp hresume
    cases hresume
    rw [Option.toList_none, List.append_nil]
    rcases issueAuthorization_ok hissue with rfl | rfl
    · exact h
    · exact h.issue (h.issuing context authorization hcall)
  | committing context command authorization =>
    obtain ⟨_, -, hresume⟩ := bind_eq_ok.mp hresume
    obtain ⟨-, hresume⟩ := unit_bind_eq_ok.mp hresume
    cases hresume
    exact h.ask fun context a ha => by cases ha
  | authorized context command authorization authority =>
    obtain ⟨-, hresume⟩ := unit_bind_eq_ok.mp hresume
    cases hresume
    exact h.ask fun context a ha => by cases ha
  | publishing context request =>
    obtain ⟨⟨published, result⟩, hpublish, hresume⟩ := bind_eq_ok.mp hresume
    cases hresume
    rw [Option.toList_none, List.append_nil]
    obtain ⟨hauthorization, rfl | hconsumed⟩ := publish_ok hpublish
    · exact h
    · exact h.publish hauthorization hconsumed

/-- **One transaction.** -/
theorem step_safe (h : Safe ids catalogue g) {action : Action}
    (hstep : step ids catalogue c1.toControlPlane childVerificationId g action = some g') :
    Safe ids catalogue g' := by
  cases action with
  | lifecycle action =>
    obtain ⟨after, hafter, hstep⟩ := Option.bind_eq_some_iff.mp hstep
    cases hstep
    exact h.control (controlled_lifecycle hafter)
  | revision request patches clock stops =>
    obtain ⟨after, hafter, hstep⟩ := Option.bind_eq_some_iff.mp hstep
    cases hstep
    exact h.control (controlled_revision (eq_ok_of_toOption hafter))
  | enter entry =>
    obtain ⟨call, hcall, hstep⟩ := Option.bind_eq_some_iff.mp hstep
    cases hstep
    exact h.enter (eq_ok_of_toOption hcall)
  | resume index now clock =>
    obtain ⟨call, hcall, hstep⟩ := Option.bind_eq_some_iff.mp hstep
    obtain ⟨⟨after, next⟩, hafter, hstep⟩ := Option.bind_eq_some_iff.mp hstep
    cases hstep
    exact h.resume (List.mem_of_getElem? hcall) (eq_ok_of_toOption hafter)

end safety

/-! ### Runs -/

/-- A tenant before its first verification: there are candidates, and nothing else. -/
structure Vacant (s : System) : Prop where
  verifications : ∀ id, s.rows.verifications id = none
  reports : s.reports = []
  authorizations : s.authorizations = []
  batches : s.batches = []
  outbox : s.outbox = []
  events : s.events = []

theorem Vacant.safe {ids : ReleaseIds} {catalogue : Catalogue} {s : System} (h : Vacant s) :
    Safe ids catalogue ⟨s, []⟩ := by
  refine ⟨⟨fun id v hv => ?_, fun id _ => ?_⟩, fun a ha => ?_, fun context a ha => ?_, fun id => ⟨[], ?_⟩⟩
  · exact absurd ((h.verifications id).symm.trans hv) (by simp)
  · unfold System.reportsOf
    rw [h.reports]
    rfl
  · exact absurd ha (by simp [h.authorizations])
  · cases ha
  · refine ⟨by simp [h.batches], by simp [h.outbox], by simp [h.events], Nat.zero_le 1, ?_, ?_⟩
    · simp [System.currentState, h.verifications]
    · intro p hp
      cases hp

/-- The verification `v` has been published as it was verified: `authorization` allows what `batch` and
`event` publish of `candidate`, as `report` and `aggregation` decided. -/
structure PublishedVerified (catalogue : Catalogue) (s : System) (v : VerificationRecord)
    (report : VerificationReport) (aggregation : AggregationResult) (candidate : Candidate)
    (authorization : Authorization) (batch : PublicationBatch) (event : PublicStreamEvent) : Prop where
  latest_report : s.latestReport v.request.verificationId = some report
  latest_aggregation : latestAggregation v = some aggregation
  report_decision : report.decision = aggregation.decision
  decision : aggregation.decision = .RELEASE ∨ aggregation.decision = .RELEASE_WITH_DISCLOSURE ∧
    authorization.disclosureCodes = aggregation.disclosureCodes
  authorization_mem : authorization ∈ s.authorizations
  authorization_verification : authorization.verificationId = v.request.verificationId
  candidate_row : s.rows.candidates (v.request.candidateId, v.request.candidateVersion) = some candidate
  request_sha256 : v.request.candidateSha256 = candidate.candidateSha256
  aggregation_sha256 : aggregation.candidateSha256 = candidate.candidateSha256
  report_sha256 : report.candidateSha256 = candidate.candidateSha256
  authorization_sha256 : authorization.candidateSha256 = candidate.candidateSha256
  batch_mem : batch ∈ s.batches
  batch_verification : batch.verificationId = v.request.verificationId
  batch_state : batch.state = .COMMITTED
  batch_authorization : batch.authorizationId = authorization.authorizationId
  event_mem : event ∈ s.events
  event_batch : event.publicationBatchId = batch.publicationBatchId
  batch_artifacts : batch.publicArtifacts = [event.payloadArtifact.document.publicArtifact]
  document_sha256 :
    event.payloadArtifact.document.publicArtifact.document.candidateSha256 = candidate.candidateSha256
  allowed : authorization.allowedBlockIds ⊆ catalogue.blockIds candidate
  blocks : ∀ block, block ∈ event.payloadArtifact.document.publicArtifact.document.blocks ↔
    block ∈ catalogue.blocks candidate.candidateSha256 ∧ block.blockId ∈ authorization.allowedBlockIds

/-- The batch, the message and the event of a verification, if there are any. -/
structure PublishedOnce (s : System) (id : ℕ) : Prop where
  batches : (s.batches.filter fun batch => batch.verificationId = id ∧ batch.state = .COMMITTED).length ≤ 1
  batchIds : ∀ batch ∈ s.batches, ∀ other ∈ s.batches, batch.verificationId = id →
    other.verificationId = id → batch.publicationBatchId = other.publicationBatchId
  outbox : (s.outbox.filter (·.correlationId = id)).length ≤ 1
  events : (s.events.filter (·.payloadArtifact.document.verificationId = id)).length ≤ 1

section runs
variable {ids : ReleaseIds} {catalogue : Catalogue} {s : System} {g : Gate} {id : ℕ}
  {publications : List Publication}

theorem Ledger.eq_of_mem (h : Ledger ids catalogue s id publications) {p q : Publication}
    (hp : p ∈ publications) (hq : q ∈ publications) : p = q := by
  rcases publications with _ | ⟨first, _ | ⟨second, rest⟩⟩
  · cases hp
  · rw [List.mem_singleton.mp hp, List.mem_singleton.mp hq]
  · exact absurd h.length_le (by simp)

theorem Ledger.committed (h : Ledger ids catalogue s id publications) :
    s.batches.filter (fun batch => batch.verificationId = id ∧ batch.state = .COMMITTED)
      = publications.map (·.committed) := by
  have hcommitted : s.batches.filter (fun batch => batch.verificationId = id ∧ batch.state = .COMMITTED)
      = (s.batches.filter (·.verificationId = id)).filter (·.state = .COMMITTED) := by
    rw [List.filter_filter]
    congr 1
    funext batch
    rw [Bool.decide_and, Bool.and_comm]
  rw [hcommitted, h.batches, List.filter_flatMap, List.map_eq_flatMap]
  refine List.flatMap_congr fun p hp => ?_
  obtain ⟨context, request, clock, rfl, -⟩ := h.authorized p hp
  simp [publication, pendingBatch]

theorem Ledger.publishedOnce (h : Ledger ids catalogue s id publications) : PublishedOnce s id := by
  refine ⟨?_, fun batch hbatch other hother hid hid' => ?_, ?_, ?_⟩
  · rw [h.committed, List.length_map]
    exact h.length_le
  · have hids : ∀ batch ∈ s.batches, batch.verificationId = id →
        ∃ p ∈ publications, batch.publicationBatchId = p.pending.publicationBatchId := by
      intro batch hbatch hid
      have hmem : batch ∈ s.batches.filter (·.verificationId = id) :=
        List.mem_filter.mpr ⟨hbatch, decide_eq_true hid⟩
      rw [h.batches] at hmem
      obtain ⟨p, hp, hmem⟩ := List.mem_flatMap.mp hmem
      obtain ⟨context, request, clock, rfl, -⟩ := h.authorized p hp
      refine ⟨_, hp, ?_⟩
      rcases List.mem_pair.mp hmem with rfl | rfl
      · rfl
      · rfl
    obtain ⟨p, hp, hbatchId⟩ := hids batch hbatch hid
    obtain ⟨q, hq, hotherId⟩ := hids other hother hid'
    rw [hbatchId, hotherId, h.eq_of_mem hp hq]
  · rw [h.outbox, List.length_map]
    exact h.length_le
  · rw [h.events, List.length_map]
    exact h.length_le

theorem Decision.bound {authority : ReleaseAuthority} (hconsistent : AllConsistent ids s)
    (h : Decision s id authority) {v : VerificationRecord} (hv : s.rows.verifications id = some v) :
    s.rows.candidates (v.request.candidateId, v.request.candidateVersion) = some authority.candidate ∧
      v.request.candidateSha256 = authority.candidate.candidateSha256 ∧
      authority.report.candidateSha256 = authority.candidate.candidateSha256 := by
  obtain ⟨w, f, hw, hsingle, -⟩ := h.verification
  obtain rfl : w = v := Option.some.inj (hw.symm.trans hv)
  have hw' := hconsistent.consistent id w hw
  obtain ⟨candidate, hcandidate, hsha⟩ := hw'.candidate
  obtain ⟨-, report, hreports, hreported⟩ := hw'.decided f (hsingle ▸ List.mem_singleton_self f)
  rw [s.rows.verification_key id w hw, h.reports] at hreports
  obtain rfl : authority.report = report := List.singleton_inj.mp hreports
  obtain ⟨claim, reportSha256, hclaim, hreport⟩ := hreported.eq_verificationReport
  have hkey := h.candidate
  have hreportSha := congrArg VerificationReport.candidateSha256 hreport
  rw [hreport] at hkey
  have hsame : candidate = authority.candidate := by
    apply Option.some.inj
    rw [← hcandidate, ← hkey]
    exact congrArg s.rows.candidates
      (Prod.ext hclaim.candidateId_eq.symm hclaim.candidateVersion_eq.symm)
  subst hsame
  exact ⟨hcandidate, hsha.symm, hreportSha.trans (hclaim.candidateSha256_eq.trans hsha.symm)⟩

theorem Safe.publishedVerified (h : Safe ids catalogue g)
    (hreleased : g.system.currentState id = some .RELEASED) :
    ∃ v report aggregation candidate authorization batch event,
      g.system.rows.verifications id = some v ∧
      PublishedVerified catalogue g.system v report aggregation candidate authorization batch event := by
  obtain ⟨publications, hledger⟩ := h.ledger id
  obtain ⟨p, hp⟩ := List.exists_mem_of_ne_nil _ (hledger.released.mp hreleased)
  obtain ⟨context, request, clock, rfl, hissued, hid, hcandidate⟩ := hledger.authorized p hp
  obtain ⟨authority, hdecision, hvalidated⟩ := h.authorized _ hissued
  rw [hid] at hdecision
  obtain ⟨hreport, v, hv, haggregation⟩ := hdecision.releaseAuthority
  obtain ⟨hcandidateRow, hrequestSha, hreportSha⟩ := hdecision.bound h.consistent hv
  obtain ⟨-, -, hcandidateId, hversion, hsha, -⟩ := hvalidated.persisted.authorization_bound
  have hsame : request.candidate = authority.candidate := by
    have hkey := g.system.rows.candidate_key _ _ hcandidateRow
    apply Option.some.inj
    rw [← hcandidate, ← hcandidateRow, hcandidateId, hversion, hkey]
  have hbatch : (publication ids catalogue context request clock).committed ∈ g.system.batches := by
    have hmem := List.mem_map_of_mem (f := Publication.committed) hp
    rw [← hledger.committed] at hmem
    exact (List.mem_filter.mp hmem).1
  have hevent : (publication ids catalogue context request clock).event ∈ g.system.events := by
    have hmem := List.mem_map_of_mem (f := Publication.event) hp
    rw [← hledger.events] at hmem
    exact (List.mem_filter.mp hmem).1
  have hkey := g.system.rows.verification_key id v hv
  refine ⟨v, authority.report, authority.aggregation, authority.candidate, request.authorization, _, _, hv,
    ?_, haggregation, hvalidated.report_decision.trans hvalidated.aggregation_decision.symm, ?_,
    hissued, hid.trans hkey.symm, hcandidateRow, hrequestSha, hvalidated.persisted.aggregation_sha256,
    hreportSha, hsha, hbatch, hid.trans hkey.symm, rfl, rfl, hevent, rfl, rfl, ?_, hvalidated.allowed_subset,
    ?_⟩
  · rw [hkey]
    exact hreport
  · have hcodes := hvalidated.disclosureCodes_eq
    have hdecided := hvalidated.aggregation_decision
    cases hmode : request.authorization.releaseMode with
    | FULL =>
      rw [hmode] at hdecided
      exact .inl hdecided
    | FULL_WITH_DISCLOSURE =>
      rw [hmode] at hdecided hcodes
      exact .inr ⟨hdecided, hcodes⟩
  · exact congrArg Candidate.candidateSha256 hsame
  · intro block
    rw [← hsame]
    show block ∈ (catalogue.blocks request.candidate.candidateSha256).filter _ ↔ _
    rw [List.mem_filter, decide_eq_true_iff]

/-- **Only what is verified is published.** In every state that the transactions of the control plane, of
the revisions and of the release gate reach in any order, a verification is published once at most, and if
it is released, its publication is what its report and its aggregation allow. -/
theorem published_verified (ids : ReleaseIds) (catalogue : Catalogue) (c1 : BoundControlPlane)
    (childVerificationId : ℕ → ℕ → String → ℕ) {initial : System} {actions : List Action} {final : Gate}
    (hinitial : Vacant initial)
    (hrun : run (step ids catalogue c1.toControlPlane childVerificationId) ⟨initial, []⟩ actions
      = some final) (id : ℕ) :
    PublishedOnce final.system id ∧
      (final.system.currentState id = some .RELEASED →
        ∃ v report aggregation candidate authorization batch event,
          final.system.rows.verifications id = some v ∧
          PublishedVerified catalogue final.system v report aggregation candidate authorization batch
            event) := by
  have hsafe : Safe ids catalogue final :=
    run_invariant (fun _ _ _ h hstep => step_safe h hstep) hinitial.safe hrun
  obtain ⟨publications, hledger⟩ := hsafe.ledger id
  exact ⟨hledger.publishedOnce, hsafe.publishedVerified⟩

end runs

/-! ### Later states -/

/-- Nothing that was issued or published is changed or taken back. -/
structure Extends (s s' : System) : Prop where
  authorizations : s.authorizations <+: s'.authorizations
  batches : s.batches <+: s'.batches
  outbox : s.outbox <+: s'.outbox
  events : s.events <+: s'.events

section later
variable {ids : ReleaseIds} {catalogue : Catalogue} {c1 : BoundControlPlane}
  {childVerificationId : ℕ → ℕ → String → ℕ} {s s' s'' : System} {g g' : Gate}

theorem Extends.refl (s : System) : Extends s s :=
  ⟨List.prefix_rfl, List.prefix_rfl, List.prefix_rfl, List.prefix_rfl⟩

theorem Extends.trans (h : Extends s s') (h' : Extends s' s'') : Extends s s'' :=
  ⟨h.authorizations.trans h'.authorizations, h.batches.trans h'.batches, h.outbox.trans h'.outbox,
    h.events.trans h'.events⟩

theorem Controlled.extends (h : Controlled ids s s') : Extends s s' :=
  ⟨h.authorizations ▸ List.prefix_rfl, h.batches ▸ List.prefix_rfl, h.outbox ▸ List.prefix_rfl,
    h.events ▸ List.prefix_rfl⟩

theorem resume_extends {call : Call} {now : ℕ} {clock : PublishClock} {next : Option Call}
    (hresume : resume ids catalogue s now clock call = .ok (s', next)) : Extends s s' := by
  cases call with
  | requesting | committing =>
    obtain ⟨_, -, hresume⟩ := bind_eq_ok.mp hresume
    obtain ⟨_, -, hresume⟩ := bind_eq_ok.mp hresume
    cases hresume
    exact .refl s
  | derived | authorized =>
    obtain ⟨-, hresume⟩ := unit_bind_eq_ok.mp hresume
    cases hresume
    exact .refl s
  | issuing =>
    obtain ⟨issued, hissue, hresume⟩ := bind_eq_ok.mp hresume
    cases hresume
    rcases issueAuthorization_ok hissue with rfl | rfl
    · exact .refl _
    · exact ⟨List.prefix_append .., List.prefix_rfl, List.prefix_rfl, List.prefix_rfl⟩
  | publishing =>
    obtain ⟨⟨published, result⟩, hpublish, hresume⟩ := bind_eq_ok.mp hresume
    cases hresume
    obtain ⟨-, rfl | ⟨-, -, v, v', -, -, -, -, -, -, rfl⟩⟩ := publish_ok hpublish
    · exact .refl _
    · exact ⟨List.prefix_rfl, List.prefix_append .., List.prefix_append .., List.prefix_append ..⟩

theorem step_extends {action : Action}
    (hstep : step ids catalogue c1.toControlPlane childVerificationId g action = some g') :
    Extends g.system g'.system := by
  cases action with
  | lifecycle =>
    obtain ⟨after, hafter, hstep⟩ := Option.bind_eq_some_iff.mp hstep
    cases hstep
    exact (controlled_lifecycle hafter).extends
  | revision =>
    obtain ⟨after, hafter, hstep⟩ := Option.bind_eq_some_iff.mp hstep
    cases hstep
    have hcontrolled : Controlled ids g.system _ := controlled_revision (eq_ok_of_toOption hafter)
    exact hcontrolled.extends
  | enter =>
    obtain ⟨call, -, hstep⟩ := Option.bind_eq_some_iff.mp hstep
    cases hstep
    exact .refl _
  | resume =>
    obtain ⟨call, -, hstep⟩ := Option.bind_eq_some_iff.mp hstep
    obtain ⟨⟨after, next⟩, hafter, hstep⟩ := Option.bind_eq_some_iff.mp hstep
    cases hstep
    exact resume_extends (eq_ok_of_toOption hafter)

/-- **A release is final.** Whatever runs later, what was issued and published stays as it is, and a released
verification stays released. -/
theorem release_final {initial : System} {actions : List Action} (later : List Action) (hinitial : Vacant initial)
    (hrun : run (step ids catalogue c1.toControlPlane childVerificationId) ⟨initial, []⟩ actions = some g)
    (hlater : run (step ids catalogue c1.toControlPlane childVerificationId) g later = some g') :
    Extends g.system g'.system ∧
      ∀ id, g.system.currentState id = some .RELEASED → g'.system.currentState id = some .RELEASED := by
  have hsafe : Safe ids catalogue g := run_invariant (fun _ _ _ h hstep => step_safe h hstep) hinitial.safe hrun
  have hsafe' : Safe ids catalogue g' := run_invariant (fun _ _ _ h hstep => step_safe h hstep) hsafe hlater
  have hextends : Extends g.system g'.system := run_invariant (I := fun t => Extends g.system t.system)
    (fun _ _ _ h hstep => h.trans (step_extends hstep)) (.refl _) hlater
  refine ⟨hextends, fun id hreleased => ?_⟩
  obtain ⟨publications, hledger⟩ := hsafe.ledger id
  obtain ⟨publications', hledger'⟩ := hsafe'.ledger id
  have hlength := (hextends.outbox.filter (·.correlationId = id)).length_le
  rw [hledger.outbox, hledger'.outbox, List.length_map, List.length_map] at hlength
  have hpositive := List.length_pos_iff.mpr (hledger.released.mp hreleased)
  exact hledger'.released.mpr (List.length_pos_iff.mp (hpositive.trans_le hlength))

end later

/-! ### A lecture -/

theorem vacant_oneLecture : Vacant oneLecture where
  verifications _ := rfl
  reports := rfl
  authorizations := rfl
  batches := rfl
  outbox := rfl
  events := rfl

def lectureDerivation : ReleaseDerivationCommand where
  tenantId := "tenant"
  traceId := "trace"
  verificationId := 1
  requestedReleaseMode := .FULL
  requestedBlockIds := []
  ttlSeconds := 60
  idempotencyKeySha256 := "key"
  recordIntegrityValid := true

def lectureCommit : PublicationCommitCommand where
  tenantId := "tenant"
  traceId := "trace"
  commitCommandId := "command"
  authorizationId := 3
  idempotencyKeySha256 := "key"
  recordIntegrityValid := true

/-- The verification of the lecture, the derivation of an authorization and its commit. -/
def releaseLecture : List Action :=
  verifyLecture.map .lifecycle ++
    [.enter (.derive reviewer lectureDerivation "key"), .resume 0 0 ⟨0, 0, 0, 0⟩, .resume 1 0 ⟨0, 0, 0, 0⟩,
      .resume 2 0 ⟨0, 0, 0, 0⟩, .enter (.commit reviewer lectureCommit "key"), .resume 3 0 ⟨0, 0, 0, 0⟩,
      .resume 4 0 ⟨0, 0, 0, 0⟩, .resume 5 0 ⟨0, 0, 0, 0⟩]

/-- The supported lecture is released and published. -/
theorem published_verified_lecture : ∃ final,
    run (step sampleIds sampleCatalogue (claimAt .HIGH).toControlPlane fun _ _ _ => 2) ⟨oneLecture, []⟩
      releaseLecture = some final ∧
    final.system.currentState 1 = some .RELEASED ∧ PublishedOnce final.system 1 ∧
    ∃ v report aggregation candidate authorization batch event,
      final.system.rows.verifications 1 = some v ∧
      PublishedVerified sampleCatalogue final.system v report aggregation candidate authorization batch
        event := by
  have hrun : (run (step sampleIds sampleCatalogue (claimAt .HIGH).toControlPlane fun _ _ _ => 2)
      ⟨oneLecture, []⟩ releaseLecture).map (·.system.currentState 1) = some (some .RELEASED) := by
    decide +kernel
  obtain ⟨final, hfinal, hreleased⟩ := Option.map_eq_some_iff.mp hrun
  obtain ⟨honce, hverified⟩ := published_verified sampleIds sampleCatalogue (claimAt .HIGH) _
    vacant_oneLecture hfinal 1
  exact ⟨final, hfinal, hreleased, honce, hverified hreleased⟩

def lectureStep : Gate → Action → Option Gate :=
  step sampleIds sampleCatalogue (claimAt .HIGH).toControlPlane fun _ _ _ => 2

/-- The last step of the commit publishes, and a second commit leaves the lecture released. -/
theorem release_final_lecture : ∃ issued published repeated,
    run lectureStep ⟨oneLecture, []⟩ releaseLecture.dropLast = some issued ∧
    run lectureStep issued [.resume 5 0 ⟨0, 0, 0, 0⟩] = some published ∧
    run lectureStep published [.enter (.commit reviewer lectureCommit "key"), .resume 6 0 ⟨0, 0, 0, 0⟩]
      = some repeated ∧
    issued.system.authorizations ≠ [] ∧ issued.system.outbox = [] ∧ published.system.outbox ≠ [] ∧
    Extends issued.system published.system ∧ repeated.system.currentState 1 = some .RELEASED := by
  have hrun : ((run lectureStep ⟨oneLecture, []⟩ releaseLecture.dropLast).bind fun issued =>
      (run lectureStep issued [.resume 5 0 ⟨0, 0, 0, 0⟩]).bind fun published =>
      (run lectureStep published [.enter (.commit reviewer lectureCommit "key"), .resume 6 0 ⟨0, 0, 0, 0⟩]).map
        fun _ => (issued.system.authorizations.length, issued.system.outbox.length,
          published.system.outbox.length, published.system.currentState 1)) =
      some (1, 0, 1, some .RELEASED) := by
    decide +kernel
  obtain ⟨issued, hissued, hrun⟩ := Option.bind_eq_some_iff.mp hrun
  obtain ⟨published, hpublished, hrun⟩ := Option.bind_eq_some_iff.mp hrun
  obtain ⟨repeated, hrepeated, hvalues⟩ := Option.map_eq_some_iff.mp hrun
  simp only [Prod.mk.injEq] at hvalues
  obtain ⟨hauthorizations, hnone, hone, hreleased⟩ := hvalues
  refine ⟨issued, published, repeated, hissued, hpublished, hrepeated, ?_, List.length_eq_zero_iff.mp hnone, ?_,
    (release_final _ vacant_oneLecture hissued hpublished).1,
    (release_final _ vacant_oneLecture (run_append_eq_some.mpr ⟨issued, hissued, hpublished⟩) hrepeated).2 1
      hreleased⟩
  · exact List.ne_nil_of_length_eq_add_one hauthorizations
  · exact List.ne_nil_of_length_eq_add_one hone

end CyberControl.Release
