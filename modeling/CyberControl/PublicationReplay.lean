import CyberControl.ReleaseSafety

/-! # Publications that are repeated

Both repositories answer a repeated publication with the stored result, whatever their clock says; the
policy in front of them compares the expiry of the authorization with the clock at every request. -/

namespace CyberControl.Release

open Topic3 Transition Verification

/-! ### Repositories -/

/-- `AtomicReleaseRepository`.  `consumedAt` is the time that is recorded for the consumption of an
authorization, and `reading` is the clock reading that a first consumption records. -/
structure Repository where
  State : Type
  Initial : State → Prop
  issueAuthorization : State → TenantContext → Authorization → Except ReleaseError State
  consumeAndPublish : State → TenantContext → PublicationRequest → PublishClock →
    Except ReleaseError (State × PublicationResult)
  consumedAt : State → ℕ → Option ℕ
  reading : PublishClock → ℕ

/-- The state of `InMemoryAtomicReleaseRepository`. -/
structure MemoryRows where
  authorizations : ℕ → Option Authorization
  consumed : ℕ → Option (String × PublicationResult)

/-- `issue_authorization` in memory. -/
def MemoryRows.issueAuthorization (s : MemoryRows) (authorization : Authorization) :
    Except ReleaseError MemoryRows :=
  match s.authorizations authorization.authorizationId with
  | some existing => do
    require (existing = authorization)
      (.authorizationConflict "C12 authorization identity conflict")
    return s
  | none => return { s with
      authorizations := Function.update s.authorizations authorization.authorizationId authorization }

section repositories
variable (ids : ReleaseIds) (catalogue : Catalogue)

/-- `consume_and_publish` in memory; it reads the clock once. -/
def MemoryRows.consumeAndPublish (s : MemoryRows) (context : TenantContext) (request : PublicationRequest)
    (now : ℕ) : Except ReleaseError (MemoryRows × PublicationResult) :=
  let authorization := request.authorization
  match s.authorizations authorization.authorizationId with
  | none => .error (.authorizationConflict "C12 authorization has not been issued")
  | some stored => do
    require (stored = authorization)
      (.authorizationConflict "C12 authorization payload does not match the issued record")
    match s.consumed authorization.authorizationId with
    | some (requestSha256, result) => do
      require (requestSha256 = request.requestSha256)
        (.authorizationReplay "C12 authorization replay request differs")
      return (s, result)
    | none => do
      require (now < authorization.expiresAt)
        (.authorizationExpired "C12 authorization expired before consumption")
      let result := (publication ids catalogue context request ⟨now, now, now, now⟩).result
      return ({ s with
        consumed := Function.update s.consumed authorization.authorizationId
          (request.requestSha256, result) }, result)

def memoryRepository : Repository where
  State := MemoryRows
  Initial s := s = ⟨fun _ => none, fun _ => none⟩
  issueAuthorization s _ authorization := s.issueAuthorization authorization
  consumeAndPublish s context request clock :=
    s.consumeAndPublish ids catalogue context request clock.checkedAt
  consumedAt s authorizationId := (s.consumed authorizationId).bind (·.2.batch.committedAt)
  reading clock := clock.checkedAt

/-- The tables of the gate are empty, and the verifications are at any stage. -/
def postgresRepository : Repository where
  State := System
  Initial s := s.authorizations = [] ∧ s.consumptions = [] ∧ s.batches = [] ∧ s.events = []
  issueAuthorization := storeAuthorization
  consumeAndPublish := consumeAndPublish ids catalogue
  consumedAt s authorizationId := (s.consumption authorizationId).map (·.consumedAt)
  reading clock := clock.consumedAt

/-! ### The service -/

/-- `issue_authorization` of the service, over a repository. -/
def Repository.issue (r : Repository) (s : r.State) (context : TenantContext)
    (authorization : Authorization) (now : ℕ) : Except ReleaseError r.State := do
  validateAuthorization authorization context now
  r.issueAuthorization s context authorization

/-- `publish` of the service, over a repository. -/
def Repository.publish (r : Repository) (s : r.State) (context : TenantContext)
    (request : PublicationRequest) (now : ℕ) (clock : PublishClock) :
    Except ReleaseError (r.State × PublicationResult) := do
  validateRequest catalogue ids.canonicalSha256 request context now
  r.consumeAndPublish s context request clock

inductive ServiceCall where
  | issue (context : TenantContext) (authorization : Authorization) (now : ℕ)
  | publish (context : TenantContext) (request : PublicationRequest) (now : ℕ) (clock : PublishClock)

/-- A call that raises writes nothing and is no step. -/
def Repository.step (r : Repository) (s : r.State) : ServiceCall → Option r.State
  | .issue context authorization now => (r.issue s context authorization now).toOption
  | .publish context request now clock =>
    (r.publish ids catalogue s context request now clock).toOption.map Prod.fst

/-! ### One-time repositories -/

/-- The request passes the policy at some time: only its expiry may refuse it. -/
def WellFormed (context : TenantContext) (request : PublicationRequest) : Prop :=
  ∃ now, validateRequest catalogue ids.canonicalSha256 request context now = .ok ()

/-- What a repository guarantees about the result of a consumption: `Committed` holds from then on, and
whoever asks for it again gets the same, at any time. -/
structure OneTime (r : Repository) (Valid : r.State → Prop)
    (Committed : r.State → Authorization → String → PublicationResult → Prop) : Prop where
  initial : ∀ {s}, r.Initial s → Valid s
  issued : ∀ {s s' context a}, Valid s → r.issueAuthorization s context a = .ok s' →
    Valid s' ∧ ∀ {b sha result}, Committed s b sha result → Committed s' b sha result
  consumed : ∀ {s s' context request clock result}, Valid s →
    r.consumeAndPublish s context request clock = .ok (s', result) →
    Valid s' ∧ Committed s' request.authorization request.requestSha256 result ∧
      ∀ {b sha result}, Committed s b sha result → Committed s' b sha result
  replayed : ∀ {s context request clock result}, WellFormed ids catalogue context request →
    Committed s request.authorization request.requestSha256 result →
    r.consumeAndPublish s context request clock = .ok (s, result)
  refused : ∀ {s context request clock sha result}, WellFormed ids catalogue context request →
    Committed s request.authorization sha result → request.requestSha256 ≠ sha →
    ∃ e, r.consumeAndPublish s context request clock = .error e
  first : ∀ {s s' context request clock result}, Valid s →
    r.consumedAt s request.authorization.authorizationId = none →
    r.consumeAndPublish s context request clock = .ok (s', result) →
    clock.checkedAt < request.authorization.expiresAt ∧
      r.consumedAt s' request.authorization.authorizationId = some (r.reading clock)

end repositories

variable {result : PublicationResult} {request : PublicationRequest} {context : TenantContext}
  {sha : String} {a : Authorization} {now : ℕ}

section memory
variable {ids : ReleaseIds} {catalogue : Catalogue}

/-- The stored result of an authorization. -/
def MemoryRows.Committed (s : MemoryRows) (authorization : Authorization) (requestSha256 : String)
    (result : PublicationResult) : Prop :=
  s.authorizations authorization.authorizationId = some authorization ∧
    s.consumed authorization.authorizationId = some (requestSha256, result)

variable {s s' : MemoryRows}

theorem MemoryRows.issueAuthorization_ok {authorization : Authorization}
    (h : s.issueAuthorization authorization = .ok s') :
    s' = s ∨ s.authorizations authorization.authorizationId = none ∧ s' = { s with
      authorizations := Function.update s.authorizations authorization.authorizationId authorization } := by
  unfold MemoryRows.issueAuthorization at h
  split at h
  · obtain ⟨-, h⟩ := unit_bind_eq_ok.mp h
    cases h
    exact .inl rfl
  · rename_i hnone
    cases h
    exact .inr ⟨hnone, rfl⟩

theorem MemoryRows.consumeAndPublish_ok
    (h : s.consumeAndPublish ids catalogue context request now = .ok (s', result)) :
    s.authorizations request.authorization.authorizationId = some request.authorization ∧
      (s' = s ∧ s.consumed request.authorization.authorizationId = some (request.requestSha256, result) ∨
        s.consumed request.authorization.authorizationId = none ∧
          now < request.authorization.expiresAt ∧
          result = (publication ids catalogue context request ⟨now, now, now, now⟩).result ∧
          s' = { s with
            consumed := Function.update s.consumed request.authorization.authorizationId
              (request.requestSha256, result) }) := by
  unfold MemoryRows.consumeAndPublish at h
  cases hstored : s.authorizations request.authorization.authorizationId with
  | none =>
    simp only [hstored] at h
    cases h
  | some stored =>
    simp only [hstored] at h
    obtain ⟨hsame, h⟩ := unit_bind_eq_ok.mp h
    refine ⟨congrArg some (require_eq_ok.mp hsame), ?_⟩
    cases hconsumed : s.consumed request.authorization.authorizationId with
    | some kept =>
      simp only [hconsumed] at h
      obtain ⟨hsha, h⟩ := unit_bind_eq_ok.mp h
      cases h
      exact .inl ⟨rfl, congrArg some (Prod.ext (require_eq_ok.mp hsha) rfl)⟩
    | none =>
      simp only [hconsumed] at h
      obtain ⟨hexpiry, h⟩ := unit_bind_eq_ok.mp h
      cases h
      exact .inr ⟨rfl, require_eq_ok.mp hexpiry, rfl, rfl⟩

theorem MemoryRows.Committed.consume {s : MemoryRows}
    (h : s.Committed request.authorization sha result) :
    s.consumeAndPublish ids catalogue context request now =
      if sha = request.requestSha256 then .ok (s, result)
      else .error (.authorizationReplay "C12 authorization replay request differs") := by
  obtain ⟨hstored, hconsumed⟩ := h
  unfold MemoryRows.consumeAndPublish
  simp only [hstored, hconsumed, require, if_true]
  by_cases hsha : sha = request.requestSha256
  · simp only [if_pos hsha]
    rfl
  · simp only [if_neg hsha]
    rfl

theorem MemoryRows.Committed.kept (h : s.Committed a sha result)
    (hauthorizations : ∀ id b, s.authorizations id = some b → s'.authorizations id = some b)
    (hconsumed : ∀ id kept, s.consumed id = some kept → s'.consumed id = some kept) :
    s'.Committed a sha result :=
  ⟨hauthorizations _ _ h.1, hconsumed _ _ h.2⟩

theorem update_of_none {α β : Type*} [DecidableEq α] {f : α → Option β} {a key : α} {value kept : β}
    (hnone : f a = none) (h : f key = some kept) : Function.update f a (some value) key = some kept := by
  rw [Function.update_of_ne, h]
  rintro rfl
  cases hnone.symm.trans h

/-- A stored result is that of a committed batch. -/
def MemoryRows.Valid (s : MemoryRows) : Prop :=
  ∀ id sha result, s.consumed id = some (sha, result) → result.batch.committedAt.isSome

theorem MemoryRows.Valid.consume (h : s.Valid)
    (hconsume : s.consumeAndPublish ids catalogue context request now = .ok (s', result)) : s'.Valid := by
  obtain ⟨-, ⟨rfl, -⟩ | ⟨-, -, hresult, rfl⟩⟩ := MemoryRows.consumeAndPublish_ok hconsume
  · exact h
  · intro id sha kept hkept
    by_cases hid : id = request.authorization.authorizationId
    · subst hid
      have hself := (Function.update_self _ _ s.consumed).symm.trans hkept
      rw [← (Prod.mk.inj (Option.some.inj hself)).2, hresult]
      rfl
    · exact h id sha kept ((Function.update_of_ne hid _ _).symm.trans hkept)

theorem oneTime_memory : OneTime ids catalogue (memoryRepository ids catalogue) MemoryRows.Valid
    MemoryRows.Committed where
  initial h := by
    rintro id sha result hconsumed
    rw [h] at hconsumed
    cases hconsumed
  issued hvalid h := by
    rcases MemoryRows.issueAuthorization_ok h with rfl | ⟨hnone, rfl⟩
    · exact ⟨hvalid, fun hcommitted => hcommitted⟩
    · refine ⟨hvalid, fun hcommitted => ?_⟩
      exact hcommitted.kept (fun _ _ => update_of_none hnone) (fun _ _ hkept => hkept)
  consumed hvalid h := by
    refine ⟨hvalid.consume h, ?_⟩
    obtain ⟨hstored, ⟨rfl, hconsumed⟩ | ⟨hnone, -, -, rfl⟩⟩ := MemoryRows.consumeAndPublish_ok h
    · exact ⟨⟨hstored, hconsumed⟩, fun hcommitted => hcommitted⟩
    · refine ⟨⟨hstored, Function.update_self _ _ _⟩, fun hcommitted => ?_⟩
      exact hcommitted.kept (fun _ _ hkept => hkept) (fun _ _ => update_of_none hnone)
  replayed _ hcommitted := hcommitted.consume.trans (if_pos rfl)
  refused _ hcommitted hsha := ⟨_, hcommitted.consume.trans (if_neg (Ne.symm hsha))⟩
  first {s s' context request clock result} hvalid hnone h := by
    obtain ⟨-, ⟨rfl, hconsumed⟩ | ⟨-, hexpiry, rfl, rfl⟩⟩ := MemoryRows.consumeAndPublish_ok h
    · have hcommitted := hvalid _ _ _ hconsumed
      have htime : result.batch.committedAt = none := by
        rw [← hnone]
        show _ = (s'.consumed _).bind _
        rw [hconsumed]
        rfl
      rw [htime] at hcommitted
      cases hcommitted
    · refine ⟨hexpiry, ?_⟩
      show ((Function.update s.consumed _ _) _).bind _ = _
      rw [Function.update_self]
      rfl

end memory

/-! ### The tables -/

section postgres
variable {ids : ReleaseIds} {catalogue : Catalogue} {s s' : System} {context : TenantContext}
  {request : PublicationRequest} {clock : PublishClock} {result : PublicationResult}

def EventsBatched (s : System) : Prop :=
  ∀ event ∈ s.events, event.publicationBatchId ∈ s.batches.map (·.publicationBatchId)

/-- The consumption of an authorization, with what a replay of it reads. -/
structure Committed (s : System) (authorization : Authorization) (requestSha256 : String)
    (result : PublicationResult) : Prop where
  issued : s.authorization authorization.authorizationId = some authorization
  consumption : ∃ consumed, s.consumption authorization.authorizationId = some consumed ∧
    consumed.requestSha256 = requestSha256 ∧ replay s consumed.publicationBatchId = .ok result
  released : s.currentState authorization.verificationId = some .RELEASED

variable {batchId : ℕ}

theorem exists_batch_of_replay (h : replay s batchId = .ok result) :
    (∃ batch ∈ s.batches, batch.publicationBatchId = batchId) ∧
      ∃ event, s.events.find? (·.publicationBatchId = batchId) = some event := by
  unfold replay at h
  split at h
  · cases h
  · rename_i batch hbatch
    obtain ⟨hmem, hid⟩ := List.mem_filter.mp (List.argmax_mem hbatch)
    obtain ⟨hid, -⟩ := of_decide_eq_true hid
    refine ⟨⟨batch, hmem, hid⟩, ?_⟩
    split at h
    · cases h
    · cases h
    · rename_i event _ hevent
      exact ⟨event, hevent⟩

theorem replay_congr
    (hbatches : s'.batches.filter (fun batch => batch.publicationBatchId = batchId ∧ batch.state = .COMMITTED)
      = s.batches.filter fun batch => batch.publicationBatchId = batchId ∧ batch.state = .COMMITTED)
    (hevents : s'.events.find? (·.publicationBatchId = batchId)
      = s.events.find? (·.publicationBatchId = batchId)) : replay s' batchId = replay s batchId := by
  unfold replay
  rw [hbatches, hevents]

theorem replay_eq_ok {batch : PublicationBatch} {event : PublicStreamEvent}
    {artifact : Artifact PublicDocument}
    (hbatches : s.batches.filter (fun batch => batch.publicationBatchId = batchId ∧ batch.state = .COMMITTED)
      = [batch]) (hartifacts : batch.publicArtifacts = [artifact])
    (hevent : s.events.find? (·.publicationBatchId = batchId) = some event) :
    replay s batchId = .ok ⟨batch, event, artifact⟩ := by
  unfold replay
  rw [hbatches, hevent, List.argmax_singleton]
  simp only [hartifacts]

theorem replay_publication (hvalid : EventsBatched s)
    (hconsumed : Consumed ids catalogue s context request clock s') :
    replay s' (ids.batchId request.authorization.authorizationId request.requestSha256)
      = .ok (publication ids catalogue context request clock).result := by
  obtain ⟨hunused, -, v, v', -, -, -, -, -, -, rfl⟩ := hconsumed
  refine replay_eq_ok ?_ rfl ?_
  · show (s.batches ++ _).filter _ = _
    rw [List.filter_append, List.filter_eq_nil_iff.mpr, List.nil_append]
    · simp [publication, pendingBatch]
    · intro batch hbatch hmatch
      exact hunused batch hbatch (of_decide_eq_true hmatch).1
  · show (s.events ++ _).find? _ = _
    rw [List.find?_append, List.find?_eq_none.mpr, Option.none_or]
    · simp [publication]
    · intro event hevent hmatch
      obtain ⟨batch, hbatch, hid⟩ := List.mem_map.mp (hvalid event hevent)
      exact hunused batch hbatch (hid.trans (of_decide_eq_true hmatch))

theorem EventsBatched.consumed (h : EventsBatched s)
    (hconsumed : Consumed ids catalogue s context request clock s') : EventsBatched s' := by
  obtain ⟨-, -, v, v', -, -, -, -, -, -, rfl⟩ := hconsumed
  intro event hevent
  show event.publicationBatchId ∈ (s.batches ++ _).map _
  rw [List.map_append]
  rcases List.mem_append.mp hevent with hold | hnew
  · exact List.mem_append_left _ (h event hold)
  · rw [List.mem_singleton.mp hnew]
    exact List.mem_append_right _ (List.mem_cons_self ..)

/-- A first consumption keeps what is committed: its batch is new, and it is of another verification. -/
theorem Committed.consumed {kept : PublicationResult}
    (h : Committed s a sha kept) (hconsumed : Consumed ids catalogue s context request clock s') :
    Committed s' a sha kept := by
  obtain ⟨hpending, -, hothers⟩ := currentState_consumed hconsumed
  obtain ⟨hunused, -, v, v', -, -, -, -, -, -, rfl⟩ := hconsumed
  obtain ⟨consumed, hconsumption, hsha, hreplay⟩ := h.consumption
  obtain ⟨⟨batch, hbatch, hbatchId⟩, event, hevent⟩ := exists_batch_of_replay hreplay
  have hfresh : ids.batchId request.authorization.authorizationId request.requestSha256
      ≠ consumed.publicationBatchId := fun heq => hunused batch hbatch (hbatchId.trans heq.symm)
  refine ⟨h.issued, ⟨consumed, ?_, hsha, ?_⟩, ?_⟩
  · unfold System.consumption at hconsumption ⊢
    show (s.consumptions ++ _).find? _ = _
    rw [List.find?_append, hconsumption]
    rfl
  · rw [← hreplay]
    refine replay_congr ?_ ?_
    · show (s.batches ++ _).filter _ = _
      rw [List.filter_append]
      simp [publication, pendingBatch, hfresh]
    · show (s.events ++ _).find? _ = _
      rw [List.find?_append, hevent]
      rfl
  · have hne : a.verificationId ≠ request.authorization.verificationId := by
      intro heq
      have hreleased := h.released
      rw [heq, hpending] at hreleased
      cases hreleased
    rw [hothers _ hne]
    exact h.released

theorem consumption_consumed (hnone : s.consumption request.authorization.authorizationId = none)
    (hconsumed : Consumed ids catalogue s context request clock s') :
    s'.consumption request.authorization.authorizationId
      = some (publication ids catalogue context request clock).consumption := by
  obtain ⟨-, -, v, v', -, -, -, -, -, -, rfl⟩ := hconsumed
  unfold System.consumption at hnone ⊢
  show (s.consumptions ++ _).find? _ = _
  rw [List.find?_append, hnone]
  simp [publication]

theorem wellFormed_intact (h : WellFormed ids catalogue context request) :
    context.tenantId = request.authorization.tenantId ∧
      request.authorization.recordIntegrityValid = true ∧ request.report.recordIntegrityValid = true := by
  obtain ⟨now, h⟩ := h
  rw [validateRequest_ok, validateAuthorization_ok] at h
  obtain ⟨⟨htenant, hintact, -⟩, hreport, -⟩ := h
  exact ⟨htenant, hintact, hreport⟩

theorem Committed.store {a b : Authorization} {kept : PublicationResult}
    (h : Committed s a sha kept) :
    Committed { s with authorizations := s.authorizations ++ [b] } a sha kept := by
  refine ⟨?_, h.consumption, h.released⟩
  have hissued := h.issued
  unfold System.authorization at hissued ⊢
  rw [List.find?_append, hissued]
  rfl

/-- What is committed is replayed to every request of its authorization that passes the policy, if it has
the digest of the first one. -/
theorem Committed.consume (h : Committed s request.authorization sha result)
    (htenant : context.tenantId = request.authorization.tenantId)
    (hintact : request.authorization.recordIntegrityValid = true)
    (hreport : request.report.recordIntegrityValid = true) :
    consumeAndPublish ids catalogue s context request clock =
      if sha = request.requestSha256 then .ok (s, result)
      else .error (.authorizationReplay "C12 authorization replay request differs") := by
  obtain ⟨consumed, hconsumption, hsha, hreplay⟩ := h.consumption
  unfold consumeAndPublish
  simp only [h.issued, hconsumption, h.released, hreplay, hsha, assertTenant, require, htenant, hintact,
    hreport, if_true]
  by_cases hsame : sha = request.requestSha256
  · simp only [if_pos hsame]
    rfl
  · simp only [if_neg hsame]
    rfl

theorem oneTime_postgres : OneTime ids catalogue (postgresRepository ids catalogue) EventsBatched
    Committed where
  initial h := by
    intro event hevent
    rw [h.2.2.2] at hevent
    cases hevent
  issued hvalid h := by
    rcases storeAuthorization_ok h with rfl | rfl
    · exact ⟨hvalid, fun hcommitted => hcommitted⟩
    · exact ⟨hvalid, fun hcommitted => hcommitted.store⟩
  consumed {s s' context request clock result} hvalid h := by
    obtain ⟨hissued, ⟨rfl, consumed, hconsumption, hsha, hreleased, hreplay⟩ | ⟨hnone, -, rfl, hconsumed⟩⟩ :=
      consumeAndPublish_ok h
    · exact ⟨hvalid, ⟨hissued, ⟨consumed, hconsumption, hsha, hreplay⟩, hreleased⟩, fun hkept => hkept⟩
    · have hconsumption := consumption_consumed hnone hconsumed
      have hreleased := (currentState_consumed hconsumed).2.1
      have hreplay := replay_publication hvalid hconsumed
      refine ⟨hvalid.consumed hconsumed, ⟨?_, ⟨_, hconsumption, rfl, hreplay⟩, hreleased⟩,
        fun hkept => hkept.consumed hconsumed⟩
      obtain ⟨-, -, v, v', -, -, -, -, -, -, rfl⟩ := hconsumed
      exact hissued
  replayed hwell hcommitted := by
    obtain ⟨htenant, hintact, hreport⟩ := wellFormed_intact hwell
    exact (hcommitted.consume htenant hintact hreport).trans (if_pos rfl)
  refused hwell hcommitted hsha := by
    obtain ⟨htenant, hintact, hreport⟩ := wellFormed_intact hwell
    exact ⟨_, (hcommitted.consume htenant hintact hreport).trans (if_neg (Ne.symm hsha))⟩
  first {s s' context request clock result} hvalid hnone h := by
    obtain ⟨-, ⟨rfl, consumed, hconsumption, -⟩ | ⟨hfirst, hexpiry, -, hconsumed⟩⟩ := consumeAndPublish_ok h
    · have hmap : (s'.consumption request.authorization.authorizationId).map (·.consumedAt) = none := hnone
      rw [hconsumption] at hmap
      cases hmap
    · refine ⟨hexpiry, ?_⟩
      show (s'.consumption _).map _ = _
      rw [consumption_consumed hfirst hconsumed]
      rfl

end postgres

/-! ### Repeated publications -/

section runs
variable {ids : ReleaseIds} {catalogue : Catalogue} {r : Repository} {Valid : r.State → Prop}
  {Committed : r.State → Authorization → String → PublicationResult → Prop}

theorem validateRequest_iff :
    validateRequest catalogue ids.canonicalSha256 request context now = .ok () ↔
      WellFormed ids catalogue context request ∧ now < request.authorization.expiresAt := by
  constructor
  · intro h
    refine ⟨⟨now, h⟩, ?_⟩
    rw [validateRequest_ok, validateAuthorization_ok] at h
    obtain ⟨⟨-, -, -, -, hnow, -⟩, -⟩ := h
    exact hnow
  · rintro ⟨⟨time, h⟩, hnow⟩
    rw [validateRequest_ok, validateAuthorization_ok] at h ⊢
    obtain ⟨⟨htenant, hintact, hwindow, httl, -, hpolicy⟩, hrest⟩ := h
    exact ⟨⟨htenant, hintact, hwindow, httl, hnow, hpolicy⟩, hrest⟩

section steps
variable (hone : OneTime ids catalogue r Valid Committed) {s s' : r.State}
include hone

theorem OneTime.step_valid {call : ServiceCall} (hvalid : Valid s)
    (hstep : r.step ids catalogue s call = some s') :
    Valid s' ∧ ∀ {a sha result}, Committed s a sha result → Committed s' a sha result := by
  cases call with
  | issue context authorization now =>
    obtain ⟨-, hissue⟩ := unit_bind_eq_ok.mp (eq_ok_of_toOption hstep)
    exact hone.issued hvalid hissue
  | publish context request now clock =>
    obtain ⟨⟨after, result⟩, hpublish, rfl⟩ := Option.map_eq_some_iff.mp hstep
    obtain ⟨-, hconsume⟩ := unit_bind_eq_ok.mp (eq_ok_of_toOption hpublish)
    obtain ⟨hvalid', -, hkept⟩ := hone.consumed hvalid hconsume
    exact ⟨hvalid', hkept⟩

theorem OneTime.run_valid {calls : List ServiceCall} (hvalid : Valid s)
    (hrun : run (r.step ids catalogue) s calls = some s') : Valid s' :=
  run_invariant (fun _ _ _ h hstep => (hone.step_valid h hstep).1) hvalid hrun

theorem OneTime.run_committed {calls : List ServiceCall}
    (hvalid : Valid s) (hcommitted : Committed s a sha result)
    (hrun : run (r.step ids catalogue) s calls = some s') : Committed s' a sha result := by
  have hboth : Valid s' ∧ Committed s' a sha result :=
    run_invariant (I := fun s => Valid s ∧ Committed s a sha result)
      (fun _ _ _ h hstep => ⟨(hone.step_valid h.1 hstep).1, (hone.step_valid h.1 hstep).2 h.2⟩)
      ⟨hvalid, hcommitted⟩ hrun
  exact hboth.2

/-- A request of a committed authorization, with the digest of the first one and with another. -/
theorem OneTime.publish_committed {clock : PublishClock}
    (hcommitted : Committed s request.authorization sha result) :
    (request.requestSha256 = sha →
      (r.publish ids catalogue s context request now clock = .ok (s, result) ↔
        WellFormed ids catalogue context request ∧ now < request.authorization.expiresAt)) ∧
    (request.requestSha256 ≠ sha →
      ∃ e, r.publish ids catalogue s context request now clock = .error e) := by
  unfold Repository.publish
  constructor
  · rintro rfl
    rw [unit_bind_eq_ok, validateRequest_iff]
    exact ⟨fun h => h.1, fun h => ⟨h, hone.replayed h.1 hcommitted⟩⟩
  · intro hsha
    cases hpolicy : validateRequest catalogue ids.canonicalSha256 request context now with
    | error e => exact ⟨e, rfl⟩
    | ok _ =>
      obtain ⟨hwell, -⟩ := validateRequest_iff.mp hpolicy
      obtain ⟨e, hconsume⟩ : ∃ e, r.consumeAndPublish s context request clock = .error e :=
        hone.refused hwell hcommitted hsha
      exact ⟨e, hconsume⟩

end steps

/-- **A publication that is repeated.** Over either repository, after any calls that issue and publish:
once a request is published, a request of the same authorization with the same digest gets the same result
and changes nothing exactly when it passes the policy and the policy reads the clock before the
authorization expires; with another digest it is refused.  A first consumption is checked before the
expiry, and what it records is a clock reading of its own. -/
theorem published_again_iff (ids : ReleaseIds) (catalogue : Catalogue) {r : Repository}
    (hr : r = memoryRepository ids catalogue ∨ r = postgresRepository ids catalogue)
    {initial s committed later : r.State} {before after : List ServiceCall} {context : TenantContext}
    {request : PublicationRequest} {now : ℕ} {clock : PublishClock} {result : PublicationResult}
    (hinitial : r.Initial initial) (hbefore : run (r.step ids catalogue) initial before = some s)
    (hpublish : r.publish ids catalogue s context request now clock = .ok (committed, result))
    (hafter : run (r.step ids catalogue) committed after = some later) :
    (∀ (context' : TenantContext) (again : PublicationRequest) (now' : ℕ) (clock' : PublishClock),
      again.authorization = request.authorization →
      (again.requestSha256 = request.requestSha256 →
        (r.publish ids catalogue later context' again now' clock' = .ok (later, result) ↔
          WellFormed ids catalogue context' again ∧ now' < request.authorization.expiresAt)) ∧
      (again.requestSha256 ≠ request.requestSha256 →
        ∃ e, r.publish ids catalogue later context' again now' clock' = .error e)) ∧
    (r.consumedAt s request.authorization.authorizationId = none →
      clock.checkedAt < request.authorization.expiresAt ∧
        r.consumedAt committed request.authorization.authorizationId = some (r.reading clock)) := by
  obtain ⟨Valid, Committed, hone⟩ : ∃ Valid Committed, OneTime ids catalogue r Valid Committed := by
    rcases hr with rfl | rfl
    · exact ⟨_, _, oneTime_memory⟩
    · exact ⟨_, _, oneTime_postgres⟩
  have hvalid := hone.run_valid (hone.initial hinitial) hbefore
  obtain ⟨-, hconsume⟩ := unit_bind_eq_ok.mp hpublish
  obtain ⟨hvalid', hcommitted, -⟩ := hone.consumed hvalid hconsume
  have hlater := hone.run_committed hvalid' hcommitted hafter
  refine ⟨fun context' again now' clock' hsame => ?_, fun hnone => hone.first hvalid hnone hconsume⟩
  rw [← hsame] at hlater ⊢
  exact hone.publish_committed hlater

end runs

/-! ### A lecture -/

/-- An authorization of the decision of `verifyLecture`, for a minute. -/
def lectureAuthorization : Authorization where
  authorizationId := 7
  tenantId := "tenant"
  traceId := "trace"
  verificationId := 1
  reportId := 1
  candidateId := 1
  candidateVersion := 1
  candidateSha256 := "v1"
  releaseMode := .FULL
  allowedBlockIds := ["block"]
  disclosureCodes := []
  reportSha256 := "report"
  issuedAt := 0
  expiresAt := 60 * oneSecond
  recordIntegrityValid := true

def lectureRequest : PublicationRequest :=
  publicationRequest sampleIds reviewer lectureAuthorization
    { versionCas := 1
      reportId := 1
      verificationId := 1
      candidateId := 1
      candidateVersion := 1
      candidateSha256 := "v1"
      aggregationResultId := 1
      decision := .RELEASE
      artifactSha256 := "report"
      reportSha256 := "report"
      recordIntegrityValid := true }
    { candidateId := 1
      candidateVersion := 1
      candidateSha256 := "v1"
      resourceType := "LECTURE"
      agent := "LECTURER"
      status := .COMPLETE }

/-- The authorization is issued over the tables of `pending`, and the lecture is published. -/
def publishLecture (pending : System) : Option (System × System × PublicationResult) := do
  let issued ← (issueAuthorization pending reviewer lectureAuthorization 0).toOption
  let (committed, result) ←
    (publish sampleIds sampleCatalogue issued reviewer lectureRequest 0 ⟨0, 0, 0, 0⟩).toOption
  return (issued, committed, result)

theorem publishLecture_eq_some {pending issued committed : System}
    (h : publishLecture pending = some (issued, committed, result)) :
    run ((postgresRepository sampleIds sampleCatalogue).step sampleIds sampleCatalogue) pending
        [.issue reviewer lectureAuthorization 0] = some issued ∧
      (postgresRepository sampleIds sampleCatalogue).publish sampleIds sampleCatalogue issued reviewer
        lectureRequest 0 ⟨0, 0, 0, 0⟩ = .ok (committed, result) := by
  obtain ⟨first, hfirst, h⟩ := Option.bind_eq_some_iff.mp h
  obtain ⟨⟨second, answer⟩, hsecond, h⟩ := Option.bind_eq_some_iff.mp h
  cases h
  exact ⟨run_cons_eq_some.mpr ⟨issued, hfirst, rfl⟩, eq_ok_of_toOption hsecond⟩

theorem lecture_published : ∃ pending issued committed result,
    run (stepLifecycle sampleIds (claimAt .HIGH).toControlPlane) oneLecture verifyLecture = some pending ∧
      publishLecture pending = some (issued, committed, result) ∧
      pending.authorizations = [] ∧ pending.consumptions = [] ∧ pending.batches.isEmpty ∧
      pending.events.isEmpty := by
  have hrun : ((run (stepLifecycle sampleIds (claimAt .HIGH).toControlPlane) oneLecture
      verifyLecture).bind fun pending => (publishLecture pending).map fun _ =>
        (pending.authorizations, pending.consumptions, pending.batches.isEmpty, pending.events.isEmpty))
      = some ([], [], true, true) := by
    decide +kernel
  obtain ⟨pending, hpending, h⟩ := Option.bind_eq_some_iff.mp hrun
  obtain ⟨⟨issued, committed, result⟩, hpublished, h⟩ := Option.map_eq_some_iff.mp h
  simp only [Prod.mk.injEq] at h
  exact ⟨pending, issued, committed, result, hpending, hpublished, h⟩

/-- The published lecture is answered again until its authorization expires. -/
theorem published_again_iff_lecture : ∃ pending issued committed result,
    run (stepLifecycle sampleIds (claimAt .HIGH).toControlPlane) oneLecture verifyLecture = some pending ∧
      publishLecture pending = some (issued, committed, result) ∧
      (∀ now clock, publish sampleIds sampleCatalogue committed reviewer lectureRequest now clock
          = .ok (committed, result) ↔
        WellFormed sampleIds sampleCatalogue reviewer lectureRequest ∧ now < 60 * oneSecond) ∧
      WellFormed sampleIds sampleCatalogue reviewer lectureRequest := by
  obtain ⟨pending, issued, committed, result, hpending, hpublished, hauthorizations, hconsumptions,
    hbatches, hevents⟩ := lecture_published
  obtain ⟨hissued, hcommitted⟩ := publishLecture_eq_some hpublished
  have hinitial : (postgresRepository sampleIds sampleCatalogue).Initial pending :=
    ⟨hauthorizations, hconsumptions, List.isEmpty_iff.mp hbatches, List.isEmpty_iff.mp hevents⟩
  refine ⟨pending, issued, committed, result, hpending, hpublished, fun now clock => ?_, 0, by decide⟩
  have hafter : run ((postgresRepository sampleIds sampleCatalogue).step sampleIds sampleCatalogue) committed
      [] = some committed := rfl
  exact ((published_again_iff sampleIds sampleCatalogue (.inr rfl) hinitial hissued hcommitted
    hafter).1 reviewer lectureRequest now clock rfl).1 rfl

/-- **An answer that is lost.** When its authorization has expired, the published lecture is refused. -/
theorem lecture_refused_after_expiry : ∃ pending issued committed result,
    run (stepLifecycle sampleIds (claimAt .HIGH).toControlPlane) oneLecture verifyLecture = some pending ∧
      publishLecture pending = some (issued, committed, result) ∧
      publish sampleIds sampleCatalogue committed reviewer lectureRequest (60 * oneSecond) ⟨0, 0, 0, 0⟩
        = .error (.authorizationExpired "C12 authorization is already expired") := by
  obtain ⟨pending, issued, committed, result, hpending, hpublished, -⟩ := lecture_published
  refine ⟨pending, issued, committed, result, hpending, hpublished, ?_⟩
  have hpolicy : validateRequest sampleCatalogue sampleIds.canonicalSha256 lectureRequest reviewer
      (60 * oneSecond) = .error (.authorizationExpired "C12 authorization is already expired") := by
    decide
  unfold publish
  rw [hpolicy]
  rfl

end CyberControl.Release
