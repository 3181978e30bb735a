import CyberControl.ClaimRetrieval
import Mathlib.Data.Nat.Digits.Lemmas

/-! # Repeated retrievals

Which runs repeat a retrieval, and of which knowledge base its evidence is. -/

namespace CyberControl.Knowledge.Retrieval

open Transition Versions
open Knowledge.Activation (Loaded Moves moves_of_step)

variable {ids : Identifiers} {recoveryKey : ℕ → ℕ → String} {rids : RetrievalIdentifiers}

/-! ### Tables and history -/

/-- The request of a retrieval of the history. -/
def Retrieved.request (e : Retrieved) : Request :=
  .retrieveClaim e.claim.verificationId e.claim.claimId e.knowledgeBaseVersionId e.claim.claimSha256

/-- The request is one of `retrieve_claim`. -/
def IsRetrieval : Request → Prop
  | .retrieveClaim _ _ _ _ => True
  | _ => False

/-- The history and the tables tell of the same retrievals. -/
structure Invariant (rids : RetrievalIdentifiers) (log : List Retrieved) (s : Store) : Prop where
  valid : ∀ e ∈ log, isIdempotencyKey e.key = true
  recorded : ∀ e ∈ log, s.idempotency e.key = some ⟨e.request, .retrieved e.response⟩
  logged : ∀ key record, s.idempotency key = some record → IsRetrieval record.request →
    ∃ e ∈ log, e.key = key
  planned : ∀ e ∈ log, ∃ p ∈ s.queryPlans, p.verificationId = e.claim.verificationId ∧
    p.claimId = e.claim.claimId ∧ p.versionCas = 1
  requested : ∀ r ∈ s.retrievalRuns, ∃ e ∈ log, r.retrievalRequestId = rids.requestId e.claim.claimId e.key

/-- A transaction of the other operations: it leaves the tables of retrievals and adds a record of its own. -/
structure Frame (s s' : Store) : Prop where
  queryPlans : s'.queryPlans = s.queryPlans
  evidenceRefs : s'.evidenceRefs = s.evidenceRefs
  retrievalRuns : s'.retrievalRuns = s.retrievalRuns
  records : s'.idempotency = s.idempotency ∨ ∃ key record, s.idempotency key = none ∧
    ¬ IsRetrieval record.request ∧ s'.idempotency = Function.update s.idempotency key (some record)

theorem Frame.refl (s : Store) : Frame s s := ⟨rfl, rfl, rfl, Or.inl rfl⟩

theorem Invariant.frame {log : List Retrieved} {s s' : Store} (h : Invariant rids log s)
    (hframe : Frame s s') : Invariant rids log s' := by
  refine ⟨h.valid, fun e he => ?_, fun key record hrecord hretrieval => ?_, ?_, ?_⟩
  · have hold := h.recorded e he
    rcases hframe.records with heq | ⟨key, record, hnone, -, heq⟩
    · rwa [heq]
    · have hne : e.key ≠ key := by
        rintro rfl
        rw [hnone] at hold
        cases hold
      rwa [heq, Function.update_of_ne hne]
  · rcases hframe.records with heq | ⟨other, added, hnone, hadded, heq⟩
    · rw [heq] at hrecord
      exact h.logged key record hrecord hretrieval
    · rw [heq] at hrecord
      by_cases hkey : key = other
      · subst hkey
        rw [Function.update_self, Option.some.injEq] at hrecord
        subst hrecord
        exact absurd hretrieval hadded
      · rw [Function.update_of_ne hkey] at hrecord
        exact h.logged key record hrecord hretrieval
  · rw [hframe.queryPlans]
    exact h.planned
  · rw [hframe.retrievalRuns]
    exact h.requested

variable {key : String}

theorem frame_committed {s s' : Store} {command : BuildCommand} {inputs : BuildInputs}
    {result : KnowledgeBaseBuildResult}
    (hcommit : Activation.Committed ids s command key inputs result s') : Frame s s' := by
  obtain ⟨chunkCount, shards, now, t, rfl, happend, rfl⟩ := hcommit.appended
  obtain ⟨-, -, rfl⟩ := appendBuild_ok happend
  exact ⟨rfl, rfl, rfl, Or.inr ⟨key, _, hcommit.unrecorded, id, rfl⟩⟩

variable {loaded : Loaded}

theorem frame_recovered {s s' : Store} (hrecovered : Activation.Recovered s loaded s') :
    Frame s s' := by
  cases hrecovered with
  | unchanged => exact Frame.refl s
  | @executed key shards now t result hnone hcallback =>
    obtain ⟨-, rfl, -⟩ | ⟨-, rfl, -⟩ := recoveryCallback_ok hcallback
    · exact ⟨rfl, rfl, rfl, Or.inr ⟨key, _, hnone, id, rfl⟩⟩
    · exact ⟨rfl, rfl, rfl, Or.inr ⟨key, _, hnone, id, rfl⟩⟩

theorem frame_moves {s s' : Activation.State} {a : Activation.Action} (hmoves : Moves ids s a s') :
    Frame s.store s'.store := by
  cases hmoves with
  | commit c hc hcommit hnone => exact frame_committed hcommit
  | recover c phase hphase hkeeps hloaded hrecovered hnone => exact frame_recovered hrecovered
  | _ => exact Frame.refl _

/-! ### The transaction of a call -/

variable {bundle : Option EvidenceBundle} {response : RetrievalResponse} {refs : List EvidenceRef}
  {plan : QueryPlan}

section commit
variable {s : Store} {log : List Retrieved} {claim : Claim} {key : String} {loaded : Loaded} {search : Search}

theorem appendRetrievalResult_ok {s' : Store}
    (h : appendRetrievalResult plan response refs bundle s = .ok s') :
    s' = { s with
      queryPlans := plan :: s.queryPlans
      evidenceRefs := refs ++ s.evidenceRefs
      evidenceBundles := bundle.toList ++ s.evidenceBundles
      retrievalRuns := response :: s.retrievalRuns } := by
  unfold appendRetrievalResult at h
  simp only [unit_bind_eq_ok] at h
  obtain ⟨-, -, -, -, h⟩ := h
  cases h
  rfl

theorem appendRetrievalResult_error
    (hplan : ∃ p ∈ s.queryPlans, p.verificationId = plan.verificationId ∧ p.claimId = plan.claimId ∧
      p.versionCas = plan.versionCas) :
    appendRetrievalResult plan response refs bundle s = .error uniquenessViolated := by
  have hnot : ¬ ∀ p ∈ s.queryPlans, p.queryPlanId ≠ plan.queryPlanId ∧
      ¬ (p.verificationId = plan.verificationId ∧ p.claimId = plan.claimId ∧
        p.versionCas = plan.versionCas) := by
    obtain ⟨p, hp, hsame⟩ := hplan
    exact fun hall => (hall p hp).2 hsame
  unfold appendRetrievalResult ensure
  rw [if_neg hnot]
  rfl

theorem retrievalCallback_ok {s' : Store} {result : Result}
    (h : retrievalCallback rids claim key loaded search s = .ok (s', result)) :
    s.latestActivation.map (·.knowledgeBaseVersionId) =
        some loaded.knowledgeBase.knowledgeBaseVersionId ∧
      ((∃ existing, retrievalResponse s (rids.requestId claim.claimId key) = some existing ∧ s' = s ∧
          result = .retrieved existing) ∨
        ∃ response refs bundle, executeSearch rids claim key loaded search = (response, refs, bundle) ∧
          result = .retrieved response ∧
          appendRetrievalResult (queryPlan rids claim loaded) response refs bundle s = .ok s') := by
  unfold retrievalCallback at h
  obtain ⟨hcurrent, h⟩ := unit_bind_eq_ok.mp h
  refine ⟨ensure_eq_ok.mp hcurrent, ?_⟩
  split at h
  next existing hexisting =>
    cases h
    exact Or.inl ⟨existing, hexisting, rfl, rfl⟩
  next =>
    obtain ⟨t, happend, h⟩ := bind_eq_ok.mp h
    cases h
    exact Or.inr ⟨_, _, _, rfl, rfl, happend⟩

theorem executeSearch_spec (h : executeSearch rids claim key loaded search = (response, refs, bundle)) :
    response.retrievalRequestId = rids.requestId claim.claimId key ∧
      ∀ r ∈ refs, r.knowledgeBaseVersionId = loaded.knowledgeBase.knowledgeBaseVersionId := by
  unfold executeSearch at h
  split at h
  next evidence codes houtcome =>
    cases h
    refine ⟨rfl, fun r hr => ?_⟩
    obtain ⟨found, -, rfl⟩ := List.mem_map.mp hr
    rfl
  next =>
    cases h
    exact ⟨rfl, fun _ hr => absurd hr List.not_mem_nil⟩

theorem Invariant.unanswered (h : Invariant rids log s) (hids : Function.Injective2 rids.requestId)
    (hnone : s.idempotency key = none) :
    retrievalResponse s (rids.requestId claim.claimId key) = none := by
  refine latestVersion_eq_none.mpr (List.filter_eq_nil_iff.mpr fun r hr heq => ?_)
  obtain ⟨e, he, hid⟩ := h.requested r hr
  obtain ⟨-, hkey⟩ := hids (hid.symm.trans (of_decide_eq_true heq))
  have hrecord := h.recorded e he
  rw [hkey, hnone] at hrecord
  cases hrecord

/-- A claim that has been retrieved is not retrieved again under a new key. -/
theorem Invariant.refused (h : Invariant rids log s) (hids : Function.Injective2 rids.requestId)
    {e : Retrieved} (he : e ∈ log) (hclaim : e.claim = claim) (hvalid : isIdempotencyKey key = true)
    (hnone : s.idempotency key = none)
    (hcurrent : s.latestActivation.map (·.knowledgeBaseVersionId) =
      some loaded.knowledgeBase.knowledgeBaseVersionId) :
    execute s key (retrieveRequest claim loaded) (retrievalCallback rids claim key loaded search) =
      .error uniquenessViolated := by
  have hplan : ∃ p ∈ s.queryPlans, p.verificationId = (queryPlan rids claim loaded).verificationId ∧
      p.claimId = (queryPlan rids claim loaded).claimId ∧
      p.versionCas = (queryPlan rids claim loaded).versionCas := by
    subst hclaim
    exact h.planned e he
  have hcallback : retrievalCallback rids claim key loaded search s = .error uniquenessViolated := by
    unfold retrievalCallback
    rw [ensure_eq_ok.mpr hcurrent, h.unanswered hids hnone]
    dsimp only [bind, Except.bind]
    rw [appendRetrievalResult_error hplan]
  unfold execute
  rw [ensure_eq_ok.mpr hvalid, hnone]
  dsimp only [bind, Except.bind]
  rw [hcallback]

/-- A repeated call returns the response of the call before it exactly when it has loaded its knowledge
base. -/
theorem Invariant.answered_iff (h : Invariant rids log s) (search : Search) {e : Retrieved} (he : e ∈ log)
    (hclaim : e.claim = claim) (hkey : e.key = key) :
    execute s key (retrieveRequest claim loaded) (retrievalCallback rids claim key loaded search) =
        .ok (s, .retrieved e.response) ↔
      e.knowledgeBaseVersionId = loaded.knowledgeBase.knowledgeBaseVersionId := by
  subst hclaim hkey
  unfold execute
  rw [ensure_eq_ok.mpr (h.valid e he), h.recorded e he]
  dsimp only [bind, Except.bind]
  split_ifs with hrequest
  · refine ⟨nofun, fun heq => absurd ?_ hrequest⟩
    rw [Retrieved.request, retrieveRequest, heq]
  · refine ⟨fun _ => ?_, fun _ => rfl⟩
    have heq := not_not.mp hrequest
    rw [Retrieved.request, retrieveRequest] at heq
    exact (Request.retrieveClaim.inj heq).2.2.1

end commit

/-! ### Steps -/

/-- The call that the action commits: its number, its claim, its key and what it has loaded. -/
def committing (s : State) : Action → Option (ℕ × Claim × String × Loaded)
  | .commit c =>
    match s.calls[c]? with
    | some (.searched claim key loaded _) => some (c, claim, key, loaded)
    | _ => none
  | _ => none

/-- A call whose claim was retrieved under its key returns the response of then. -/
def AnsweredAgain (s : State) (a : Action) (s' : State) : Prop :=
  ∀ call ∈ committing s a, ∀ e ∈ s.log, e.claim = call.2.1 → e.key = call.2.2.1 →
    s'.calls[call.1]? = some (.returned e.response)

/-- A call whose claim was retrieved against its knowledge base under another key does not fail for that. -/
def RetrievedAgain (s : State) (a : Action) (s' : State) : Prop :=
  ∀ call ∈ committing s a, ∀ e ∈ s.log, e.claim = call.2.1 → e.key ≠ call.2.2.1 →
    e.knowledgeBaseVersionId = call.2.2.2.knowledgeBase.knowledgeBaseVersionId →
      s'.calls[call.1]? ≠ some (.raised uniquenessViolated)

/-- Evidence is committed for the knowledge base of the latest activation only. -/
def EvidenceCurrent (s s' : State) : Prop :=
  ∀ r ∈ s'.store.evidenceRefs, r ∈ s.store.evidenceRefs ∨
    s.store.latestActivation.map (·.knowledgeBaseVersionId) = some r.knowledgeBaseVersionId

/-- A key is repeated for its claim only under the knowledge base of the first call. -/
def SameKnowledgeBase (s : State) (a : Action) : Prop :=
  ∀ call ∈ committing s a, ∀ e ∈ s.log, e.claim = call.2.1 → e.key = call.2.2.1 →
    e.knowledgeBaseVersionId = call.2.2.2.knowledgeBase.knowledgeBaseVersionId

/-- No call with a key of its own reaches the active knowledge base with a claim that was retrieved against it
under another key. -/
def NoSecondKey (s : State) (a : Action) : Prop :=
  ∀ call ∈ committing s a, ∀ e ∈ s.log, e.claim = call.2.1 → e.key ≠ call.2.2.1 →
    e.knowledgeBaseVersionId = call.2.2.2.knowledgeBase.knowledgeBaseVersionId →
      ¬ (isIdempotencyKey call.2.2.1 = true ∧ (s.store.idempotency call.2.2.1).isNone = true ∧
        s.store.latestActivation.map (·.knowledgeBaseVersionId) =
          some call.2.2.2.knowledgeBase.knowledgeBaseVersionId)

instance (s : State) (a : Action) : Decidable (SameKnowledgeBase s a) :=
  inferInstanceAs (Decidable (∀ _ ∈ _, _))

instance (s : State) (a : Action) : Decidable (NoSecondKey s a) := inferInstanceAs (Decidable (∀ _ ∈ _, _))

variable {a : Action} {claim : Claim}

theorem committing_eq_some {s : State} {c : ℕ}
    (h : (c, claim, key, loaded) ∈ committing s a) :
    a = .commit c ∧ ∃ search, s.calls[c]? = some (.searched claim key loaded search) := by
  unfold committing at h
  split at h
  next d =>
    split at h
    next claim' key' loaded' search hc =>
      cases h
      exact ⟨rfl, search, hc⟩
    next => cases h
  next => cases h

variable {s s' : State}

theorem stepCommit_cases {c : ℕ} (hstep : stepCommit rids s c = some s') :
    (∃ phase, s' = s.setPhase c phase) ∨
      ∃ claim key loaded search response t, s.store.idempotency key = none ∧
        isIdempotencyKey key = true ∧
        retrievalCallback rids claim key loaded search s.store = .ok (t, .retrieved response) ∧
        s' = { s.setPhase c (.returned response) with
          process := { s.process with store := { t with
            idempotency := Function.update t.idempotency key
              (some ⟨retrieveRequest claim loaded, .retrieved response⟩) } }
          log := ⟨claim, key, loaded.knowledgeBase.knowledgeBaseVersionId, response⟩ :: s.log } := by
  unfold stepCommit at hstep
  split at hstep
  next claim key loaded search hc =>
    split at hstep
    next store response hexecute =>
      cases hstep
      obtain ⟨rfl, hrecord⟩ | ⟨hnone, t, hcallback, rfl⟩ := execute_ok hexecute
      · refine Or.inl ⟨.returned response, ?_⟩
        rw [hrecord]
        rfl
      · obtain ⟨hvalid, -⟩ := unit_bind_eq_ok.mp hexecute
        refine Or.inr ⟨claim, key, loaded, search, response, t, hnone, ensure_eq_ok.mp hvalid, hcallback, ?_⟩
        rw [hnone]
        rfl
    next =>
      cases hstep
      exact Or.inl ⟨_, rfl⟩
    next =>
      cases hstep
      exact Or.inl ⟨_, rfl⟩
  next => cases hstep

section outcome
variable {s s' : State} {c : ℕ} {claim : Claim} {key : String} {loaded : Loaded} {search : Search}
  (hc : s.calls[c]? = some (.searched claim key loaded search)) (hstep : stepCommit rids s c = some s')

include hc hstep

theorem stepCommit_call : s'.calls[c]? = some (match execute s.store key (retrieveRequest claim loaded)
    (retrievalCallback rids claim key loaded search) with
      | .ok (_, .retrieved response) => .returned response
      | .ok _ => .raised (.validationError [])
      | .error e => .raised e) := by
  have hlt := (List.getElem?_eq_some_iff.mp hc).1
  unfold stepCommit at hstep
  rw [hc] at hstep
  dsimp only at hstep
  generalize execute s.store key (retrieveRequest claim loaded)
    (retrievalCallback rids claim key loaded search) = outcome at hstep ⊢
  rcases outcome with e | ⟨store, _ | _ | response⟩
  all_goals
    cases hstep
    exact List.getElem?_set_self hlt

theorem stepCommit_returned_iff (response : RetrievalResponse) :
    s'.calls[c]? = some (.returned response) ↔
      ∃ store, execute s.store key (retrieveRequest claim loaded)
        (retrievalCallback rids claim key loaded search) = .ok (store, .retrieved response) := by
  rw [stepCommit_call hc hstep]
  rcases execute s.store key (retrieveRequest claim loaded)
    (retrievalCallback rids claim key loaded search) with e | ⟨store, _ | _ | _⟩ <;> simp

theorem stepCommit_refused_iff :
    s'.calls[c]? = some (.raised uniquenessViolated) ↔
      execute s.store key (retrieveRequest claim loaded)
        (retrievalCallback rids claim key loaded search) = .error uniquenessViolated := by
  rw [stepCommit_call hc hstep]
  rcases execute s.store key (retrieveRequest claim loaded)
    (retrievalCallback rids claim key loaded search) with e | ⟨store, _ | _ | _⟩ <;> simp [uniquenessViolated, conflict]

end outcome

/-! ### The invariant of a run -/

/-- What holds of every reachable state. -/
structure Sound (ids : Identifiers) (rids : RetrievalIdentifiers) (s : State) : Prop where
  process : Activation.Invariant ids s.process
  tables : Invariant rids s.log s.store

theorem sound_retrieved {s : Store} (h : Activation.Sound ids s)
    (key : String) (claim : Claim) (loaded : Loaded) {t : Store}
    (happend : appendRetrievalResult plan response refs bundle s = .ok t) :
    Activation.Sound ids { t with
        idempotency := Function.update t.idempotency key
          (some ⟨retrieveRequest claim loaded, .retrieved response⟩) } ∧
      t.knowledgeBases = s.knowledgeBases ∧ t.activations = s.activations := by
  cases appendRetrievalResult_ok happend
  refine ⟨⟨h.linear, h.known, h.once, h.built, h.first, h.bound, ?_⟩, rfl, rfl⟩
  intro other version sources snapshot digest expected result hrecord
  dsimp only at hrecord
  by_cases hother : other = key
  · subst hother
    rw [Function.update_self] at hrecord
    cases hrecord
  · rw [Function.update_of_ne hother] at hrecord
    exact h.recorded other _ _ _ _ _ result hrecord

theorem Invariant.retrieved {log : List Retrieved} {s : Store} (h : Invariant rids log s)
    {search : Search}
    {t : Store}
    (hnone : s.idempotency key = none) (hvalid : isIdempotencyKey key = true)
    (hsearch : executeSearch rids claim key loaded search = (response, refs, bundle))
    (happend : appendRetrievalResult (queryPlan rids claim loaded) response refs bundle s = .ok t) :
    Invariant rids (⟨claim, key, loaded.knowledgeBase.knowledgeBaseVersionId, response⟩ :: log)
      { t with
        idempotency := Function.update t.idempotency key
          (some ⟨retrieveRequest claim loaded, .retrieved response⟩) } := by
  cases appendRetrievalResult_ok happend
  refine ⟨?_, ?_, ?_, ?_, ?_⟩
  · exact List.forall_mem_cons.mpr ⟨hvalid, h.valid⟩
  · refine List.forall_mem_cons.mpr ⟨Function.update_self _ _ _, fun e he => ?_⟩
    have hold := h.recorded e he
    have hne : e.key ≠ key := by
      rintro rfl
      rw [hnone] at hold
      cases hold
    exact (Function.update_of_ne hne _ _).trans hold
  · intro other record hrecord hretrieval
    dsimp only at hrecord
    by_cases hother : other = key
    · exact ⟨_, List.mem_cons_self, hother.symm⟩
    · rw [Function.update_of_ne hother] at hrecord
      obtain ⟨e, he, hkey⟩ := h.logged other record hrecord hretrieval
      exact ⟨e, List.mem_cons_of_mem _ he, hkey⟩
  · refine List.forall_mem_cons.mpr ⟨⟨_, List.mem_cons_self, rfl, rfl, rfl⟩, fun e he => ?_⟩
    obtain ⟨p, hp, hplan⟩ := h.planned e he
    exact ⟨p, List.mem_cons_of_mem _ hp, hplan⟩
  · refine List.forall_mem_cons.mpr ⟨⟨_, List.mem_cons_self, (executeSearch_spec hsearch).1⟩, fun r hr => ?_⟩
    obtain ⟨e, he, hid⟩ := h.requested r hr
    exact ⟨e, List.mem_cons_of_mem _ he, hid⟩

theorem stepCall_frame (hcommit : ∀ c, a ≠ .commit c)
    (hprocess : ∀ b, a ≠ .process b) (hstep : step ids recoveryKey rids s a = some s') :
    s'.process = s.process ∧ s'.log = s.log := by
  cases a with
  | process b => exact absurd rfl (hprocess b)
  | retrieve claim key deadlineAt now => cases hstep; exact ⟨rfl, rfl⟩
  | load c =>
    simp only [step, stepLoad] at hstep
    split at hstep
    next => split at hstep <;> cases hstep <;> exact ⟨rfl, rfl⟩
    next => cases hstep
  | search c search =>
    simp only [step, stepSearch] at hstep
    split at hstep
    next => cases hstep; exact ⟨rfl, rfl⟩
    next => cases hstep
  | commit c => exact absurd rfl (hcommit c)
  | fail c e =>
    simp only [step, stepFail] at hstep
    split at hstep
    next => cases hstep
    next => cases hstep
    next => cases hstep
    next => cases hstep; exact ⟨rfl, rfl⟩

/-- **Every step keeps the invariant** and commits evidence of the active knowledge base only. -/
theorem Sound.step (hids : Function.Injective2 rids.requestId)
    (h : Sound ids rids s) (hstep : Retrieval.step ids recoveryKey rids s a = some s') :
    Sound ids rids s' ∧ EvidenceCurrent s s' := by
  by_cases hcommit : ∃ c, a = .commit c
  · obtain ⟨c, rfl⟩ := hcommit
    obtain ⟨phase, rfl⟩ | ⟨claim, key, loaded, search, response, t, hnone, hvalid, hcallback, rfl⟩ :=
      stepCommit_cases hstep
    · exact ⟨⟨h.process, h.tables⟩, fun r hr => Or.inl hr⟩
    obtain ⟨hcurrent, ⟨existing, hexisting, -, -⟩ | ⟨_, refs, bundle, hsearch, hresult, happend⟩⟩ :=
      retrievalCallback_ok hcallback
    · rw [h.tables.unanswered hids hnone] at hexisting
      cases hexisting
    cases hresult
    obtain ⟨hsound, hknowledgeBases, hactivations⟩ :=
      sound_retrieved h.process.sound key claim loaded happend
    refine ⟨⟨h.process.grow hsound ⟨?_, ?_⟩, h.tables.retrieved hnone hvalid hsearch happend⟩, fun r hr => ?_⟩
    · exact hknowledgeBases ▸ List.Subset.refl _
    · exact hactivations ▸ List.Subset.refl _
    · have hrefs : t.evidenceRefs = refs ++ s.store.evidenceRefs := by
        rw [appendRetrievalResult_ok happend]
      rcases List.mem_append.mp (hrefs ▸ hr) with hr | hr
      · exact Or.inr (hcurrent.trans (congrArg some ((executeSearch_spec hsearch).2 r hr).symm))
      · exact Or.inl hr
  by_cases hprocess : ∃ b, a = .process b
  · obtain ⟨b, rfl⟩ := hprocess
    obtain ⟨process, hmove, rfl⟩ := Option.map_eq_some_iff.mp hstep
    have hmoves := moves_of_step h.process hmove
    have hframe := frame_moves hmoves
    refine ⟨⟨h.process.moves hmoves, h.tables.frame hframe⟩, fun r hr => Or.inl ?_⟩
    exact hframe.evidenceRefs ▸ hr
  · obtain ⟨hsame, hlog⟩ := stepCall_frame (fun c hc => hcommit ⟨c, hc⟩) (fun b hb => hprocess ⟨b, hb⟩) hstep
    refine ⟨⟨hsame ▸ h.process, ?_⟩, fun r hr => Or.inl ?_⟩
    · rw [hlog, State.store, hsame]
      exact h.tables
    · rw [State.store, hsame] at hr
      exact hr

theorem sound_initial : Sound ids rids initial where
  process := Activation.invariant_initial
  tables := by
    refine ⟨?_, ?_, ?_, ?_, ?_⟩
    · exact fun _ h => absurd h List.not_mem_nil
    · exact fun _ h => absurd h List.not_mem_nil
    · exact fun _ _ h => absurd h (Option.some_ne_none _).symm
    · exact fun _ h => absurd h List.not_mem_nil
    · exact fun _ h => absurd h List.not_mem_nil

/-! ### When retrievals are repeatable -/

/-- **A call answers again** exactly when it has loaded the knowledge base of the first call. -/
theorem answeredAgain_iff (h : Sound ids rids s)
    (hstep : step ids recoveryKey rids s a = some s') : AnsweredAgain s a s' ↔ SameKnowledgeBase s a := by
  refine forall_congr' fun ⟨c, claim, key, loaded⟩ => forall_congr' fun hcall => ?_
  refine forall_congr' fun e => forall_congr' fun he => forall_congr' fun hclaim => ?_
  refine forall_congr' fun hkey => ?_
  obtain ⟨rfl, search, hc⟩ := committing_eq_some hcall
  rw [stepCommit_returned_iff hc hstep, ← h.tables.answered_iff search he hclaim hkey]
  refine ⟨fun ⟨store, hexecute⟩ => ?_, fun hexecute => ⟨_, hexecute⟩⟩
  obtain ⟨rfl, -⟩ | ⟨hnone, -⟩ := execute_ok hexecute
  · exact hexecute
  · have hrecord := h.tables.recorded e he
    rw [hkey, hnone] at hrecord
    cases hrecord

theorem refused_spec {s : Store} {search : Search}
    (h : execute s key (retrieveRequest claim loaded) (retrievalCallback rids claim key loaded search) =
      .error uniquenessViolated) :
    isIdempotencyKey key = true ∧ (s.idempotency key).isNone = true ∧
      s.latestActivation.map (·.knowledgeBaseVersionId) =
        some loaded.knowledgeBase.knowledgeBaseVersionId := by
  unfold execute ensure at h
  by_cases hvalid : isIdempotencyKey key = true
  · rw [if_pos hvalid] at h
    dsimp only [bind, Except.bind] at h
    cases hrecord : s.idempotency key with
    | some record =>
      rw [hrecord] at h
      dsimp only at h
      split_ifs at h
      cases h
    | none =>
      refine ⟨hvalid, rfl, ?_⟩
      rw [hrecord] at h
      by_contra hcurrent
      unfold retrievalCallback ensure at h
      rw [if_neg hcurrent] at h
      have hmessage := congrArg LiyanError.safeMessage (Exn.liyan.inj (Except.error.inj h))
      exact absurd hmessage (by decide)
  · rw [if_neg hvalid] at h
    cases h

/-- **A claim is retrieved again** exactly when it does not come under a second key. -/
theorem retrievedAgain_iff (hids : Function.Injective2 rids.requestId)
    (h : Sound ids rids s) (hstep : step ids recoveryKey rids s a = some s') :
    RetrievedAgain s a s' ↔ NoSecondKey s a := by
  refine forall_congr' fun ⟨c, claim, key, loaded⟩ => forall_congr' fun hcall => ?_
  refine forall_congr' fun e => forall_congr' fun he => forall_congr' fun hclaim => ?_
  refine forall_congr' fun hkey => forall_congr' fun hknowledgeBase => ?_
  obtain ⟨rfl, search, hc⟩ := committing_eq_some hcall
  rw [Ne, stepCommit_refused_iff hc hstep]
  refine not_congr ⟨refused_spec, fun ⟨hvalid, hnone, hcurrent⟩ => ?_⟩
  exact h.tables.refused hids he hclaim hvalid (Option.isNone_iff_eq_none.mp hnone) hcurrent

/-- **Evidence is of the active knowledge base** in every run; retrievals are repeatable in the runs, and only
in those, that repeat a key under one knowledge base and retrieve no claim under a second key. -/
theorem retrieval_repeatable_iff (hids : Function.Injective2 rids.requestId) {as : List Action} {s : State}
    (hrun : run (step ids recoveryKey rids) initial as = some s) :
    AllSteps (step ids recoveryKey rids)
      (fun s a => ∀ s', step ids recoveryKey rids s a = some s' → EvidenceCurrent s s') initial as ∧
    (AllSteps (step ids recoveryKey rids)
      (fun s a => ∀ s', step ids recoveryKey rids s a = some s' →
        AnsweredAgain s a s' ∧ RetrievedAgain s a s') initial as ↔
      AllSteps (step ids recoveryKey rids) (fun s a => SameKnowledgeBase s a ∧ NoSecondKey s a)
        initial as) := by
  constructor
  · refine (allSteps_congr (I := Sound ids rids) (D := fun _ _ => True) (fun t a t' ht hstep => ?_)
      sound_initial hrun).mpr (allSteps_of_forall (fun _ _ => trivial) _ _)
    refine ⟨(ht.step hids hstep).1, iff_true_intro fun u hu => ?_⟩
    exact (ht.step hids hu).2
  · refine allSteps_congr (I := Sound ids rids) (fun t a t' ht hstep => ⟨(ht.step hids hstep).1, ?_⟩)
      sound_initial hrun
    rw [← answeredAgain_iff ht hstep, ← retrievedAgain_iff hids ht hstep]
    refine ⟨fun hrepeat => hrepeat t' hstep, fun hrepeat u hu => ?_⟩
    rw [← Option.some.inj (hstep.symm.trans hu)]
    exact hrepeat

/-! ### A second activation and a second key -/

open Knowledge.Activation (sampleIds sampleRecoveryKey sampleCommand sampleBuild)

/-- The number that the characters of a text are the digits of. -/
def textNumber (text : String) : ℕ := Nat.ofDigits 1114113 (text.toList.map fun c => c.toNat + 1)

theorem textNumber_injective : Function.Injective textNumber := by
  have hdigits : ∀ text : String, Nat.digits 1114113 (textNumber text) =
      text.toList.map fun c => c.toNat + 1 := by
    intro text
    refine Nat.digits_ofDigits 1114113 (by omega) _ (fun digit hdigit => ?_) fun hne => ?_
    · obtain ⟨c, -, rfl⟩ := List.mem_map.mp hdigit
      have hvalid : c.toNat < 0xd800 ∨ 0xdfff < c.toNat ∧ c.toNat < 0x110000 := c.valid
      omega
    · obtain ⟨c, -, hc⟩ := List.mem_map.mp (List.getLast_mem hne)
      omega
  intro left right h
  have hmap := (hdigits left).symm.trans ((congrArg _ h).trans (hdigits right))
  refine String.toList_inj.mp (List.map_injective_iff.mpr (fun c d hcd => ?_) hmap)
  exact Char.toNat_inj.mp (Nat.succ.inj hcd)

/-- Identifiers without collisions of requests. -/
def sampleRids : RetrievalIdentifiers where
  queryPlanId := Nat.pair
  requestId claim key := Nat.pair claim (textNumber key)
  responseId request := request
  evidenceRefId claim _ chunk _ := Nat.pair claim chunk
  evidenceBundleId plan := plan

theorem sampleRids_injective : Function.Injective2 sampleRids.requestId := by
  intro claim claim' key key' h
  obtain ⟨hclaim, hkey⟩ := Nat.pair_eq_pair.mp h
  exact ⟨hclaim, textNumber_injective hkey⟩

def sampleClaim : Claim := ⟨true, 1, 2, "0"⟩

def firstKey : String := "00000000-0000-0000-0000-00000000000a"

def secondKey : String := "00000000-0000-0000-0000-00000000000b"

/-- A build with the activation of its index. -/
def activateBase (c : ℕ) (version key : String) : List Action :=
  (Activation.Action.build (sampleCommand version) key :: (sampleBuild c ++ [.swap c])).map Action.process

/-- A retrieval that finds one chunk. -/
def retrieve (c : ℕ) (key : String) : List Action :=
  [.retrieve sampleClaim key none 0, .load c, .search c ⟨.found [(1, "0")] [], 5, 6⟩, .commit c]

/-- The calls of a run: whether each has returned, or what it has raised. -/
def outcomes (as : List Action) : Option (List (Bool × Option Exn)) :=
  (run (step sampleIds sampleRecoveryKey sampleRids) initial as).map fun s => s.calls.map fun
    | .returned _ => (true, none)
    | .raised e => (false, some e)
    | _ => (false, none)

/-- A retrieval and its repetition. -/
def repeated : List Action :=
  activateBase 0 "a" "00000000-0000-0000-0000-000000000001" ++ retrieve 0 firstKey ++ retrieve 1 firstKey

theorem repeated_outcomes : outcomes repeated = some [(true, none), (true, none)] := by
  decide +kernel

theorem retrieval_repeatable_repeated :
    AllSteps (step sampleIds sampleRecoveryKey sampleRids)
      (fun s a => ∀ s', step sampleIds sampleRecoveryKey sampleRids s a = some s' →
        AnsweredAgain s a s' ∧ RetrievedAgain s a s') initial repeated := by
  obtain ⟨s, hs, -⟩ := Option.map_eq_some_iff.mp repeated_outcomes
  exact (retrieval_repeatable_iff sampleRids_injective hs).2.mpr (by decide +kernel)

/-- **A committed retrieval is not answered again** once another knowledge base is active, and a claim is not
retrieved again under a second key. -/
theorem retrieval_not_repeated :
    outcomes (activateBase 0 "a" "00000000-0000-0000-0000-000000000001" ++ retrieve 0 firstKey ++
        activateBase 1 "ab" "00000000-0000-0000-0000-000000000002" ++ retrieve 1 firstKey) =
      some [(true, none), (false, some keyReused)] ∧
    outcomes (activateBase 0 "a" "00000000-0000-0000-0000-000000000001" ++ retrieve 0 firstKey ++
        retrieve 1 secondKey) =
      some [(true, none), (false, some uniquenessViolated)] := by
  refine ⟨?_, ?_⟩
  · decide +kernel
  · decide +kernel

end CyberControl.Knowledge.Retrieval
