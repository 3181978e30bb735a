import CyberControl.ModuleExecution
import CyberControl.Transition

/-! # What a module reads of the others

Executions of one dispatch plan by `Topic4Runtime._execute_locked` (`verification/runtime.py`), in one
process or in several.  A call reads that no module run is persisted, invokes the handlers wave by
wave, and persists the runs and the results of all modules together when the last wave is over.  The
handler of C11 reads the persisted result of C6 (`ComplianceEvidenceService._load_code_authority`,
`compliance/service.py`). -/

namespace CyberControl.Availability

open Verification Transition Collections Scheduling

/-! ### What C11 reads -/

/-- `_load_code_authority`: the latest C6 result of the claim among the persisted results. -/
def loadC6Result (results : List ModuleRunResult) (claimId : ℕ) : Except Exn ModuleRunResult :=
  match latestByModule (resultsOf results claimId) .C6_CODE with
  | none => .error (.valueError "C11 persisted C6 result is unavailable")
  | some result => .ok result

/-- `C11ComplianceHandler._error_code`. -/
def errorCode (message : String) : String :=
  let has (word : String) : Bool :=
    (message.toList.map Char.toLower).tails.any fun text => word.toList.isPrefixOf text
  if has "tenant" then "C11_TENANT_ISOLATION_FAILED"
  else if has "evidence" then "C11_EVIDENCE_INTEGRITY_FAILED"
  else if has "sbom" || has "component" then "C11_SBOM_INTEGRITY_FAILED"
  else if has "provenance" || has "reproducible" then "C11_PROVENANCE_INTEGRITY_FAILED"
  else if has "code artifact" || has "candidate" then "C11_CODE_ARTIFACT_BINDING_FAILED"
  else "C11_HANDLER_VALIDATION_FAILED"

/-- What `C11ComplianceHandler.verify` answers for a `CODE` claim when the C6 result cannot be loaded;
otherwise the answer depends on the evidence. -/
def complianceAnswer (results : List ModuleRunResult) (claimId : ℕ) : Option ModuleFinding :=
  match loadC6Result results claimId with
  | .error (.valueError message) => some ⟨.UNSAFE, [], [errorCode message], nofun⟩
  | _ => none

theorem loadC6Result_iff {results : List ModuleRunResult} {claimId : ℕ} :
    (∃ result, loadC6Result results claimId = .ok result) ↔
      ∃ result ∈ results, result.claimId = claimId ∧ result.module = .C6_CODE := by
  unfold loadC6Result
  rcases @latestBy_cases _ _ _ _ _ (·.module) resultOrder (resultsOf results claimId) .C6_CODE
    with ⟨hnone, hne⟩ | ⟨latest, hlatest, hmem⟩
  · rw [show latestByModule (resultsOf results claimId) .C6_CODE = none from hnone]
    constructor
    · rintro ⟨_, h⟩
      cases h
    · rintro ⟨result, hresult, hid, hmodule⟩
      exact absurd hmodule (hne result (mem_resultsOf.mpr ⟨hresult, hid⟩))
  · rw [show latestByModule (resultsOf results claimId) .C6_CODE = some latest from hlatest]
    obtain ⟨hresult, hid⟩ := mem_resultsOf.mp hmem.mem
    exact ⟨fun _ => ⟨latest, hresult, hid, hmem.key_eq⟩, fun _ => ⟨latest, rfl⟩⟩

/-! ### Calls -/

instance : DecidableEq ModuleRunResult := fun left right =>
  decidable_of_iff (left.moduleResultId = right.moduleResultId ∧
      left.verificationId = right.verificationId ∧ left.claimId = right.claimId ∧
      left.module = right.module ∧ left.verdict = right.verdict ∧ left.versionCas = right.versionCas ∧
      left.createdAt = right.createdAt ∧ left.evidenceRefIds = right.evidenceRefIds ∧
      left.findingCodes = right.findingCodes)
    ⟨fun h => by cases left; cases right; simpa using h, fun h => by simp [h]⟩

/-- Where a call stands: it has not read its inputs; it executes the waves that are left, after so many
attempts of each item and with the outcomes of the waves before; it is past the execution; or it
raised. -/
inductive Phase where
  | idle
  | executing (waves : List (List DispatchItem)) (attempts : ℕ → ℕ) (outcomes : List ItemOutcome)
  | executed
  | raised

/-- The verification: whether its state is `VERIFYING`, its persisted module runs and results, and
the calls. -/
structure State where
  verifying : Bool
  runs : List ModuleRun
  results : List ModuleRunResult
  phase : ℕ → Phase

/-- `read` is `_execution_inputs` with the start of `execute`; `invoke` begins an attempt and calls the
handler, `expire` one whose deadline is over; `nextWave` ends a wave; `persist` is
`persist_module_execution`, `finalize` is `finalize_control_plane`; `fail` is an exception of the
call. -/
inductive Action where
  | read (call : ℕ)
  | invoke (call : ℕ) (item : DispatchItem)
  | expire (call : ℕ) (item : DispatchItem)
  | nextWave (call : ℕ)
  | persist (call : ℕ)
  | finalize (call : ℕ)
  | fail (call : ℕ)

def State.setPhase (s : State) (call : ℕ) (phase : Phase) : State :=
  { s with phase := Function.update s.phase call phase }

theorem State.setPhase_phase (s : State) (call : ℕ) (phase : Phase) :
    (s.setPhase call phase).phase = Function.update s.phase call phase := rfl

/-- The handler has answered. -/
def isFinding : Invocation → Bool
  | .finding _ => true
  | _ => false

/-- The deadline was over before the handler was called. -/
def isExpired : Invocation → Bool
  | .deadlineExpired => true
  | _ => false

section step

variable (handlers : ℕ → Handlers) (claims : List Claim) (p : DispatchPlan)

/-- `BoundedModuleExecutor.execute` up to its loop: the waves. -/
def startExecution : Except Exn (List (List DispatchItem)) :=
  if ¬ ((∀ claimId ∈ p.claimIds, claimId ∈ claims.map (·.claimId)) ∧
      ∀ claim ∈ claims, claim.claimId ∈ p.claimIds) then
    .error (.valueError "dispatch plan and claim set differ")
  else executionWaves p.items

/-- The item takes another attempt in `_execute_item`: it is not skipped, its module has a handler,
and no attempt has had a finding. -/
def Attempting (h : Handlers) (attempts : ℕ → ℕ) (outcomes : List ItemOutcome)
    (item : DispatchItem) : Prop :=
  (∀ dependency ∈ item.dependencyItemIds, dependency ∈ successfulItems outcomes) ∧
    h.registered item.module = true ∧ attempts item.dispatchItemId < item.maxAttempts ∧
      ∀ k < attempts item.dispatchItemId, isFinding (h.invoke item (k + 1)) = false

instance (h : Handlers) (attempts : ℕ → ℕ) (outcomes : List ItemOutcome) (item : DispatchItem) :
    Decidable (Attempting h attempts outcomes item) :=
  inferInstanceAs (Decidable (_ ∧ _))

def bundleOf (outcomes : List ItemOutcome) : ModuleExecutionBundle :=
  let ordered := sortBy
    (fun outcome => (p.items.map (·.dispatchItemId)).idxOf outcome.dispatchItemId) outcomes
  ⟨ordered.flatMap (·.runs), ordered.filterMap (·.result)⟩

/-- A finding of the handler of C11 for a `CODE` claim whose C6 result cannot be loaded is the answer
to that. -/
def answersFrom (s : State) (item : DispatchItem) : Invocation → Bool
  | .finding f =>
    match complianceAnswer s.results item.claimId with
    | none => true
    | some answer =>
      decide ((item.module = .C11_COMPLIANCE ∧
        ∃ claim ∈ claims, claim.claimId = item.claimId ∧ claim.claimKind = .CODE) →
        f.verdict = answer.verdict ∧ f.evidenceRefIds = answer.evidenceRefIds ∧
          f.findingCodes = answer.findingCodes)
  | _ => true

/-- The next attempt of an item of the current wave; `expired` says whether its deadline is over. -/
def attempt (s : State) (call : ℕ) (item : DispatchItem) (expired : Bool) :
    Option State :=
  match s.phase call with
  | .executing (wave :: waves) attempts outcomes =>
    let n := attempts item.dispatchItemId
    if (item ∈ wave ∧ Attempting (handlers call) attempts outcomes item) ∧
        isExpired ((handlers call).invoke item (n + 1)) = expired ∧
          answersFrom claims s item ((handlers call).invoke item (n + 1)) = true then
      some (s.setPhase call
        (.executing (wave :: waves) (Function.update attempts item.dispatchItemId (n + 1)) outcomes))
    else none
  | _ => none

def step (s : State) : Action → Option State
  | .read call =>
    match s.phase call with
    | .idle =>
      if s.verifying = false then none
      else if s.runs ≠ [] then some (s.setPhase call .executed)
      else
        match startExecution claims p with
        | .ok waves => some (s.setPhase call (.executing waves (fun _ => 0) []))
        | .error _ => some (s.setPhase call .raised)
    | _ => none
  | .invoke call item => attempt handlers claims s call item false
  | .expire call item => attempt handlers claims s call item true
  | .nextWave call =>
    match s.phase call with
    | .executing (wave :: waves) attempts outcomes =>
      if ∀ item ∈ wave, ¬ Attempting (handlers call) attempts outcomes item then
        match wave.mapM
            (executeOrSkip (handlers call) p.verificationId (successfulItems outcomes)) with
        | .ok ended => some (s.setPhase call (.executing waves attempts (outcomes ++ ended)))
        | .error _ => some (s.setPhase call .raised)
      else none
    | _ => none
  | .persist call =>
    match s.phase call with
    | .executing [] _ outcomes =>
      let bundle := bundleOf p outcomes
      if bundle.runSnapshots = [] then none
      else if s.runs ≠ [] then
        -- the key is used: the same request is answered from its record, another is refused
        if s.runs = bundle.runSnapshots ∧ s.results = bundle.results then
          some (s.setPhase call .executed)
        else none
      else if s.verifying = true then
        some { s.setPhase call .executed with
          runs := bundle.runSnapshots
          results := bundle.results }
      else none
    | _ => none
  | .finalize call =>
    match s.phase call with
    | .executed => if s.verifying = true then some { s with verifying := false } else none
    | _ => none
  | .fail call => some (s.setPhase call .raised)

/-- The verification as the dispatch left it. -/
def dispatched : State := ⟨true, [], [], fun _ => .idle⟩

/-- C6 has a result for the claim in the execution of the call. -/
def ProducesC6 (call : ℕ) (claim : Claim) : Prop :=
  ∃ bundle, execute (handlers call) p claims = .ok bundle ∧
    ∃ result ∈ bundle.results, result.claimId = claim.claimId ∧ result.module = .C6_CODE

end step

/-! ### One execution -/

section execution

variable {handlers : ℕ → Handlers} {claims : List Claim} {p : DispatchPlan}

variable (claims p) in
/-- A call that executes: the waves that are left go on to what `execute` computes. -/
def Continues (h : Handlers) (waves : List (List DispatchItem)) (outcomes : List ItemOutcome) : Prop :=
  ∃ all, startExecution claims p = .ok all ∧
    executeWaves h p.verificationId all [] =
      (executeWaves h p.verificationId waves (successfulItems outcomes)).map (outcomes ++ ·)

variable {h : Handlers}

theorem Continues.start {waves : List (List DispatchItem)}
    (hstart : startExecution claims p = .ok waves) : Continues claims p h waves [] := by
  refine ⟨waves, hstart, ?_⟩
  have hnil : successfulItems [] = [] := rfl
  rw [hnil]
  cases executeWaves h p.verificationId waves [] <;> rfl

theorem Continues.next {wave : List DispatchItem} {waves : List (List DispatchItem)}
    {outcomes ended : List ItemOutcome} (hcontinues : Continues claims p h (wave :: waves) outcomes)
    (hended : wave.mapM (executeOrSkip h p.verificationId (successfulItems outcomes)) = .ok ended) :
    Continues claims p h waves (outcomes ++ ended) := by
  obtain ⟨all, hstart, hall⟩ := hcontinues
  refine ⟨all, hstart, ?_⟩
  have happend : successfulItems (outcomes ++ ended) =
      successfulItems outcomes ++ successfulItems ended := by
    simp [successfulItems]
  rw [hall, executeWaves, hended, happend]
  change ((executeWaves h p.verificationId waves
    (successfulItems outcomes ++ successfulItems ended)).bind fun rest => .ok (ended ++ rest)).map _ = _
  cases executeWaves h p.verificationId waves (successfulItems outcomes ++ successfulItems ended) with
  | error e => rfl
  | ok rest => exact congrArg Except.ok (List.append_assoc _ _ _).symm

theorem Continues.bundle {outcomes : List ItemOutcome}
    (hcontinues : Continues claims p h [] outcomes) :
    execute h p claims = .ok (bundleOf p outcomes) := by
  obtain ⟨all, hstart, hall⟩ := hcontinues
  have houtcomes : executeWaves h p.verificationId all [] = .ok outcomes := by
    rw [hall, executeWaves]
    exact congrArg Except.ok (List.append_nil _)
  unfold startExecution at hstart
  unfold execute
  split_ifs at hstart with hclaims
  rw [if_neg (not_not.mpr hclaims), hstart]
  change ((executeWaves h p.verificationId all []).bind _) = _
  rw [houtcomes]
  rfl

end execution

/-! ### All calls together -/

section calls

variable {handlers : ℕ → Handlers} {claims : List Claim} {p : DispatchPlan}

def IsOver (phase : Phase) : Prop := phase = .executed ∨ phase = .raised

variable (handlers claims p) in
/-- After the actions so far: an executing call is a prefix of its execution; what is persisted is the
bundle of each call that has persisted, and such a call is over. -/
structure Invariant (past : List Action) (s : State) : Prop where
  continues : ∀ call waves attempts outcomes, s.phase call = .executing waves attempts outcomes →
    Continues claims p (handlers call) waves outcomes
  ended : ∀ call, .persist call ∈ past → IsOver (s.phase call)
  nothing : (∀ call, .persist call ∉ past) → s.results = []
  persisted : ∀ call, .persist call ∈ past → s.runs ≠ [] ∧
    ∃ bundle, execute (handlers call) p claims = .ok bundle ∧ s.results = bundle.results
  someone : s.runs ≠ [] → ∃ call, .persist call ∈ past

theorem invariant_dispatched : Invariant handlers claims p [] dispatched := by
  constructor
  · intro call waves attempts outcomes h
    cases h
  · intro call h
    cases h
  · intro _
    rfl
  · intro call h
    cases h
  · intro h
    exact absurd rfl h

variable {past : List Action} {call : ℕ} {s : State} {a : Action}

theorem Invariant.setPhase {phase : Phase}
    (h : Invariant handlers claims p past s) (ha : ∀ w, a ≠ .persist w)
    (hcontinues : ∀ waves attempts outcomes, phase = .executing waves attempts outcomes →
      Continues claims p (handlers call) waves outcomes)
    (hover : IsOver (s.phase call) → IsOver phase) :
    Invariant handlers claims p (past ++ [a]) (s.setPhase call phase) := by
  have hpast : ∀ w, .persist w ∈ past ++ [a] ↔ .persist w ∈ past := by
    intro w
    rw [List.mem_append, List.mem_singleton]
    exact or_iff_left fun hw => ha w hw.symm
  constructor
  · intro w waves attempts outcomes hw
    rw [State.setPhase_phase] at hw
    by_cases hcall : w = call
    · subst hcall
      rw [Function.update_self] at hw
      exact hcontinues waves attempts outcomes hw
    · rw [Function.update_of_ne hcall] at hw
      exact h.continues w waves attempts outcomes hw
  · intro w hw
    have hbefore := h.ended w ((hpast w).mp hw)
    rw [State.setPhase_phase]
    by_cases hcall : w = call
    · subst hcall
      rw [Function.update_self]
      exact hover hbefore
    · rw [Function.update_of_ne hcall]
      exact hbefore
  · intro hnone
    exact h.nothing fun w hw => hnone w ((hpast w).mpr hw)
  · intro w hw
    exact h.persisted w ((hpast w).mp hw)
  · intro hruns
    obtain ⟨w, hw⟩ := h.someone hruns
    exact ⟨w, (hpast w).mpr hw⟩

theorem Invariant.attempt {s t : State}
    {item : DispatchItem} {expired : Bool} (h : Invariant handlers claims p past s)
    (ha : ∀ w, a ≠ .persist w) (ht : attempt handlers claims s call item expired = some t) :
    Invariant handlers claims p (past ++ [a]) t := by
  unfold Availability.attempt at ht
  split at ht
  next wave waves attempts outcomes hphase =>
    obtain ⟨_, rfl⟩ := guarded_eq_some.mp ht
    refine h.setPhase ha ?_ ?_
    · intro _ _ _ heq
      cases heq
      exact h.continues call (wave :: waves) attempts outcomes hphase
    · rintro (hover | hover) <;> rw [hphase] at hover <;> cases hover
  next => cases ht

theorem Invariant.persist {attempts : ℕ → ℕ} {outcomes : List ItemOutcome} {t : State}
    (h : Invariant handlers claims p past s) (hphase : s.phase call = .executing [] attempts outcomes)
    (hruns : t.runs ≠ []) (hresults : t.results = (bundleOf p outcomes).results)
    (hbefore : s.runs ≠ [] → t.results = s.results)
    (hover : t.phase = Function.update s.phase call .executed) :
    Invariant handlers claims p (past ++ [.persist call]) t := by
  have hpast : ∀ w, .persist w ∈ past ++ [Action.persist call] ↔ .persist w ∈ past ∨ w = call := by
    intro w
    rw [List.mem_append, List.mem_singleton, Action.persist.injEq]
  constructor
  · intro w waves attempts outcomes hw
    rw [hover] at hw
    by_cases hcall : w = call
    · subst hcall
      rw [Function.update_self] at hw
      cases hw
    · rw [Function.update_of_ne hcall] at hw
      exact h.continues w waves attempts outcomes hw
  · intro w hw
    rw [hover]
    by_cases hcall : w = call
    · subst hcall
      rw [Function.update_self]
      exact Or.inl rfl
    · rw [Function.update_of_ne hcall]
      exact h.ended w (((hpast w).mp hw).resolve_right hcall)
  · intro hnone
    exact absurd ((hpast call).mpr (Or.inr rfl)) (hnone call)
  · intro w hw
    refine ⟨hruns, ?_⟩
    rcases (hpast w).mp hw with hw | rfl
    · obtain ⟨hne, bundle, hbundle, hsame⟩ := h.persisted w hw
      exact ⟨bundle, hbundle, (hbefore hne).trans hsame⟩
    · exact ⟨bundleOf p outcomes, (h.continues w [] attempts outcomes hphase).bundle, hresults⟩
  · intro _
    exact ⟨call, (hpast call).mpr (Or.inr rfl)⟩

theorem Invariant.step {s t : State}
    (h : Invariant handlers claims p past s) (ht : step handlers claims p s a = some t) :
    Invariant handlers claims p (past ++ [a]) t := by
  cases a with
  | read call =>
    have ha : ∀ w, Action.read call ≠ .persist w := nofun
    simp only [Availability.step] at ht
    split at ht
    next hphase =>
      have hidle : ∀ phase, IsOver (s.phase call) → IsOver phase := by
        rintro phase (hover | hover) <;> rw [hphase] at hover <;> cases hover
      split_ifs at ht
      · cases ht
        exact h.setPhase ha nofun (hidle _)
      · split at ht
        next waves hstart =>
          cases ht
          refine h.setPhase ha ?_ (hidle _)
          intro _ _ _ heq
          cases heq
          exact .start hstart
        next =>
          cases ht
          exact h.setPhase ha nofun (hidle _)
    next => cases ht
  | invoke call item => exact h.attempt (by simp) ht
  | expire call item => exact h.attempt (by simp) ht
  | nextWave call =>
    have ha : ∀ w, Action.nextWave call ≠ .persist w := nofun
    simp only [Availability.step] at ht
    split at ht
    next wave waves attempts outcomes hphase =>
      have hbusy : ∀ phase, IsOver (s.phase call) → IsOver phase := by
        rintro phase (hover | hover) <;> rw [hphase] at hover <;> cases hover
      split_ifs at ht
      split at ht
      next ended hended =>
        cases ht
        refine h.setPhase ha ?_ (hbusy _)
        intro _ _ _ heq
        cases heq
        exact (h.continues call (wave :: waves) attempts outcomes hphase).next hended
      next =>
        cases ht
        exact h.setPhase ha nofun (hbusy _)
    next => cases ht
  | persist call =>
    simp only [Availability.step] at ht
    split at ht
    next attempts outcomes hphase =>
      split_ifs at ht with hempty hruns hsame hverifying
      · cases ht
        exact h.persist hphase hruns hsame.2 (fun _ => rfl) rfl
      · cases ht
        exact h.persist hphase hempty rfl (fun hne => absurd hne hruns) rfl
    next => cases ht
  | finalize call =>
    simp only [Availability.step] at ht
    split at ht
    next hphase =>
      obtain ⟨_, rfl⟩ := guarded_eq_some.mp ht
      have hsame : { s with verifying := false } =
          ({ s with verifying := false } : State).setPhase call (s.phase call) := by
        rw [State.setPhase, Function.update_eq_self]
      rw [hsame]
      refine Invariant.setPhase ?_ (by simp) (h.continues call) id
      exact ⟨h.continues, h.ended, h.nothing, h.persisted, h.someone⟩
    next => cases ht
  | fail call =>
    cases ht
    exact h.setPhase (by simp) nofun (fun _ => Or.inr rfl)

theorem invariant_run {actions : List Action}
    (hrun : run (step handlers claims p) dispatched actions = some s) :
    Invariant handlers claims p actions s := by
  have h := run_invariant_past (I := Invariant handlers claims p) (fun _ _ _ _ h ht => h.step ht)
    invariant_dispatched hrun
  rwa [List.nil_append] at h

theorem attempt_eq_some {s t : State} {item : DispatchItem} {expired : Bool}
    (h : attempt handlers claims s call item expired = some t) :
    ∃ waves attempts outcomes, s.phase call = .executing waves attempts outcomes ∧
      answersFrom claims s item
        ((handlers call).invoke item (attempts item.dispatchItemId + 1)) = true := by
  unfold attempt at h
  split at h
  next wave waves attempts outcomes hphase =>
    obtain ⟨⟨_, _, hanswers⟩, _⟩ := guarded_eq_some.mp h
    exact ⟨wave :: waves, attempts, outcomes, hphase, hanswers⟩
  next => cases h

variable (handlers claims p) in
/-- Before, another call with a C6 result for the claim has persisted. -/
def Overtaken (past : List Action) (call : ℕ) (claim : Claim) : Prop :=
  ∃ other, other ≠ call ∧ .persist other ∈ past ∧ ProducesC6 handlers claims p other claim

theorem Invariant.available_iff {claim : Claim}
    (h : Invariant handlers claims p past s) (hexecuting : ¬ IsOver (s.phase call)) :
    (∃ result, loadC6Result s.results claim.claimId = .ok result) ↔
      Overtaken handlers claims p past call claim := by
  rw [loadC6Result_iff]
  constructor
  · rintro ⟨result, hresult, hid, hmodule⟩
    have hsome : ∃ other, .persist other ∈ past := by
      by_contra hnone
      rw [not_exists] at hnone
      rw [h.nothing hnone] at hresult
      cases hresult
    obtain ⟨other, hother⟩ := hsome
    obtain ⟨_, bundle, hbundle, hresults⟩ := h.persisted other hother
    refine ⟨other, ?_, hother, bundle, hbundle, result, hresults ▸ hresult, hid, hmodule⟩
    rintro rfl
    exact hexecuting (h.ended other hother)
  · rintro ⟨other, _, hother, bundle, hbundle, result, hresult, hid, hmodule⟩
    obtain ⟨_, bundle', hbundle', hresults⟩ := h.persisted other hother
    have hsame : bundle' = bundle := Except.ok.inj (hbundle'.symm.trans hbundle)
    refine ⟨result, ?_, hid, hmodule⟩
    rw [hresults, hsame]
    exact hresult

/-- **Available through another call only.** In any run of the verification, C11 finds the C6 result
of its claim exactly when another call has persisted one; otherwise a finding of C11 is `UNSAFE` for
that reason. -/
theorem c6_available_iff {dispatchItemId : ℕ → VerificationModule → ℕ} {level : Claim → RiskLevel}
    {past rest : List Action} {call : ℕ} {claim : Claim} {s : State} (hclaim : claim ∈ claims)
    (hcode : claim.claimKind = .CODE)
    (hrun : run (step handlers claims p) dispatched (past ++
      .invoke call (claimItem dispatchItemId (score level claim) .C11_COMPLIANCE) :: rest) = some s) :
    ∃ t, run (step handlers claims p) dispatched past = some t ∧
      ((∃ result, loadC6Result t.results claim.claimId = .ok result) ↔
        Overtaken handlers claims p past call claim) ∧
      (¬ Overtaken handlers claims p past call claim →
        ∃ waves attempts outcomes, t.phase call = .executing waves attempts outcomes ∧
          ∀ f, (handlers call).invoke (claimItem dispatchItemId (score level claim) .C11_COMPLIANCE)
              (attempts (dispatchItemId claim.claimId .C11_COMPLIANCE) + 1) = .finding f →
            f.verdict = .UNSAFE ∧ f.findingCodes = ["C11_HANDLER_VALIDATION_FAILED"]) := by
  obtain ⟨t, ht, hrest⟩ := run_append_eq_some.mp hrun
  obtain ⟨u, hu, _⟩ := run_cons_eq_some.mp hrest
  obtain ⟨waves, attempts, outcomes, hphase, hanswers⟩ := attempt_eq_some hu
  have hexecuting : ¬ IsOver (t.phase call) := by
    rintro (hover | hover) <;> rw [hphase] at hover <;> cases hover
  have havailable : (∃ result, loadC6Result t.results claim.claimId = .ok result) ↔
      Overtaken handlers claims p past call claim := (invariant_run ht).available_iff hexecuting
  refine ⟨t, ht, havailable, fun hnot => ⟨waves, attempts, outcomes, hphase, fun f hf => ?_⟩⟩
  have hmissing : loadC6Result t.results claim.claimId =
      .error (.valueError "C11 persisted C6 result is unavailable") := by
    rw [← havailable] at hnot
    unfold loadC6Result at hnot ⊢
    cases hlatest : latestByModule (resultsOf t.results claim.claimId) .C6_CODE with
    | none => rfl
    | some result => exact absurd ⟨result, by rw [hlatest]⟩ hnot
  change answersFrom claims t _ ((handlers call).invoke _
    (attempts (dispatchItemId claim.claimId .C11_COMPLIANCE) + 1)) = true at hanswers
  rw [hf, answersFrom] at hanswers
  change (match complianceAnswer t.results claim.claimId with
    | none => true
    | some answer => decide _) = true at hanswers
  rw [complianceAnswer, hmissing] at hanswers
  obtain ⟨hverdict, _, hcodes⟩ := of_decide_eq_true hanswers ⟨rfl, claim, hclaim, rfl, hcode⟩
  refine ⟨hverdict, hcodes.trans ?_⟩
  decide

end calls

/-! ### One call and two -/

def codeClaim : Claim := { sampleClaim with claimKind := .CODE }

/-- C11 cannot load the C6 result, the other modules support the claim. -/
def codeHandlers : Handlers where
  registered _ := true
  invoke item _ :=
    if item.module = .C11_COMPLIANCE then
      .finding ⟨.UNSAFE, [], ["C11_HANDLER_VALIDATION_FAILED"], nofun⟩
    else .finding (sampleFinding .SUPPORTED)
  completedAt _ attempt := attempt
  moduleResultId item attempt := 10 * item.dispatchItemId + attempt

def codeItem (module : VerificationModule) : DispatchItem :=
  claimItem sampleItemId (score (fun _ => .HIGH) codeClaim) module

/-- One call up to the end of C6. -/
def beforeC11 : List Action :=
  [.read 0, .invoke 0 (codeItem .C2_RAG), .nextWave 0, .invoke 0 (codeItem .C6_CODE)]

/-- Another call from its start to its end. -/
def secondCall : List Action :=
  [.read 1, .invoke 1 (codeItem .C2_RAG), .nextWave 1, .invoke 1 (codeItem .C6_CODE),
    .invoke 1 (codeItem .C9_SECURITY), .invoke 1 (codeItem .C10_PRIVACY), .invoke 1 (codeItem .C11_COMPLIANCE),
    .nextWave 1, .persist 1]

theorem code_run : ∃ p bundle t s s',
    plan sampleItemId [codeClaim] (scoreAll (fun _ => .HIGH) [codeClaim]) = .ok p ∧
      execute codeHandlers p [codeClaim] = .ok bundle ∧
      (∃ result ∈ bundle.results, result.claimId = 1 ∧ result.module = .C6_CODE) ∧
      run (step (fun _ => codeHandlers) [codeClaim] p) dispatched beforeC11 = some t ∧
      t.results = [] ∧
      run (step (fun _ => codeHandlers) [codeClaim] p) dispatched
        (beforeC11 ++ [.invoke 0 (codeItem .C11_COMPLIANCE)]) = some s ∧
      run (step (fun _ => codeHandlers) [codeClaim] p) dispatched
        (beforeC11 ++ secondCall ++ [.invoke 0 (codeItem .C11_COMPLIANCE)]) = some s' := by
  have hrun : (plan sampleItemId [codeClaim] (scoreAll (fun _ => .HIGH) [codeClaim])).toOption.map
      (fun p => ((execute codeHandlers p [codeClaim]).toOption.map
          (fun bundle => decide (∃ result ∈ bundle.results, result.claimId = 1 ∧
            result.module = .C6_CODE)),
        (run (step (fun _ => codeHandlers) [codeClaim] p) dispatched beforeC11).map
          (fun t => decide (t.results = [])),
        (run (step (fun _ => codeHandlers) [codeClaim] p) dispatched
          (beforeC11 ++ [.invoke 0 (codeItem .C11_COMPLIANCE)])).isSome,
        (run (step (fun _ => codeHandlers) [codeClaim] p) dispatched
          (beforeC11 ++ secondCall ++ [.invoke 0 (codeItem .C11_COMPLIANCE)])).isSome)) =
      some (some true, some true, true, true) := by decide +kernel
  obtain ⟨p, hp, hfacts⟩ := Option.map_eq_some_iff.mp hrun
  obtain ⟨hexecute, hfacts⟩ := Prod.mk.inj hfacts
  obtain ⟨hbefore, hfacts⟩ := Prod.mk.inj hfacts
  obtain ⟨hsome, hsome'⟩ := Prod.mk.inj hfacts
  obtain ⟨bundle, hbundle, hc6⟩ := Option.map_eq_some_iff.mp hexecute
  obtain ⟨t, ht, hresults⟩ := Option.map_eq_some_iff.mp hbefore
  obtain ⟨s, hs⟩ := Option.isSome_iff_exists.mp hsome
  obtain ⟨s', hs'⟩ := Option.isSome_iff_exists.mp hsome'
  exact ⟨p, bundle, t, s, s', eq_ok_of_toOption hp, eq_ok_of_toOption hbundle, of_decide_eq_true hc6, ht,
    of_decide_eq_true hresults, hs, hs'⟩

/-- C11 of the first call finds a result once the second call has ended. -/
theorem c6_available_iff_twoCalls : ∃ p t t',
    plan sampleItemId [codeClaim] (scoreAll (fun _ => .HIGH) [codeClaim]) = .ok p ∧
      run (step (fun _ => codeHandlers) [codeClaim] p) dispatched beforeC11 = some t ∧
      ((∃ result, loadC6Result t.results codeClaim.claimId = .ok result) ↔
        Overtaken (fun _ => codeHandlers) [codeClaim] p beforeC11 0 codeClaim) ∧
      run (step (fun _ => codeHandlers) [codeClaim] p) dispatched (beforeC11 ++ secondCall) = some t' ∧
      ∃ result, loadC6Result t'.results codeClaim.claimId = .ok result := by
  obtain ⟨p, bundle, _, _, _, hp, hbundle, hc6, _, _, hrun, hrun'⟩ := code_run
  obtain ⟨t, ht, hiff, _⟩ := c6_available_iff List.mem_cons_self rfl hrun
  obtain ⟨t', ht', hiff', _⟩ := c6_available_iff List.mem_cons_self rfl hrun'
  exact ⟨p, t, t', hp, ht, hiff, ht', hiff'.mpr ⟨1, by decide, by simp [secondCall], bundle, hbundle, hc6⟩⟩

/-- C6 has a result for the claim, and C11 does not find it. -/
theorem c6_unavailable_alone : ∃ p bundle t s,
    plan sampleItemId [codeClaim] (scoreAll (fun _ => .HIGH) [codeClaim]) = .ok p ∧
      execute codeHandlers p [codeClaim] = .ok bundle ∧
      (∃ result ∈ bundle.results, result.claimId = codeClaim.claimId ∧ result.module = .C6_CODE) ∧
      run (step (fun _ => codeHandlers) [codeClaim] p) dispatched beforeC11 = some t ∧
      run (step (fun _ => codeHandlers) [codeClaim] p) dispatched
        (beforeC11 ++ [.invoke 0 (codeItem .C11_COMPLIANCE)]) = some s ∧
      loadC6Result t.results codeClaim.claimId =
        .error (.valueError "C11 persisted C6 result is unavailable") := by
  obtain ⟨p, bundle, t, s, _, hp, hbundle, hc6, ht, hresults, hs, _⟩ := code_run
  refine ⟨p, bundle, t, s, hp, hbundle, hc6, ht, hs, ?_⟩
  rw [hresults]
  rfl

end CyberControl.Availability
