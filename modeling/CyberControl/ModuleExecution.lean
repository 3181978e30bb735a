import CyberControl.ModuleDispatch

/-! # Execution of a dispatch plan

`BoundedModuleExecutor` (`verification/execution.py`) under every behaviour of the handlers: which
modules have one, and what each attempt of an item comes to.  The bound on parallelism, the backoff
and the clocks of the runs are left out. -/

namespace CyberControl.Verification

open Collections Scheduling

/-! ### Items -/

/-- `ModuleFinding` with its `__post_init__`. -/
structure ModuleFinding where
  verdict : VerificationVerdict
  evidenceRefIds : List ℕ
  findingCodes : List String
  supported_evidence : verdict = .SUPPORTED → evidenceRefIds ≠ []

/-- What `_invoke` comes to. -/
inductive Invocation where
  | finding (f : ModuleFinding)
  | deadlineExpired
  | timedOut
  | handlerError

inductive ModuleRunState where
  | PENDING
  | RUNNING
  | SUCCEEDED
  | FAILED
  | TIMED_OUT
  | SKIPPED
deriving DecidableEq, Repr

/-- `ModuleRunV1`. -/
structure ModuleRun where
  dispatchItemId : ℕ
  claimId : ℕ
  module : VerificationModule
  state : ModuleRunState
  attempt : ℕ
  versionCas : ℕ
  errorCode : Option String
deriving DecidableEq

/-- The handlers: which modules have one, what each attempt comes to and when it completes, and the
identifier `uuid5` that its result gets. -/
structure Handlers where
  registered : VerificationModule → Bool
  invoke : DispatchItem → ℕ → Invocation
  completedAt : DispatchItem → ℕ → ℕ
  moduleResultId : DispatchItem → ℕ → ℕ

structure ItemOutcome where
  dispatchItemId : ℕ
  runs : List ModuleRun
  result : Option ModuleRunResult

/-- `_run`. -/
def moduleRun (item : DispatchItem) (versionCas attempt : ℕ) (state : ModuleRunState)
    (errorCode : Option String) : ModuleRun where
  dispatchItemId := item.dispatchItemId
  claimId := item.claimId
  module := item.module
  state
  attempt
  versionCas
  errorCode

variable (handlers : Handlers) (verificationId : ℕ)

/-- `_result`, of the third version of the attempt's run. -/
def moduleResult (item : DispatchItem) (attempt : ℕ) (finding : ModuleFinding) :
    Except Exn ModuleRunResult :=
  if h : finding.evidenceRefIds.length ≤ 512 ∧ finding.findingCodes.length ≤ 128 then
    .ok
      { moduleResultId := handlers.moduleResultId item attempt
        verificationId := verificationId
        claimId := item.claimId
        module := item.module
        verdict := finding.verdict
        versionCas := 3
        createdAt := handlers.completedAt item attempt
        evidenceRefIds := finding.evidenceRefIds
        findingCodes := finding.findingCodes
        versionCas_pos := Nat.le_add_left 1 2
        evidenceRefIds_length := h.1
        findingCodes_length := h.2
        supported_evidence := finding.supported_evidence }
  else .error (.validationError ["evidence_ref_ids", "finding_codes"])

def attemptRuns (item : DispatchItem) (attempt : ℕ) (state : ModuleRunState)
    (errorCode : Option String) : List ModuleRun :=
  [moduleRun item 1 attempt .PENDING none, moduleRun item 2 attempt .RUNNING none,
    moduleRun item 3 attempt state errorCode]

/-- The attempts of `_execute_item` that are left, from `attempt` on. -/
def attemptsFrom (item : DispatchItem) : ℕ → ℕ → List ModuleRun → Except Exn ItemOutcome
  | 0, _, runs => .ok ⟨item.dispatchItemId, runs, none⟩
  | left + 1, attempt, runs =>
    match handlers.invoke item attempt with
    | .finding f => do
      let result ← moduleResult handlers verificationId item attempt f
      return ⟨item.dispatchItemId, runs ++ attemptRuns item attempt .SUCCEEDED none, some result⟩
    | .deadlineExpired =>
      attemptsFrom item left (attempt + 1)
        (runs ++ attemptRuns item attempt .TIMED_OUT (some "VERIFICATION_DEADLINE_EXPIRED"))
    | .timedOut =>
      attemptsFrom item left (attempt + 1)
        (runs ++ attemptRuns item attempt .TIMED_OUT (some "MODULE_TIMEOUT"))
    | .handlerError =>
      attemptsFrom item left (attempt + 1)
        (runs ++ attemptRuns item attempt .FAILED (some "MODULE_HANDLER_ERROR"))

def handlerMissing (item : DispatchItem) : ItemOutcome :=
  ⟨item.dispatchItemId, [moduleRun item 1 0 .FAILED (some "MODULE_HANDLER_MISSING")], none⟩

def skipped (item : DispatchItem) : ItemOutcome :=
  ⟨item.dispatchItemId, [moduleRun item 1 0 .SKIPPED (some "MODULE_DEPENDENCY_FAILED")], none⟩

def executeItem (item : DispatchItem) : Except Exn ItemOutcome :=
  if handlers.registered item.module then attemptsFrom handlers verificationId item item.maxAttempts 1 []
  else .ok (handlerMissing item)

def executeOrSkip (successful : List ℕ) (item : DispatchItem) : Except Exn ItemOutcome :=
  if ∀ dependency ∈ item.dependencyItemIds, dependency ∈ successful then
    executeItem handlers verificationId item
  else .ok (skipped item)

/-! ### Plans -/

/-- The items of the outcomes with a result. -/
def successfulItems (outcomes : List ItemOutcome) : List ℕ :=
  (outcomes.filter (·.result.isSome)).map (·.dispatchItemId)

/-- The loop of `execute` over the waves. -/
def executeWaves : List (List DispatchItem) → List ℕ → Except Exn (List ItemOutcome)
  | [], _ => .ok []
  | wave :: waves, successful => do
    let outcomes ← wave.mapM (executeOrSkip handlers verificationId successful)
    let rest ← executeWaves waves (successful ++ successfulItems outcomes)
    return outcomes ++ rest

structure ModuleExecutionBundle where
  runSnapshots : List ModuleRun
  results : List ModuleRunResult

def execute (plan : DispatchPlan) (claims : List Claim) : Except Exn ModuleExecutionBundle :=
  if ¬ ((∀ claimId ∈ plan.claimIds, claimId ∈ claims.map (·.claimId)) ∧
      ∀ claim ∈ claims, claim.claimId ∈ plan.claimIds) then
    .error (.valueError "dispatch plan and claim set differ")
  else do
    let waves ← executionWaves plan.items
    let outcomes ← executeWaves handlers plan.verificationId waves []
    let ordered := sortBy
      (fun outcome => (plan.items.map (·.dispatchItemId)).idxOf outcome.dispatchItemId) outcomes
    return ⟨ordered.flatMap (·.runs), ordered.filterMap (·.result)⟩

/-! ### What the bundle holds -/

variable {handlers} {verificationId}

/-- The outcome is one of the item, and so is its result. -/
structure OutcomeOf (verificationId : ℕ) (item : DispatchItem) (outcome : ItemOutcome) : Prop where
  dispatchItemId_eq : outcome.dispatchItemId = item.dispatchItemId
  result_eq : ∀ result ∈ outcome.result, result.verificationId = verificationId ∧
    result.claimId = item.claimId ∧ result.module = item.module

theorem attemptsFrom_ok {item : DispatchItem} {left attempt : ℕ} {runs : List ModuleRun}
    {outcome : ItemOutcome}
    (h : attemptsFrom handlers verificationId item left attempt runs = .ok outcome) :
    OutcomeOf verificationId item outcome := by
  induction left generalizing attempt runs with
  | zero =>
    cases h
    exact ⟨rfl, by simp⟩
  | succ left ih =>
    rw [attemptsFrom] at h
    split at h
    · obtain ⟨result, hresult, h⟩ := bind_eq_ok.mp h
      cases h
      refine ⟨rfl, ?_⟩
      rintro r ⟨⟩
      unfold moduleResult at hresult
      split_ifs at hresult
      cases hresult
      exact ⟨rfl, rfl, rfl⟩
    · exact ih h
    · exact ih h
    · exact ih h

theorem executeOrSkip_ok {successful : List ℕ} {item : DispatchItem} {outcome : ItemOutcome}
    (h : executeOrSkip handlers verificationId successful item = .ok outcome) :
    OutcomeOf verificationId item outcome ∧
      (outcome.result.isSome → ∀ dependency ∈ item.dependencyItemIds, dependency ∈ successful) := by
  unfold executeOrSkip executeItem at h
  split_ifs at h with hdependencies
  · exact ⟨attemptsFrom_ok h, fun _ => hdependencies⟩
  · cases h
    exact ⟨⟨rfl, by simp [handlerMissing]⟩, fun _ => hdependencies⟩
  · cases h
    exact ⟨⟨rfl, by simp [skipped]⟩, by simp [skipped]⟩

theorem mem_successfulItems {outcomes : List ItemOutcome} {id : ℕ} :
    id ∈ successfulItems outcomes ↔
      ∃ outcome ∈ outcomes, outcome.result.isSome ∧ outcome.dispatchItemId = id := by
  simp [successfulItems, and_assoc]

/-- The outcomes of the waves, one for each item, in order; a result comes after those of the
items it depends on. -/
theorem executeWaves_ok {waves : List (List DispatchItem)} {successful : List ℕ}
    {outcomes : List ItemOutcome}
    (h : executeWaves handlers verificationId waves successful = .ok outcomes) :
    List.Forall₂ (fun item outcome => OutcomeOf verificationId item outcome ∧
      (outcome.result.isSome → ∀ dependency ∈ item.dependencyItemIds,
        dependency ∈ successful ++ successfulItems outcomes)) waves.flatten outcomes := by
  induction waves generalizing successful outcomes with
  | nil =>
    cases h
    exact .nil
  | cons wave waves ih =>
    obtain ⟨first, hfirst, h⟩ := bind_eq_ok.mp h
    obtain ⟨rest, hrest, h⟩ := bind_eq_ok.mp h
    cases h
    have happend : successfulItems (first ++ rest) = successfulItems first ++ successfulItems rest := by
      simp [successfulItems]
    rw [List.flatten_cons, happend]
    refine List.rel_append ?_ ?_
    · refine (mapM_eq_ok.mp hfirst).imp ?_
      intro item outcome hitem
      obtain ⟨houtcome, hdependencies⟩ := executeOrSkip_ok hitem
      exact ⟨houtcome, fun hsome d hd => List.mem_append_left _ (hdependencies hsome d hd)⟩
    · refine (ih hrest).imp ?_
      rintro item outcome ⟨houtcome, hdependencies⟩
      refine ⟨houtcome, fun hsome d hd => ?_⟩
      have := hdependencies hsome d hd
      simp only [List.mem_append] at this ⊢
      tauto

/-- The results of a bundle: each belongs to a module of a claim, no other does, and the retrieval
of that claim has its result too. -/
structure Executed (verificationId : ℕ) (claims : List Claim) (results : List ModuleRunResult) :
    Prop where
  verificationId_eq : ∀ result ∈ results, result.verificationId = verificationId
  retrieved : ∀ result ∈ results, ∃ claim ∈ claims, result.claimId = claim.claimId ∧
    result.module ∈ mandatoryModules claim.claimKind ∧
    ∃ retrieval ∈ results, retrieval.claimId = claim.claimId ∧ retrieval.module = .C2_RAG
  unique : ∀ r ∈ results, ∀ s ∈ results, r.claimId = s.claimId → r.module = s.module → r = s

variable {claims : List Claim}

theorem Planned.claimItem_inj {dispatchItemId : ℕ → VerificationModule → ℕ} {level : Claim → RiskLevel}
    {p : DispatchPlan} (hplan : Planned dispatchItemId level claims p)
    {claim claim' : Claim} (hclaim : claim ∈ claims) (hclaim' : claim' ∈ claims)
    {module module' : VerificationModule} (hmodule : module ∈ mandatoryModules claim.claimKind)
    (hmodule' : module' ∈ mandatoryModules claim'.claimKind)
    (hid : dispatchItemId claim'.claimId module' = dispatchItemId claim.claimId module) :
    claim'.claimId = claim.claimId ∧ module' = module := by
  have hitems : claimItem dispatchItemId (score level claim') module' =
      claimItem dispatchItemId (score level claim) module := by
    refine List.inj_on_of_nodup_map hplan.itemIds_nodup ?_ ?_ hid
    · exact (hplan.items_iff _).mpr ⟨claim', hclaim', module', hmodule', rfl⟩
    · exact (hplan.items_iff _).mpr ⟨claim, hclaim, module, hmodule, rfl⟩
  exact ⟨congrArg DispatchItem.claimId hitems, congrArg DispatchItem.module hitems⟩

theorem execute_ok {dispatchItemId : ℕ → VerificationModule → ℕ} {level : Claim → RiskLevel}
    {p : DispatchPlan} {bundle : ModuleExecutionBundle}
    (hplan : Planned dispatchItemId level claims p) (h : execute handlers p claims = .ok bundle) :
    Executed p.verificationId claims bundle.results := by
  unfold execute at h
  split_ifs at h
  obtain ⟨waves, hwaves, h⟩ := bind_eq_ok.mp h
  obtain ⟨outcomes, houtcomes, h⟩ := bind_eq_ok.mp h
  cases h
  have hperm : waves.flatten.Perm p.items := by
    unfold executionWaves at hwaves
    dsimp only at hwaves
    split_ifs at hwaves
    exact wavesFrom_perm (le_refl _) hwaves
  have hforall := executeWaves_ok houtcomes
  have hids : outcomes.map (·.dispatchItemId) = waves.flatten.map (·.dispatchItemId) := by
    rw [← List.forall₂_eq_eq_eq, List.forall₂_map_left_iff, List.forall₂_map_right_iff]
    exact (hforall.imp fun _ _ hitem => hitem.1.dispatchItemId_eq).flip
  have hnodup : (outcomes.map (·.dispatchItemId)).Nodup := by
    rw [hids]
    exact (hperm.map _).nodup_iff.mpr hplan.itemIds_nodup
  have hmem : ∀ {r}, r ∈ (sortBy (fun o => (p.items.map (·.dispatchItemId)).idxOf o.dispatchItemId)
      outcomes).filterMap (·.result) ↔ ∃ o ∈ outcomes, o.result = some r := by
    simp
  -- the item of an outcome, its claim and its module
  have hitem : ∀ o ∈ outcomes, ∀ r, o.result = some r → ∃ claim ∈ claims,
      ∃ module ∈ mandatoryModules claim.claimKind,
        o.dispatchItemId = dispatchItemId claim.claimId module ∧
        (r.verificationId = p.verificationId ∧ r.claimId = claim.claimId ∧ r.module = module) ∧
        ∀ dependency ∈ dependencies (dispatchItemId claim.claimId) (mandatoryModules claim.claimKind)
          module, dependency ∈ successfulItems outcomes := by
    intro o ho r hr
    obtain ⟨item, hi, houtcome, hdependencies⟩ := exists_of_mem_right hforall ho
    obtain ⟨claim, hclaim, module, hmodule, rfl⟩ := (hplan.items_iff item).mp (hperm.mem_iff.mp hi)
    refine ⟨claim, hclaim, module, hmodule, houtcome.dispatchItemId_eq, houtcome.result_eq r hr, ?_⟩
    exact hdependencies (Option.isSome_of_mem hr)
  have hsame : ∀ c ∈ claims, ∀ c' ∈ claims, c.claimId = c'.claimId → c = c' :=
    fun c hc c' hc' => List.inj_on_of_nodup_map hplan.claimIds_nodup hc hc'
  constructor
  · intro r hr
    obtain ⟨o, ho, hr⟩ := hmem.mp hr
    obtain ⟨_, _, _, _, _, ⟨hverification, _⟩, _⟩ := hitem o ho r hr
    exact hverification
  · intro r hr
    obtain ⟨o, ho, hr'⟩ := hmem.mp hr
    obtain ⟨claim, hclaim, module, hmodule, _, ⟨_, hid, rfl⟩, hdependencies⟩ := hitem o ho r hr'
    refine ⟨claim, hclaim, hid, hmodule, ?_⟩
    by_cases hrag : r.module = .C2_RAG
    · exact ⟨r, hr, hid, hrag⟩
    · have hin : dispatchItemId claim.claimId .C2_RAG ∈ successfulItems outcomes := by
        apply hdependencies
        rw [dependencies, if_pos ⟨hrag, List.mem_cons_self⟩]
        exact List.mem_singleton_self _
      obtain ⟨o', ho', hsome, hid'⟩ := mem_successfulItems.mp hin
      obtain ⟨r', hr'⟩ := Option.isSome_iff_exists.mp hsome
      obtain ⟨claim', hclaim', module', hmodule', ho'id, ⟨_, hr'id, hr'm⟩, _⟩ := hitem o' ho' r' hr'
      obtain ⟨hclaims, hmodules⟩ := hplan.claimItem_inj hclaim hclaim' List.mem_cons_self hmodule'
        (ho'id.symm.trans hid')
      exact ⟨r', hmem.mpr ⟨o', ho', hr'⟩, hr'id.trans hclaims, hr'm.trans hmodules⟩
  · intro r hr s hs hid hmodule
    obtain ⟨o, ho, hr'⟩ := hmem.mp hr
    obtain ⟨o', ho', hs'⟩ := hmem.mp hs
    obtain ⟨c, hc, m, _, hoid, ⟨_, hrid, rfl⟩, _⟩ := hitem o ho r hr'
    obtain ⟨c', hc', m', _, hoid', ⟨_, hsid, rfl⟩, _⟩ := hitem o' ho' s hs'
    have hcc : c = c' := hsame c hc c' hc' (hrid.symm.trans (hid.trans hsid))
    have hoo : o = o' := by
      refine List.inj_on_of_nodup_map hnodup ho ho' ?_
      rw [hoid, hoid', hcc, hmodule]
    rw [hoo] at hr'
    exact Option.some.inj (hr'.symm.trans hs')

/-! ### Aggregation over a bundle -/

variable {results : List ModuleRunResult}

theorem mem_resultsOf {claimId : ℕ} {r : ModuleRunResult} :
    r ∈ resultsOf results claimId ↔ r ∈ results ∧ r.claimId = claimId := by
  simp [resultsOf]

variable {claim : Claim}

theorem Executed.mem_selected {verificationId : ℕ}
    (h : Executed verificationId claims results)
    (hclaims : (claims.map (·.claimId)).Nodup) (hclaim : claim ∈ claims)
    (level : Claim → RiskLevel) (r : ModuleRunResult) :
    r ∈ selectedResults (score level claim) (resultsOf results claim.claimId) ↔
      r ∈ resultsOf results claim.claimId := by
  rw [mem_selectedResults]
  constructor
  · rintro ⟨module, _, hlatest⟩
    exact (isLatest_of_latestBy hlatest).mem
  · intro hr
    obtain ⟨hmem, hid⟩ := mem_resultsOf.mp hr
    obtain ⟨claim', hclaim', hid', hmodule, _⟩ := h.retrieved r hmem
    have heq : claim' = claim :=
      List.inj_on_of_nodup_map hclaims hclaim' hclaim (hid'.symm.trans hid)
    have hunique : ∀ s ∈ resultsOf results claim.claimId, s.module = r.module → s = r := by
      intro s hs hsm
      obtain ⟨hs, hsid⟩ := mem_resultsOf.mp hs
      exact h.unique s hs r hmem (hsid.trans hid.symm) hsm
    refine ⟨r.module, heq ▸ hmodule, ?_⟩
    rcases @latestBy_cases _ _ _ _ _ (·.module) resultOrder (resultsOf results claim.claimId) r.module
      with ⟨_, hne⟩ | ⟨s, hs, hlatest⟩
    · exact absurd rfl (hne r hr)
    · exact hs.trans (congrArg some (hunique s hlatest.mem hlatest.key_eq))

theorem Executed.claimVerdict_iff {verificationId : ℕ}
    (h : Executed verificationId claims results)
    (hclaims : (claims.map (·.claimId)).Nodup) (hclaim : claim ∈ claims)
    (level : Claim → RiskLevel) :
    (∃ v, claimVerdict claim (score level claim) (resultsOf results claim.claimId) = .ok v) ↔
      (∃ r ∈ results, r.claimId = claim.claimId ∧ r.module = .C2_RAG) ∧
        (sortedSet ((resultsOf results claim.claimId).flatMap (·.evidenceRefIds))).length ≤ 1024 ∧
        (sortedSet (reasonCodes (score level claim) (resultsOf results claim.claimId))).length ≤ 128 := by
  have hselected := h.mem_selected hclaims hclaim level
  have hevidence : sortedSet ((selectedResults (score level claim)
      (resultsOf results claim.claimId)).flatMap (·.evidenceRefIds)) =
      sortedSet ((resultsOf results claim.claimId).flatMap (·.evidenceRefIds)) := by
    apply sortedSet_congr
    intro a
    simp only [List.mem_flatMap, hselected]
  have hfive : (score level claim).mandatoryModules.length ≤ 32 := by
    change 5 ≤ 32
    omega
  rw [exists_claimVerdict_iff hfive, hevidence]
  refine and_congr_left fun _ => ?_
  constructor
  · intro hne
    obtain ⟨r, hr⟩ := List.exists_mem_of_ne_nil _ hne
    obtain ⟨hr, hid⟩ := mem_resultsOf.mp ((hselected r).mp hr)
    obtain ⟨claim', _, hid', _, r', hr', hrid', hrm'⟩ := h.retrieved r hr
    exact ⟨r', hr', hrid'.trans (hid'.symm.trans hid), hrm'⟩
  · rintro ⟨r, hr, hid, _⟩
    exact List.ne_nil_of_mem ((hselected r).mpr (mem_resultsOf.mpr ⟨hr, hid⟩))

/-- A verdict that is an error or unsafe keeps the candidate from being released. -/
theorem not_released {policy : AggregationPolicy} {risks : List ClaimRisk}
    {verdicts : List ClaimVerdict} {revisionRound : ℤ} {v : ClaimVerdict} (hv : v ∈ verdicts)
    (h : v.verdict = .UNSAFE ∨ v.verdict = .ERROR) :
    decision policy risks verdicts revisionRound ≠ .RELEASE ∧
      decision policy risks verdicts revisionRound ≠ .RELEASE_WITH_DISCLOSURE := by
  rcases h with h | h
  · rw [decision_eq_block hv (.inl h)]
    simp
  · have hcount : insufficientCount verdicts ≠ 0 := by
      have hpos : 0 < insufficientCount verdicts := List.countP_pos_iff.mpr ⟨v, hv, by simp [h]⟩
      omega
    unfold decision
    dsimp only
    split_ifs with hblock hcritical hrevise
    · simp
    · simp
    · unfold reviseOrReview
      split_ifs <;> simp
    all_goals exact absurd (.inr hcount) hrevise

section finalize
variable {dispatchItemId : ℕ → VerificationModule → ℕ} {level : Claim → RiskLevel}
  {policy : AggregationPolicy} {claims : List Claim} {p : DispatchPlan} {results : List ModuleRunResult}
  {revisionRound : ℤ}

theorem Executed.exists_aggregate_iff (h : Executed p.verificationId claims results)
    (hplan : Planned dispatchItemId level claims p) (hround : 0 ≤ revisionRound ∧ revisionRound ≤ 2)
    (hblocks : (claims.map (·.blockId)).dedup.length ≤ 2048) :
    (∃ out, aggregate policy claims (scoreAll level claims) results revisionRound = .ok out) ↔
      ∀ claim ∈ claims, ∃ v,
        claimVerdict claim (score level claim) (resultsOf results claim.claimId) = .ok v := by
  have hrisk : ∀ claim ∈ claims, verdictOf (scoreAll level claims) results claim =
      claimVerdict claim (score level claim) (resultsOf results claim.claimId) := by
    intro claim hclaim
    rw [verdictOf, riskByClaim_scoreAll hplan.claimIds_nodup hclaim]
  constructor
  · rintro ⟨⟨verdicts, aggregation⟩, hok⟩ claim hclaim
    obtain ⟨_, _, _, _, _, hverdicts, _⟩ := aggregate_ok.mp hok
    have hids : ((scoreAll level claims).map (·.claimId)).Nodup := by
      rw [scoreAll, List.map_map]
      exact hplan.claimIds_nodup
    obtain ⟨v, _, hv⟩ := exists_verdict hverdicts hids hclaim (List.mem_map_of_mem hclaim) rfl
    exact ⟨v, hv⟩
  · intro hall
    obtain ⟨candidate, hhead, hverification⟩ := hplan.first
    have hdraft : ∀ claim ∈ claims, verdictOf (scoreAll level claims) results claim =
        .ok (draftVerdict claim (score level claim) (resultsOf results claim.claimId)) := by
      intro claim hclaim
      obtain ⟨v, hv⟩ := hall claim hclaim
      rw [hrisk claim hclaim, hv, claimVerdict_ok hv]
    have hmapM := mapM_of_ok hdraft
    have hne : claims ≠ [] := by
      rintro rfl
      cases hhead
    refine ⟨_, aggregate_ok.mpr ⟨hround, ⟨?_, ?_⟩, candidate, hhead, ?_, mapM_eq_ok.mp hmapM,
      candidateDecision_total ⟨?_, ?_⟩ hblocks ?_ ?_⟩⟩
    · intro risk hrisk
      obtain ⟨claim, hclaim, rfl⟩ := List.mem_map.mp hrisk
      exact List.mem_map_of_mem hclaim
    · intro claim hclaim
      exact List.mem_map_of_mem (List.mem_map_of_mem hclaim)
    · intro r hr
      obtain ⟨claim, hclaim, hid, _⟩ := h.retrieved r hr
      have hknown : r.claimId ∈ (scoreAll level claims).map (·.claimId) := by
        rw [hid]
        exact List.mem_map_of_mem (List.mem_map_of_mem hclaim)
      have hsame : r.verificationId = candidate.verificationId :=
        (h.verificationId_eq r hr).trans hverification
      rw [checkResult, if_neg (not_not.mpr hknown), if_neg (not_not.mpr hsame)]
    · rw [List.length_map]
      exact List.length_pos_iff.mpr hne
    · rw [List.length_map]
      exact hplan.claims_length
    · intro v hv
      obtain ⟨claim, hclaim, rfl⟩ := List.mem_map.mp hv
      exact List.mem_map_of_mem hclaim
    · intro v hv
      obtain ⟨claim, _, rfl⟩ := List.mem_map.mp hv
      exact draftVerdict_disclosureCodes _ _ _

theorem Executed.verdict_of_missing (h : Executed p.verificationId claims results)
    (hplan : Planned dispatchItemId level claims p) (hclaim : claim ∈ claims)
    {module : VerificationModule} (hmodule : module ∈ mandatoryModules claim.claimKind)
    (hmissing : ∀ r ∈ results, r.claimId = claim.claimId → r.module ≠ module) :
    (draftVerdict claim (score level claim) (resultsOf results claim.claimId)).verdict =
      if ∃ r ∈ results, r.claimId = claim.claimId ∧ r.verdict = .UNSAFE then .UNSAFE else .ERROR := by
  have hnone : latestByModule (resultsOf results claim.claimId) module = none := by
    refine latestBy_eq_none.mpr fun r hr => ?_
    obtain ⟨hr, hid⟩ := mem_resultsOf.mp hr
    exact hmissing r hr hid
  have hmem : module ∈ missingModules (score level claim) (resultsOf results claim.claimId) :=
    List.mem_filter.mpr ⟨hmodule, by rw [hnone]; rfl⟩
  have hiff : (.UNSAFE ∈ (selectedResults (score level claim)
      (resultsOf results claim.claimId)).map (·.verdict)) ↔
      ∃ r ∈ results, r.claimId = claim.claimId ∧ r.verdict = .UNSAFE := by
    simp only [List.mem_map, h.mem_selected hplan.claimIds_nodup hclaim level, mem_resultsOf, and_assoc]
  unfold draftVerdict
  dsimp only
  rw [decide_eq_true (List.ne_nil_of_mem hmem), resolveVerdict_missing]
  exact if_congr hiff rfl rfl

end finalize

/-- Plan and execute. -/
def dispatch (dispatchItemId : ℕ → VerificationModule → ℕ) (level : Claim → RiskLevel)
    (handlers : Handlers) (claims : List Claim) : Except Exn ModuleExecutionBundle := do
  let p ← plan dispatchItemId claims (scoreAll level claims)
  execute handlers p claims

/-- **Finalization fails closed.** Aggregation over a bundle returns exactly when every claim has its
retrieval result and stays within the bounds of the contract; and a claim that lacks a result of a
mandatory module gets the verdict `ERROR`, or `UNSAFE` when one of its results is, and is not
released. -/
theorem execution_finalizes (dispatchItemId : ℕ → VerificationModule → ℕ) (level : Claim → RiskLevel)
    (handlers : Handlers) (policy : AggregationPolicy) (claims : List Claim)
    (bundle : ModuleExecutionBundle) (revisionRound : ℤ)
    (hround : 0 ≤ revisionRound ∧ revisionRound ≤ 2)
    (hblocks : (claims.map (·.blockId)).dedup.length ≤ 2048)
    (hdispatch : dispatch dispatchItemId level handlers claims = .ok bundle) :
    ((∃ out, aggregate policy claims (scoreAll level claims) bundle.results revisionRound = .ok out) ↔
      ∀ claim ∈ claims,
        (∃ r ∈ bundle.results, r.claimId = claim.claimId ∧ r.module = .C2_RAG) ∧
          (sortedSet ((resultsOf bundle.results claim.claimId).flatMap (·.evidenceRefIds))).length ≤ 1024 ∧
          (sortedSet (reasonCodes (score level claim)
            (resultsOf bundle.results claim.claimId))).length ≤ 128) ∧
    ∀ verdicts aggregation,
      aggregate policy claims (scoreAll level claims) bundle.results revisionRound =
        .ok (verdicts, aggregation) →
      ∀ claim ∈ claims, ∀ module ∈ mandatoryModules claim.claimKind,
        (∀ r ∈ bundle.results, r.claimId = claim.claimId → r.module ≠ module) →
          (∃ v ∈ verdicts, v.claimId = claim.claimId ∧ v.verdict =
            if ∃ r ∈ bundle.results, r.claimId = claim.claimId ∧ r.verdict = .UNSAFE then .UNSAFE
            else .ERROR) ∧
          aggregation.decision ≠ .RELEASE ∧ aggregation.decision ≠ .RELEASE_WITH_DISCLOSURE := by
  obtain ⟨p, hplan, hexecute⟩ := bind_eq_ok.mp hdispatch
  have hplanned := plan_ok hplan
  have hexecuted := execute_ok hplanned hexecute
  refine ⟨?_, ?_⟩
  · rw [hexecuted.exists_aggregate_iff hplanned hround hblocks]
    exact forall₂_congr fun claim hclaim =>
      hexecuted.claimVerdict_iff hplanned.claimIds_nodup hclaim level
  · intro verdicts aggregation hok claim hclaim module hmodule hmissing
    obtain ⟨_, _, candidate, _, _, hverdicts, hdecision⟩ := aggregate_ok.mp hok
    have hids : ((scoreAll level claims).map (·.claimId)).Nodup := by
      rw [scoreAll, List.map_map]
      exact hplanned.claimIds_nodup
    obtain ⟨v, hv, hclaimed⟩ := exists_verdict hverdicts hids hclaim (List.mem_map_of_mem hclaim) rfl
    have hverdict : v.verdict =
        if ∃ r ∈ bundle.results, r.claimId = claim.claimId ∧ r.verdict = .UNSAFE then .UNSAFE
        else .ERROR := by
      rw [claimVerdict_ok hclaimed]
      exact hexecuted.verdict_of_missing hplanned hclaim hmodule hmissing
    refine ⟨⟨v, hv, ?_, hverdict⟩, ?_⟩
    · rw [claimVerdict_ok hclaimed]
      rfl
    · rw [candidateDecision_ok hdecision]
      apply not_released hv
      rw [hverdict]
      split_ifs
      · exact .inl rfl
      · exact .inr rfl

/-! ### Three executions -/

/-- A finding with one piece of evidence. -/
def sampleFinding (verdict : VerificationVerdict) : ModuleFinding where
  verdict
  evidenceRefIds := [41]
  findingCodes := []
  supported_evidence := fun _ => List.cons_ne_nil _ _

/-- Handlers whose attempts fail for one module and find the verdict for the others. -/
def sampleHandlers (failing : VerificationModule) (verdict : VerificationModule → VerificationVerdict) :
    Handlers where
  registered _ := true
  invoke item _ :=
    if item.module = failing then .handlerError else .finding (sampleFinding (verdict item.module))
  completedAt _ attempt := attempt
  moduleResultId item attempt := 10 * item.dispatchItemId + attempt

def sampleItemId (claimId : ℕ) (module : VerificationModule) : ℕ := 10 * claimId + moduleOrder module

/-- The academic module of a claim fails: the claim is an error, and the candidate is not released. -/
theorem execution_finalizes_missing :
    ∃ bundle verdicts aggregation,
      dispatch sampleItemId (fun _ => .HIGH) (sampleHandlers .C3_ACADEMIC fun _ => .SUPPORTED)
        [sampleClaim] = .ok bundle ∧
      aggregate samplePolicy [sampleClaim] (scoreAll (fun _ => .HIGH) [sampleClaim]) bundle.results 0 =
        .ok (verdicts, aggregation) ∧
      (∃ v ∈ verdicts, v.claimId = 1 ∧ v.verdict =
        if ∃ r ∈ bundle.results, r.claimId = 1 ∧ r.verdict = .UNSAFE then .UNSAFE else .ERROR) ∧
      aggregation.decision ≠ .RELEASE ∧ aggregation.decision ≠ .RELEASE_WITH_DISCLOSURE := by
  have hrun : (dispatch sampleItemId (fun _ => .HIGH)
      (sampleHandlers .C3_ACADEMIC fun _ => .SUPPORTED) [sampleClaim]).toOption.map
        (fun bundle => (bundle.results.map (·.module),
          (aggregate samplePolicy [sampleClaim] (scoreAll (fun _ => .HIGH) [sampleClaim])
            bundle.results 0).toOption.isSome)) =
      some ([.C9_SECURITY, .C10_PRIVACY, .C2_RAG, .C11_COMPLIANCE], true) := by decide
  obtain ⟨bundle, hbundle, hfacts⟩ := Option.map_eq_some_iff.mp hrun
  obtain ⟨hmodules, hsome⟩ := Prod.mk.inj hfacts
  obtain ⟨out, hout⟩ := Option.isSome_iff_exists.mp hsome
  have hdispatch := eq_ok_of_toOption hbundle
  have haggregate := eq_ok_of_toOption hout
  obtain ⟨_, hincomplete⟩ := execution_finalizes sampleItemId (fun _ => .HIGH)
    (sampleHandlers .C3_ACADEMIC fun _ => .SUPPORTED) samplePolicy [sampleClaim] bundle 0
    (by decide) (by decide) hdispatch
  refine ⟨bundle, out.1, out.2, hdispatch, haggregate, ?_⟩
  refine hincomplete out.1 out.2 haggregate sampleClaim List.mem_cons_self .C3_ACADEMIC (by decide) ?_
  intro r hr _ hmodule
  have hmem : r.module ∈ bundle.results.map (·.module) := List.mem_map_of_mem hr
  rw [hmodules, hmodule] at hmem
  revert hmem
  decide

/-- The retrieval of a claim fails on both attempts: every other module is skipped, and aggregation
raises.  And a claim without its academic result that the other modules find unsafe is unsafe. -/
theorem retrieval_failure_raises :
    (dispatch sampleItemId (fun _ => .HIGH) (sampleHandlers .C2_RAG fun _ => .SUPPORTED)
        [sampleClaim]).toOption.map
      (fun bundle => aggregate samplePolicy [sampleClaim] (scoreAll (fun _ => .HIGH) [sampleClaim])
        bundle.results 0) =
      some (.error (aggregationError "claim 1 has no completed module result to aggregate")) ∧
    (dispatch sampleItemId (fun _ => .HIGH) (sampleHandlers .C3_ACADEMIC fun _ => .UNSAFE)
        [sampleClaim]).toOption.map
      (fun bundle => (aggregate samplePolicy [sampleClaim] (scoreAll (fun _ => .HIGH) [sampleClaim])
        bundle.results 0).toOption.map fun out => out.1.map (·.verdict)) =
      some (some [.UNSAFE]) := by
  decide

end CyberControl.Verification
