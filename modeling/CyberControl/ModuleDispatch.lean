import CyberControl.VerificationAggregation

/-! # Dispatch of the verification modules

`ClaimRiskScorer._mandatory_modules` (`verification/risk_scoring.py`) and `ModuleDispatchPlanner`
(`verification/dispatch.py`): the modules that a claim needs, the items of a dispatch plan, and the
waves in which an executor runs them.

The level that the scorer gives a claim comes out of floating point sums; it is an input here, so what
is proved holds for every level. -/

namespace CyberControl.Verification

open Collections Scheduling

/-! ### Risks -/

def verticalModule : ClaimKind → VerificationModule
  | .TEXT => .C3_ACADEMIC
  | .FORMULA => .C3_ACADEMIC
  | .GRAPH => .C4_GRAPH
  | .QUIZ => .C5_QUIZ
  | .CODE => .C6_CODE
  | .EXTENSION => .C7_EXTENSION

def mandatoryModules (kind : ClaimKind) : List VerificationModule :=
  [.C2_RAG, verticalModule kind, .C9_SECURITY, .C10_PRIVACY, .C11_COMPLIANCE]

theorem mandatoryModules_nodup (kind : ClaimKind) : (mandatoryModules kind).Nodup := by
  cases kind <;> decide

/-- `score`, with the level that it computes. -/
def score (level : Claim → RiskLevel) (claim : Claim) : ClaimRisk where
  claimId := claim.claimId
  level := level claim
  mandatoryModules := mandatoryModules claim.claimKind
  mandatoryModules_ne_nil := by simp [mandatoryModules]
  mandatoryModules_nodup := mandatoryModules_nodup claim.claimKind

def scoreAll (level : Claim → RiskLevel) (claims : List Claim) : List ClaimRisk :=
  claims.map (score level)

/-! ### Plans -/

/-- `ModuleDispatchItemV1`. -/
structure DispatchItem where
  dispatchItemId : ℕ
  claimId : ℕ
  module : VerificationModule
  priority : ℕ
  dependencyItemIds : List ℕ
  timeoutMs : ℕ
  maxAttempts : ℕ
deriving DecidableEq

/-- The fields that the contract `ModuleDispatchItemV1` rejects, and what its validator raises. -/
def DispatchItem.fieldErrors (item : DispatchItem) : List String :=
  (if item.priority ≤ 1000 then [] else ["priority"]) ++
    (if item.dependencyItemIds.length ≤ 16 then [] else ["dependency_item_ids"]) ++
    (if 100 ≤ item.timeoutMs ∧ item.timeoutMs ≤ 120000 then [] else ["timeout_ms"]) ++
    (if 1 ≤ item.maxAttempts ∧ item.maxAttempts ≤ 5 then [] else ["max_attempts"]) ++
    (if item.dispatchItemId ∈ item.dependencyItemIds then ["dispatch item cannot depend on itself"]
      else []) ++
    (if item.dependencyItemIds.Nodup then [] else ["dependency_item_ids must be unique"])

/-- `build_topic4_record(ModuleDispatchItemV1, ...)`. -/
def DispatchItem.build (item : DispatchItem) : Except Exn DispatchItem :=
  if item.fieldErrors = [] then .ok item else .error (.validationError item.fieldErrors)

/-- `ModuleDispatchPlanV1`. -/
structure DispatchPlan where
  verificationId : ℕ
  claimIds : List ℕ
  items : List DispatchItem

/-- The fields that the contract `ModuleDispatchPlanV1` rejects, and what its validator raises. -/
def DispatchPlan.fieldErrors (plan : DispatchPlan) : List String :=
  let itemIds := plan.items.map (·.dispatchItemId)
  (if 1 ≤ plan.claimIds.length ∧ plan.claimIds.length ≤ 4096 then [] else ["claim_ids"]) ++
    (if 1 ≤ plan.items.length ∧ plan.items.length ≤ 36864 then [] else ["items"]) ++
    (if plan.claimIds.Nodup then [] else ["claim_ids must be unique"]) ++
    (if itemIds.Nodup then [] else ["dispatch item ids must be unique"]) ++
    (if ∀ item ∈ plan.items, item.claimId ∈ plan.claimIds then []
      else ["dispatch item references an unknown claim"]) ++
    (if ∀ item ∈ plan.items, ∀ dependency ∈ item.dependencyItemIds, dependency ∈ itemIds then []
      else ["dispatch dependency references an unknown item"])

/-- `build_topic4_record(ModuleDispatchPlanV1, ...)`. -/
def DispatchPlan.build (plan : DispatchPlan) : Except Exn DispatchPlan :=
  if plan.fieldErrors = [] then .ok plan else .error (.validationError plan.fieldErrors)

def moduleTimeoutMs : VerificationModule → ℕ
  | .C2_RAG => 8000
  | .C3_ACADEMIC => 8000
  | .C4_GRAPH => 3000
  | .C5_QUIZ => 8000
  | .C6_CODE => 30000
  | .C7_EXTENSION => 8000
  | .C9_SECURITY => 2000
  | .C10_PRIVACY => 2000
  | .C11_COMPLIANCE => 8000

def moduleOrder : VerificationModule → ℕ
  | .C2_RAG => 0
  | .C3_ACADEMIC => 1
  | .C4_GRAPH => 2
  | .C5_QUIZ => 3
  | .C6_CODE => 4
  | .C7_EXTENSION => 5
  | .C9_SECURITY => 6
  | .C10_PRIVACY => 7
  | .C11_COMPLIANCE => 8

def priority (level : RiskLevel) (module : VerificationModule) : ℕ :=
  let riskPriority := match level with
    | .LOW => 400
    | .MEDIUM => 550
    | .HIGH => 750
    | .CRITICAL => 900
  let modulePriority := match module with
    | .C9_SECURITY => 50
    | .C10_PRIVACY => 40
    | .C2_RAG => 30
    | .C11_COMPLIANCE => 20
    | _ => 10
  min 1000 (riskPriority + modulePriority)

/-- `DispatchPlanError(text)`, a `ValueError`. -/
def dispatchPlanError (text : String) : Exn := .valueError text

/-- `_dependencies`, with the keys of `item_ids`. -/
def dependencies (itemId : VerificationModule → ℕ) (modules : List VerificationModule)
    (module : VerificationModule) : List ℕ :=
  if module ≠ .C2_RAG ∧ .C2_RAG ∈ modules then [itemId .C2_RAG] else []

variable (dispatchItemId : ℕ → VerificationModule → ℕ)

/-- The item of a module in `_claim_items`; `dispatchItemId` stands for `uuid5`. -/
def claimItem (risk : ClaimRisk) (module : VerificationModule) : DispatchItem where
  dispatchItemId := dispatchItemId risk.claimId module
  claimId := risk.claimId
  module
  priority := priority risk.level module
  dependencyItemIds := dependencies (dispatchItemId risk.claimId) risk.mandatoryModules module
  timeoutMs := moduleTimeoutMs module
  maxAttempts := 2

def claimItems (risk : ClaimRisk) : Except Exn (List DispatchItem) :=
  risk.mandatoryModules.mapM fun module => (claimItem dispatchItemId risk module).build

/-- The items that `risk_by_claim` gives for a claim. -/
def itemsOf (risks : List ClaimRisk) (claim : Claim) : Except Exn (List DispatchItem) :=
  match riskByClaim risks claim.claimId with
  | none => .error (.other "KeyError")
  | some risk => claimItems dispatchItemId risk

/-- The key by which the items of a plan are sorted. -/
def itemKey (item : DispatchItem) : ℕᵒᵈ ×ₗ ℕ ×ₗ ℕ :=
  toLex (OrderDual.toDual item.priority, toLex (item.claimId, moduleOrder item.module))

/-- The items of a wave: the remaining ones whose dependencies have completed. -/
def isReady (completed : List ℕ) (item : DispatchItem) : Bool :=
  decide (∀ dependency ∈ item.dependencyItemIds, dependency ∈ completed)

/-- The loop of `execution_waves`.  Every wave takes an item, so as many rounds as there are items
suffice. -/
def wavesFrom : ℕ → List DispatchItem → List ℕ → Except Exn (List (List DispatchItem))
  | 0, _, _ => .ok []
  | fuel + 1, remaining, completed =>
    if remaining.isEmpty then .ok []
    else
      let ready := sortBy (·.dispatchItemId) (remaining.filter (isReady completed))
      if ready.isEmpty then .error (dispatchPlanError "dispatch plan contains a dependency cycle")
      else do
        let waves ← wavesFrom fuel (remaining.filter fun item => !isReady completed item)
          (completed ++ ready.map (·.dispatchItemId))
        return ready :: waves

def executionWaves (items : List DispatchItem) : Except Exn (List (List DispatchItem)) :=
  let itemIds := items.map (·.dispatchItemId)
  if ¬ itemIds.Nodup then .error (dispatchPlanError "dispatch item identifiers must be unique")
  else if ¬ ∀ item ∈ items, ∀ dependency ∈ item.dependencyItemIds, dependency ∈ itemIds then
    .error (dispatchPlanError "dispatch plan references an unknown dependency")
  else wavesFrom items.length items []

def plan (claims : List Claim) (risks : List ClaimRisk) : Except Exn DispatchPlan :=
  match claims with
  | [] => .error (dispatchPlanError "dispatch requires at least one claim")
  | first :: _ =>
    if ¬ ((∀ risk ∈ risks, risk.claimId ∈ claims.map (·.claimId)) ∧
        ∀ claim ∈ claims, claim.claimId ∈ risks.map (·.claimId)) then
      .error (dispatchPlanError "every claim must have exactly one risk assessment")
    else do
      let items ← claims.mapM (itemsOf dispatchItemId risks)
      let sorted := sortBy itemKey items.flatten
      let _ ← executionWaves sorted
      DispatchPlan.build
        { verificationId := first.verificationId
          claimIds := claims.map (·.claimId)
          items := sorted }

/-! ### What a plan consists of -/

theorem wavesFrom_perm {fuel : ℕ} {remaining : List DispatchItem} {completed : List ℕ}
    {waves : List (List DispatchItem)} (hfuel : remaining.length ≤ fuel)
    (h : wavesFrom fuel remaining completed = .ok waves) : waves.flatten.Perm remaining := by
  induction fuel generalizing remaining completed waves with
  | zero =>
    cases h
    rw [List.length_eq_zero_iff.mp (Nat.le_zero.mp hfuel)]
    exact .refl _
  | succ fuel ih =>
    rw [wavesFrom] at h
    split_ifs at h with hnil
    · cases h
      rw [List.isEmpty_iff.mp hnil]
      exact .refl _
    · dsimp only at h
      split_ifs at h with hready
      obtain ⟨rest, hrest, h⟩ := bind_eq_ok.mp h
      cases h
      have hperm : (sortBy (·.dispatchItemId) (remaining.filter (isReady completed))).Perm
          (remaining.filter (isReady completed)) := perm_sortBy
      have hpos : 0 < (remaining.filter (isReady completed)).length := by
        rw [← hperm.length_eq]
        exact List.length_pos_iff.mpr fun hempty => hready (List.isEmpty_iff.mpr hempty)
      have hsplit := List.length_eq_length_filter_add (l := remaining) (isReady completed)
      have hwaves := ih (by omega) hrest
      rw [List.flatten_cons]
      exact (hperm.append hwaves).trans (List.filter_append_perm _ _)

theorem DispatchItem.build_ok {item item' : DispatchItem} (h : item.build = .ok item') :
    item' = item := by
  unfold DispatchItem.build at h
  split_ifs at h
  exact (Except.ok.inj h).symm

variable {dispatchItemId}

theorem claimItems_ok {risk : ClaimRisk} {items : List DispatchItem}
    (h : claimItems dispatchItemId risk = .ok items) :
    items = risk.mandatoryModules.map (claimItem dispatchItemId risk) :=
  mapM_ok (fun _ _ _ hitem => DispatchItem.build_ok hitem) h

theorem riskByClaim_scoreAll {level : Claim → RiskLevel} {claims : List Claim}
    (hclaims : (claims.map (·.claimId)).Nodup) {claim : Claim} (h : claim ∈ claims) :
    riskByClaim (scoreAll level claims) claim.claimId = some (score level claim) := by
  have hids : ((scoreAll level claims).map (·.claimId)).Nodup := by
    rw [scoreAll, List.map_map]
    exact hclaims
  exact riskByClaim_eq hids (List.mem_map_of_mem h)

/-- What a plan that was built for scored claims consists of. -/
structure Planned (dispatchItemId : ℕ → VerificationModule → ℕ) (level : Claim → RiskLevel)
    (claims : List Claim) (plan : DispatchPlan) : Prop where
  first : ∃ claim, claims.head? = some claim ∧ plan.verificationId = claim.verificationId
  claimIds_eq : plan.claimIds = claims.map (·.claimId)
  claimIds_nodup : (claims.map (·.claimId)).Nodup
  claims_length : claims.length ≤ 4096
  itemIds_nodup : (plan.items.map (·.dispatchItemId)).Nodup
  items_iff : ∀ item, item ∈ plan.items ↔ ∃ claim ∈ claims,
    ∃ module ∈ mandatoryModules claim.claimKind, item = claimItem dispatchItemId (score level claim) module

theorem DispatchPlan.build_ok {p p' : DispatchPlan} (h : p.build = .ok p') :
    p' = p ∧ p.claimIds.Nodup ∧ p.claimIds.length ≤ 4096 ∧ (p.items.map (·.dispatchItemId)).Nodup := by
  unfold DispatchPlan.build at h
  split_ifs at h with herrors
  refine ⟨(Except.ok.inj h).symm, ?_⟩
  simp only [DispatchPlan.fieldErrors, List.append_eq_nil_iff, ite_eq_left_iff, List.cons_ne_nil,
    imp_false, not_not] at herrors
  obtain ⟨⟨⟨⟨⟨hlength, _⟩, hclaims⟩, hitems⟩, _⟩, _⟩ := herrors
  exact ⟨hclaims, hlength.2, hitems⟩

theorem plan_ok {level : Claim → RiskLevel} {claims : List Claim} {p : DispatchPlan}
    (h : plan dispatchItemId claims (scoreAll level claims) = .ok p) :
    Planned dispatchItemId level claims p := by
  cases claims with
  | nil => cases h
  | cons first rest =>
    rw [plan] at h
    split_ifs at h
    obtain ⟨items, hitems, h⟩ := bind_eq_ok.mp h
    obtain ⟨_, _, h⟩ := bind_eq_ok.mp h
    obtain ⟨rfl, hclaims, hlength, hids⟩ := DispatchPlan.build_ok h
    refine ⟨⟨first, rfl, rfl⟩, rfl, hclaims, by simpa using hlength, hids, ?_⟩
    intro item
    have heq : items = (first :: rest).map fun claim => (mandatoryModules claim.claimKind).map
        (claimItem dispatchItemId (score level claim)) := by
      refine mapM_ok ?_ hitems
      intro claim hclaim l hl
      rw [itemsOf, riskByClaim_scoreAll hclaims hclaim] at hl
      exact claimItems_ok hl
    rw [mem_sortBy, heq, List.mem_flatten]
    simp only [List.mem_map, exists_exists_and_eq_and]
    constructor
    · rintro ⟨claim, hclaim, module, hmodule, rfl⟩
      exact ⟨claim, hclaim, module, hmodule, rfl⟩
    · rintro ⟨claim, hclaim, module, hmodule, rfl⟩
      exact ⟨claim, hclaim, module, hmodule, rfl⟩

end CyberControl.Verification
