import CyberControl.MemoryRefresh
import Mathlib.Data.Rat.Floor
import Mathlib.Tactic.Positivity

/-! # Forgetting

`EbbinghausMemoryEngine` (`domains/topic2/memory.py`) with the strengths of a state, which `MemoryRefresh`
leaves out: a refresh computes the retrievability from the time since the latest review, or since the state
was made. -/

namespace CyberControl.MemoryDecay

open Memory (MemoryState)

/-! ### Numbers -/

/-- The floating-point operations of the engine. -/
structure Floats (F : Type) where
  /-- `literal m e` is the number `m / 10 ^ e` as Python reads it. -/
  literal : ℕ → ℕ → F
  ofNat : ℕ → F
  neg : F → F
  add : F → F → F
  sub : F → F → F
  mul : F → F → F
  div : F → F → F
  exp : F → F
  log : F → F
  /-- `round(x, 12)`. -/
  round12 : F → F
  /-- `(later - earlier).total_seconds() / 86400`. -/
  days : ℕ → F
  /-- `instant + timedelta(days=x)`. -/
  later : ℕ → F → ℕ

variable {F : Type} [LinearOrder F]

/-- What forgetting needs of floating-point numbers: rounded operations are monotone, and the exponential
decay over `fadeOut` time constants, and over no less, is rounded to zero. -/
structure Floats.Lawful (A : Floats F) (fadeOut : F) : Prop where
  literal_mono : ∀ m n e, m ≤ n → A.literal m e ≤ A.literal n e
  zero_lt_half : A.literal 0 0 < A.literal 5 1
  literal_scale : A.literal 50 2 = A.literal 5 1 ∧ A.literal 70 2 = A.literal 7 1
  neg_anti : ∀ x y, x ≤ y → A.neg y ≤ A.neg x
  div_mono : ∀ x y z, A.literal 0 0 < z → x ≤ y → A.div x z ≤ A.div y z
  exp_mono : ∀ x y, x ≤ y → A.exp x ≤ A.exp y
  exp_zero : ∀ z, A.literal 0 0 < z → A.exp (A.div (A.neg (A.literal 0 0)) z) = A.literal 1 0
  round12_mono : ∀ x y, x ≤ y → A.round12 x ≤ A.round12 y
  round12_one : A.round12 (A.literal 1 0) = A.literal 1 0
  days_mono : ∀ m n, m ≤ n → A.days m ≤ A.days n
  days_zero : A.days 0 = A.literal 0 0
  faded : ∀ x z, A.literal 0 0 ≤ x → A.literal 0 0 < z →
    (A.round12 (A.exp (A.div (A.neg x) z)) ≤ A.literal 0 0 ↔ fadeOut ≤ A.div x z)

/-! ### The engine -/

inductive MemoryRiskLevel where
  | LOW
  | MEDIUM
  | HIGH
  | CRITICAL
deriving DecidableEq, Repr

/-- The place of a level in the order of severity. -/
def MemoryRiskLevel.severity : MemoryRiskLevel → ℕ
  | .LOW => 0
  | .MEDIUM => 1
  | .HIGH => 2
  | .CRITICAL => 3

structure MemoryPolicy (A : Floats F) where
  targetRetrievability : F
  successQualityThreshold : F
  baseStabilityDays : F
  minimumStabilityDays : F
  maximumStabilityDays : F
  maximumReviewIntervalDays : F
  difficultyBase : F
  difficultyScale : F
  forgettingBase : F
  forgettingScale : F
  target_mem : A.literal 0 0 < targetRetrievability ∧ targetRetrievability < A.literal 1 0
  threshold_mem : A.literal 0 0 ≤ successQualityThreshold ∧ successQualityThreshold ≤ A.literal 1 0
  minimum_mem : A.literal 0 0 < minimumStabilityDays ∧ minimumStabilityDays ≤ baseStabilityDays
  base_le_maximum : baseStabilityDays ≤ maximumStabilityDays
  positive : ∀ x ∈ [maximumReviewIntervalDays, difficultyBase, difficultyScale, forgettingBase,
    forgettingScale], A.literal 0 0 < x

/-- What the engine reads of a `Topic1KnowledgePointV1`. -/
structure KnowledgePoint (F : Type) where
  courseId : String
  kpId : String
  difficultyScore : F

/-- `MemoryStateDraft`, without its digest and its parameters. -/
structure MemoryStateDraft (F : Type) extends MemoryState where
  learnerRef : String
  courseId : String
  stabilityDays : F
  effectiveStabilityDays : F
  elapsedDays : F
  retrievability : F
  forgettingRate : F
  difficultyFactor : F
  reviewGain : F
  lapseCount : ℕ
  nextReviewAt : ℕ
  riskLevel : MemoryRiskLevel
deriving DecidableEq

section engine
variable (A : Floats F) (policy : MemoryPolicy A)

/-- `_score`. -/
def checkScore (name : String) (value : F) : Except Exn Unit :=
  ensure (A.literal 0 0 ≤ value ∧ value ≤ A.literal 1 0)
    (.valueError (name ++ " must be between zero and one"))

/-- `MemoryStateDraft.__post_init__`, without the checks of times and digests. -/
def checked (state : MemoryStateDraft F) : Except Exn (MemoryStateDraft F) := do
  ensure (1 ≤ state.stateVersion) (.valueError "state_version must be positive")
  ensure (A.literal 0 0 < state.stabilityDays ∧ state.stabilityDays ≤ A.ofNat 36500)
    (.valueError "stability_days is outside the accepted range")
  ensure (A.literal 0 0 < state.effectiveStabilityDays ∧ state.effectiveStabilityDays ≤ A.ofNat 36500)
    (.valueError "effective_stability_days is outside the accepted range")
  ensure (A.literal 0 0 ≤ state.elapsedDays) (.valueError "elapsed_days cannot be negative")
  checkScore A "retrievability" state.retrievability
  checkScore A "forgetting_rate" state.forgettingRate
  ensure (A.literal 25 2 ≤ state.difficultyFactor ∧ state.difficultyFactor ≤ A.ofNat 4)
    (.valueError "difficulty_factor is outside the accepted range")
  ensure (A.literal 0 0 ≤ state.reviewGain ∧ state.reviewGain ≤ A.ofNat 16)
    (.valueError "review_gain is outside the accepted range")
  ensure (state.lapseCount ≤ state.reviewCount) (.valueError "memory review counters are inconsistent")
  return state

def validateIdentity (state : MemoryStateDraft F) (point : KnowledgePoint F) : Except Exn Unit :=
  ensure ((state.courseId, state.kpId) = (point.courseId, point.kpId))
    (.valueError "memory state and Topic 1 knowledge point do not match")

/-- `difficulty_factor` of a score. -/
def difficultyOf (point : KnowledgePoint F) : F :=
  A.round12 (A.add policy.difficultyBase (A.mul policy.difficultyScale point.difficultyScore))

def difficultyFactor (point : KnowledgePoint F) : Except Exn F := do
  checkScore A "difficulty_score" point.difficultyScore
  return difficultyOf A policy point

/-- The value of `effective_stability`. -/
def effectiveDays (stabilityDays difficultyFactor forgettingRate : F) : F :=
  let multiplier := A.add policy.forgettingBase (A.mul policy.forgettingScale forgettingRate)
  A.round12 (min policy.maximumStabilityDays
    (max (A.literal 1 9) (A.div stabilityDays (A.mul difficultyFactor multiplier))))

def effectiveStability (stabilityDays difficultyFactor forgettingRate : F) : Except Exn F := do
  ensure (A.literal 0 0 < stabilityDays ∧ A.literal 0 0 < difficultyFactor)
    (.valueError "stability and difficulty factors must be positive")
  checkScore A "forgetting_rate" forgettingRate
  return effectiveDays A policy stabilityDays difficultyFactor forgettingRate

/-- The value of `retrievability`. -/
def decayOver (elapsedDays effectiveStabilityDays : F) : F :=
  A.round12 (A.exp (A.div (A.neg elapsedDays) effectiveStabilityDays))

def retrievability (elapsedDays effectiveStabilityDays : F) : Except Exn F := do
  ensure (A.literal 0 0 ≤ elapsedDays ∧ A.literal 0 0 < effectiveStabilityDays)
    (.valueError "elapsed time must be nonnegative and stability must be positive")
  return decayOver A elapsedDays effectiveStabilityDays

def reviewInterval (effectiveStabilityDays : F) : Except Exn F := do
  ensure (A.literal 0 0 < effectiveStabilityDays) (.valueError "effective stability must be positive")
  let interval := A.mul (A.neg effectiveStabilityDays) (A.log policy.targetRetrievability)
  return A.round12 (min policy.maximumReviewIntervalDays (max (A.literal 0 0) interval))

/-- The value of `risk_level`. -/
def riskOf (retrievability : F) : MemoryRiskLevel :=
  if A.literal 85 2 ≤ retrievability then .LOW
  else if A.literal 7 1 ≤ retrievability then .MEDIUM
  else if A.literal 5 1 ≤ retrievability then .HIGH
  else .CRITICAL

def riskLevel (retrievability : F) : Except Exn MemoryRiskLevel := do
  checkScore A "retrievability" retrievability
  return riskOf A retrievability

def initializeState (learnerRef : String) (point : KnowledgePoint F) (forgettingRate : F)
    (initializedAt : ℕ) : Except Exn (MemoryStateDraft F) := do
  checkScore A "forgetting_rate" forgettingRate
  let difficulty ← difficultyFactor A policy point
  let effective ← effectiveStability A policy policy.baseStabilityDays difficulty forgettingRate
  checked A
    { toMemoryState := Memory.initializeState point.kpId initializedAt
      learnerRef
      courseId := point.courseId
      stabilityDays := policy.baseStabilityDays
      effectiveStabilityDays := effective
      elapsedDays := A.literal 0 0
      retrievability := A.literal 0 0
      forgettingRate
      difficultyFactor := difficulty
      reviewGain := A.literal 0 0
      lapseCount := 0
      nextReviewAt := initializedAt
      riskLevel := .CRITICAL }

/-- `_blank_memory_state`, as it is loaded. -/
def blankMemoryState (learnerRef : String) (point : KnowledgePoint F) (generatedAt : ℕ) :
    Except Exn (MemoryStateDraft F) :=
  let difficulty := A.add (A.literal 75 2) (A.mul (A.literal 15 1) point.difficultyScore)
  let multiplier := A.add (A.literal 5 1) (A.mul (A.literal 15 1) (A.literal 5 1))
  checked A
    { toMemoryState := Memory.initializeState point.kpId generatedAt
      learnerRef
      courseId := point.courseId
      stabilityDays := A.literal 1 0
      effectiveStabilityDays := A.round12 (A.div (A.literal 1 0) (A.mul difficulty multiplier))
      elapsedDays := A.literal 0 0
      retrievability := A.literal 0 0
      forgettingRate := A.literal 5 1
      difficultyFactor := A.round12 difficulty
      reviewGain := A.literal 0 0
      lapseCount := 0
      nextReviewAt := generatedAt
      riskLevel := .CRITICAL }

def refreshState (state : MemoryStateDraft F) (point : KnowledgePoint F) (forgettingRate : F) (asOf : ℕ) :
    Except Exn (MemoryStateDraft F) := do
  validateIdentity state point
  checkScore A "forgetting_rate" forgettingRate
  let counters ← Memory.refreshState state.toMemoryState asOf
  let elapsedDays := A.days (asOf - state.anchor)
  let difficulty ← difficultyFactor A policy point
  let effective ← effectiveStability A policy state.stabilityDays difficulty forgettingRate
  let retrievability ← retrievability A elapsedDays effective
  let interval ← reviewInterval A policy effective
  let risk ← riskLevel A retrievability
  checked A
    { state with
      toMemoryState := counters
      effectiveStabilityDays := effective
      elapsedDays := A.round12 elapsedDays
      retrievability
      forgettingRate
      difficultyFactor := difficulty
      reviewGain := A.literal 0 0
      nextReviewAt := max asOf (A.later state.anchor interval)
      riskLevel := risk }

/-- The stability, the gain and the lapses after a review. -/
def reviewed (state : MemoryStateDraft F) (reviewQuality preReviewRetrievability : F) : F × F × ℕ :=
  if policy.successQualityThreshold ≤ reviewQuality then
    let bonus := A.add (A.literal 1 0) (A.mul (A.ofNat (min state.reviewCount 20)) (A.literal 3 2))
    let gain := A.mul (A.add (A.literal 1 0) (A.mul reviewQuality
      (A.add (A.literal 1 0) (A.sub (A.literal 1 0) preReviewRetrievability)))) bonus
    (min policy.maximumStabilityDays (A.mul (max policy.baseStabilityDays state.stabilityDays) gain), gain,
      state.lapseCount)
  else
    (max policy.minimumStabilityDays (A.mul state.stabilityDays
      (A.add (A.literal 45 2) (A.mul (A.literal 25 2) reviewQuality))), A.literal 0 0, state.lapseCount + 1)

def applyReview (state : MemoryStateDraft F) (point : KnowledgePoint F) (forgettingRate reviewQuality : F)
    (reviewedAt : ℕ) : Except Exn (MemoryStateDraft F) := do
  validateIdentity state point
  checkScore A "forgetting_rate" forgettingRate
  checkScore A "review_quality" reviewQuality
  let counters ← Memory.applyReview state.toMemoryState reviewedAt
  let elapsedDays := A.days (reviewedAt - state.anchor)
  let difficulty ← difficultyFactor A policy point
  let previousEffective ← effectiveStability A policy state.stabilityDays difficulty forgettingRate
  let preReview ← retrievability A elapsedDays previousEffective
  let (stability, gain, lapses) := reviewed A policy state reviewQuality preReview
  let effective ← effectiveStability A policy stability difficulty forgettingRate
  let interval ← reviewInterval A policy effective
  checked A
    { state with
      toMemoryState := counters
      stabilityDays := A.round12 stability
      effectiveStabilityDays := effective
      elapsedDays := A.literal 0 0
      retrievability := A.literal 1 0
      forgettingRate
      difficultyFactor := difficulty
      reviewGain := A.round12 gain
      lapseCount := lapses
      nextReviewAt := A.later reviewedAt interval
      riskLevel := .LOW }

/-! ### Reachable states -/

/-- The states of the engine, with the knowledge point and the forgetting rate that they were last computed
with. -/
inductive Reachable : MemoryStateDraft F → KnowledgePoint F → F → Prop where
  | initial {learnerRef : String} {point : KnowledgePoint F} {rate : F} {initializedAt : ℕ}
      {state : MemoryStateDraft F}
        (h : initializeState A policy learnerRef point rate initializedAt = .ok state) :
      Reachable state point rate
  | blank {learnerRef : String} {point : KnowledgePoint F} {generatedAt : ℕ} {state : MemoryStateDraft F}
      (h : blankMemoryState A learnerRef point generatedAt = .ok state) : Reachable state point
        (A.literal 5 1)
  | review {state state' : MemoryStateDraft F} {point point' : KnowledgePoint F} {rate rate' quality : F}
      {reviewedAt : ℕ} (hreach : Reachable state point rate)
      (h : applyReview A policy state point' rate' quality reviewedAt = .ok state') :
      Reachable state' point' rate'
  | refresh {state state' : MemoryStateDraft F} {point point' : KnowledgePoint F} {rate rate' : F} {asOf : ℕ}
      (hreach : Reachable state point rate) (h : refreshState A policy state point' rate' asOf = .ok state') :
      Reachable state' point' rate'

/-- The retrievability is what is left since the anchor. -/
structure Decayed (state : MemoryStateDraft F) (point : KnowledgePoint F) (rate : F) : Prop where
  anchor_le : state.anchor ≤ state.computedAt
  retrievability : state.retrievability = decayOver A (A.days (state.computedAt - state.anchor))
    (effectiveDays A policy state.stabilityDays (difficultyOf A policy point) rate)
  riskLevel : state.riskLevel = riskOf A state.retrievability
  version : state.stateVersion ≠ 1

/-- The state has neither been reviewed nor refreshed. -/
structure Unobserved (state : MemoryStateDraft F) : Prop where
  lastReviewedAt : state.lastReviewedAt = none
  version : state.stateVersion = 1
  retrievability : state.retrievability = A.literal 0 0
  riskLevel : state.riskLevel = .CRITICAL

structure JustReviewed (state : MemoryStateDraft F) : Prop where
  lastReviewedAt : state.lastReviewedAt.isSome
  retrievability : state.retrievability = A.literal 1 0
  riskLevel : state.riskLevel = .LOW

end engine

variable {A : Floats F} {policy : MemoryPolicy A} {state state' : MemoryStateDraft F}
  {point : KnowledgePoint F} {rate : F} {asOf : ℕ}

theorem checked_eq_ok (h : checked A state = .ok state') : state' = state ∧ 1 ≤ state.stateVersion := by
  unfold checked at h
  simp only [unit_bind_eq_ok] at h
  obtain ⟨hversion, -, -, -, -, -, -, -, -, h⟩ := h
  exact ⟨(Except.ok.inj h).symm, ensure_eq_ok.mp hversion⟩

theorem effectiveStability_eq_ok {stability difficulty effective : F}
    (h : effectiveStability A policy stability difficulty rate = .ok effective) :
    effective = effectiveDays A policy stability difficulty rate := by
  unfold effectiveStability at h
  obtain ⟨-, h⟩ := unit_bind_eq_ok.mp h
  obtain ⟨-, h⟩ := unit_bind_eq_ok.mp h
  exact (Except.ok.inj h).symm

theorem difficultyFactor_eq_ok {difficulty : F} (h : difficultyFactor A policy point = .ok difficulty) :
    difficulty = difficultyOf A policy point := by
  unfold difficultyFactor at h
  obtain ⟨-, h⟩ := unit_bind_eq_ok.mp h
  exact (Except.ok.inj h).symm

theorem retrievability_eq_ok {elapsed effective left : F}
    (h : retrievability A elapsed effective = .ok left) :
    (A.literal 0 0 ≤ elapsed ∧ A.literal 0 0 < effective) ∧ left = decayOver A elapsed effective := by
  unfold retrievability at h
  obtain ⟨hrange, h⟩ := unit_bind_eq_ok.mp h
  exact ⟨ensure_eq_ok.mp hrange, (Except.ok.inj h).symm⟩

theorem riskLevel_eq_ok {left : F} {risk : MemoryRiskLevel} (h : riskLevel A left = .ok risk) :
    risk = riskOf A left := by
  unfold riskLevel at h
  obtain ⟨-, h⟩ := unit_bind_eq_ok.mp h
  exact (Except.ok.inj h).symm

/-! ### Refreshes and reviews -/

/-- What a refresh leaves of a state. -/
structure Refreshed (A : Floats F) (policy : MemoryPolicy A) (state : MemoryStateDraft F)
    (point : KnowledgePoint F) (rate : F) (asOf : ℕ) (state' : MemoryStateDraft F) : Prop where
  anchor_le : state.anchor ≤ asOf
  effective_pos : A.literal 0 0 < effectiveDays A policy state.stabilityDays
    (difficultyOf A policy point) rate
  elapsed_nonneg : A.literal 0 0 ≤ A.days (asOf - state.anchor)
  retrievability : state'.retrievability = decayOver A (A.days (asOf - state.anchor))
    (effectiveDays A policy state.stabilityDays (difficultyOf A policy point) rate)
  riskLevel : state'.riskLevel = riskOf A state'.retrievability
  anchor : state'.anchor = state.anchor
  stabilityDays : state'.stabilityDays = state.stabilityDays
  computedAt : state'.computedAt = asOf
  version : state'.stateVersion = state.stateVersion + 1

theorem memory_refresh_eq_ok {before after : MemoryState} (h : Memory.refreshState before asOf = .ok after) :
    before.anchor ≤ asOf ∧ after.anchor = before.anchor ∧ after.computedAt = asOf ∧
      after.stateVersion = before.stateVersion + 1 := by
  unfold Memory.refreshState at h
  split_ifs at h with htime
  cases h
  exact ⟨Nat.le_of_not_lt htime, rfl, rfl, rfl⟩

theorem memory_review_eq_ok {before after : MemoryState} {reviewedAt : ℕ}
    (h : Memory.applyReview before reviewedAt = .ok after) : after.lastReviewedAt.isSome := by
  unfold Memory.applyReview at h
  split_ifs at h
  cases h
  rfl

/-- **A refresh.** -/
theorem refreshState_eq_ok (h : refreshState A policy state point rate asOf = .ok state') :
    Refreshed A policy state point rate asOf state' := by
  unfold refreshState at h
  obtain ⟨-, h⟩ := unit_bind_eq_ok.mp h
  obtain ⟨-, h⟩ := unit_bind_eq_ok.mp h
  obtain ⟨counters, hcounters, h⟩ := bind_eq_ok.mp h
  obtain ⟨difficulty, hdifficulty, h⟩ := bind_eq_ok.mp h
  obtain ⟨effective, heffective, h⟩ := bind_eq_ok.mp h
  obtain ⟨left, hleft, h⟩ := bind_eq_ok.mp h
  obtain ⟨interval, -, h⟩ := bind_eq_ok.mp h
  obtain ⟨risk, hrisk, h⟩ := bind_eq_ok.mp h
  obtain ⟨htime, hanchor, hcomputed, hversion⟩ := memory_refresh_eq_ok hcounters
  obtain rfl := difficultyFactor_eq_ok hdifficulty
  obtain rfl := effectiveStability_eq_ok heffective
  obtain ⟨⟨helapsed, hpos⟩, rfl⟩ := retrievability_eq_ok hleft
  obtain rfl := riskLevel_eq_ok hrisk
  obtain ⟨rfl, -⟩ := checked_eq_ok h
  exact ⟨htime, hpos, helapsed, rfl, rfl, hanchor, rfl, hcomputed, hversion⟩

/-- **A review.** -/
theorem applyReview_eq_ok {quality : F} {reviewedAt : ℕ}
    (h : applyReview A policy state point rate quality reviewedAt = .ok state') :
    JustReviewed A state' ∧ 1 ≤ state'.stateVersion := by
  unfold applyReview at h
  simp only [unit_bind_eq_ok] at h
  obtain ⟨-, -, -, h⟩ := h
  obtain ⟨counters, hcounters, h⟩ := bind_eq_ok.mp h
  obtain ⟨difficulty, -, h⟩ := bind_eq_ok.mp h
  obtain ⟨previous, -, h⟩ := bind_eq_ok.mp h
  obtain ⟨left, -, h⟩ := bind_eq_ok.mp h
  obtain ⟨effective, -, h⟩ := bind_eq_ok.mp h
  obtain ⟨interval, -, h⟩ := bind_eq_ok.mp h
  obtain ⟨rfl, hversion⟩ := checked_eq_ok h
  exact ⟨⟨memory_review_eq_ok hcounters, rfl, rfl⟩, hversion⟩

theorem initializeState_eq_ok {learnerRef : String} {initializedAt : ℕ}
    (h : initializeState A policy learnerRef point rate initializedAt = .ok state) : Unobserved A state := by
  unfold initializeState at h
  obtain ⟨-, h⟩ := unit_bind_eq_ok.mp h
  obtain ⟨difficulty, -, h⟩ := bind_eq_ok.mp h
  obtain ⟨effective, -, h⟩ := bind_eq_ok.mp h
  obtain ⟨rfl, -⟩ := checked_eq_ok h
  exact ⟨rfl, rfl, rfl, rfl⟩

theorem blankMemoryState_eq_ok {learnerRef : String} {generatedAt : ℕ}
    (h : blankMemoryState A learnerRef point generatedAt = .ok state) : Unobserved A state := by
  obtain ⟨rfl, -⟩ := checked_eq_ok h
  exact ⟨rfl, rfl, rfl, rfl⟩

/-- **The states of the engine.** -/
theorem Reachable.decayed (h : Reachable A policy state point rate) :
    (Unobserved A state ∨ JustReviewed A state ∨ Decayed A policy state point rate) ∧
      1 ≤ state.stateVersion := by
  induction h with
  | initial h =>
    have hunobserved := initializeState_eq_ok h
    exact ⟨.inl hunobserved, by rw [hunobserved.version]⟩
  | blank h =>
    have hunobserved := blankMemoryState_eq_ok h
    exact ⟨.inl hunobserved, by rw [hunobserved.version]⟩
  | review _ h =>
    have hreviewed := applyReview_eq_ok h
    exact ⟨.inr (.inl hreviewed.1), hreviewed.2⟩
  | refresh _ h ih =>
    have hrefreshed := refreshState_eq_ok h
    have hversion := hrefreshed.version
    have hbefore := ih.2
    refine ⟨.inr (.inr ⟨?_, ?_, hrefreshed.riskLevel, by omega⟩), by omega⟩
    · rw [hrefreshed.anchor, hrefreshed.computedAt]
      exact hrefreshed.anchor_le
    · rw [hrefreshed.anchor, hrefreshed.computedAt, hrefreshed.stabilityDays]
      exact hrefreshed.retrievability

/-! ### Forgetting -/

theorem riskOf_anti {x y : F} (h : x ≤ y) : (riskOf A y).severity ≤ (riskOf A x).severity := by
  unfold riskOf
  by_cases hlow : A.literal 85 2 ≤ y
  · rw [if_pos hlow]
    exact Nat.zero_le _
  · rw [if_neg hlow, if_neg fun hx : A.literal 85 2 ≤ x => hlow (hx.trans h)]
    by_cases hmedium : A.literal 7 1 ≤ y
    · rw [if_pos hmedium]
      split_ifs <;> decide
    · rw [if_neg hmedium, if_neg fun hx : A.literal 7 1 ≤ x => hmedium (hx.trans h)]
      by_cases hhigh : A.literal 5 1 ≤ y
      · rw [if_pos hhigh]
        split_ifs <;> decide
      · rw [if_neg hhigh, if_neg fun hx : A.literal 5 1 ≤ x => hhigh (hx.trans h)]

section forgetting
variable {fadeOut : F} (hA : A.Lawful fadeOut)

include hA

theorem decayOver_anti {x y z : F} (hz : A.literal 0 0 < z) (h : x ≤ y) : decayOver A y z ≤ decayOver A x z :=
  hA.round12_mono _ _ (hA.exp_mono _ _ (hA.div_mono _ _ _ hz (hA.neg_anti _ _ h)))

theorem decayOver_le_one {x z : F} (hx : A.literal 0 0 ≤ x) (hz : A.literal 0 0 < z) :
    decayOver A x z ≤ A.literal 1 0 := by
  have hzero : decayOver A (A.literal 0 0) z = A.literal 1 0 := by
    unfold decayOver
    rw [hA.exp_zero z hz, hA.round12_one]
  rw [← hzero]
  exact decayOver_anti hA hz hx

theorem riskOf_nonpos {x : F} (h : x ≤ A.literal 0 0) : riskOf A x = .CRITICAL := by
  have hhalf : x < A.literal 5 1 := h.trans_lt hA.zero_lt_half
  have hthresholds : A.literal 5 1 ≤ A.literal 7 1 ∧ A.literal 7 1 ≤ A.literal 85 2 := by
    refine ⟨hA.literal_mono 5 7 1 (by omega), ?_⟩
    rw [← hA.literal_scale.2]
    exact hA.literal_mono 70 85 2 (by omega)
  unfold riskOf
  rw [if_neg (not_le.mpr (hhalf.trans_le (hthresholds.1.trans hthresholds.2))),
    if_neg (not_le.mpr (hhalf.trans_le hthresholds.1)), if_neg (not_le.mpr hhalf)]

end forgetting

/-- The refreshed state is no more retrievable than the state, and its risk is at least as severe. -/
def Forgets (state state' : MemoryStateDraft F) : Prop :=
  state'.retrievability ≤ state.retrievability ∧ state.riskLevel.severity ≤ state'.riskLevel.severity

instance (state state' : MemoryStateDraft F) : Decidable (Forgets state state') :=
  inferInstanceAs (Decidable (_ ∧ _))

/-- The time constants between the anchor of the state and an instant. -/
def timeConstants (A : Floats F) (policy : MemoryPolicy A) (state : MemoryStateDraft F)
    (point : KnowledgePoint F) (rate : F) (asOf : ℕ) : F :=
  A.div (A.days (asOf - state.anchor))
    (effectiveDays A policy state.stabilityDays (difficultyOf A policy point) rate)

variable {fadeOut : F}

theorem Decayed.forgets (hA : A.Lawful fadeOut) (h : Decayed A policy state point rate)
    (htime : state.computedAt ≤ asOf) (hrefreshed : Refreshed A policy state point rate asOf state') :
    Forgets state state' := by
  have hle : state'.retrievability ≤ state.retrievability := by
    rw [hrefreshed.retrievability, h.retrievability]
    exact decayOver_anti hA hrefreshed.effective_pos (hA.days_mono _ _ (by omega))
  refine ⟨hle, ?_⟩
  rw [h.riskLevel, hrefreshed.riskLevel]
  exact riskOf_anti hle

theorem JustReviewed.forgets (hA : A.Lawful fadeOut) (h : JustReviewed A state)
    (hrefreshed : Refreshed A policy state point rate asOf state') : Forgets state state' := by
  refine ⟨?_, ?_⟩
  · rw [hrefreshed.retrievability, h.retrievability]
    exact decayOver_le_one hA hrefreshed.elapsed_nonneg hrefreshed.effective_pos
  · rw [h.riskLevel]
    exact Nat.zero_le _

theorem Unobserved.forgets_iff (hA : A.Lawful fadeOut) (h : Unobserved A state)
    (hrefreshed : Refreshed A policy state point rate asOf state') :
    Forgets state state' ↔ fadeOut ≤ timeConstants A policy state point rate asOf := by
  unfold Forgets timeConstants
  rw [h.retrievability, hrefreshed.riskLevel, hrefreshed.retrievability, h.riskLevel,
    ← hA.faded _ _ hrefreshed.elapsed_nonneg hrefreshed.effective_pos]
  exact ⟨And.left, fun hle => ⟨hle, (congrArg MemoryRiskLevel.severity (riskOf_nonpos hA hle)).ge⟩⟩

/-- **Forgetting is monotone, but for the first refresh of a state that nobody has reviewed.** -/
theorem refresh_forgets_iff {fadeOut : F} (hA : A.Lawful fadeOut)
    (hreach : Reachable A policy state point rate)
    (htime : state.computedAt ≤ asOf) (hok : refreshState A policy state point rate asOf = .ok state') :
    Forgets state state' ↔ state.lastReviewedAt.isSome ∨ state.stateVersion ≠ 1 ∨
      fadeOut ≤ timeConstants A policy state point rate asOf := by
  have hrefreshed := refreshState_eq_ok hok
  rcases hreach.decayed.1 with hunobserved | hreviewed | hdecayed
  · rw [hunobserved.forgets_iff hA hrefreshed, hunobserved.lastReviewedAt, hunobserved.version]
    simp
  · exact iff_of_true (hreviewed.forgets hA hrefreshed) (.inl hreviewed.lastReviewedAt)
  · exact iff_of_true (hdecayed.forgets hA htime hrefreshed) (.inr (.inl hdecayed.version))

/-! ### A point of a course -/

/-- Exact arithmetic, with the exponential and the logarithm at the numbers below and a line between them;
instants are in microseconds. -/
def rationals : Floats ℚ where
  literal m e := m / 10 ^ e
  ofNat n := n
  neg x := -x
  add x y := x + y
  sub x y := x - y
  mul x y := x * y
  div x y := x / y
  exp x := if x ≤ -29 then 0 else max (1 / 10) (1 + 63212055882855767 / 10 ^ 17 * x)
  log _ := -2231435513142097 / 10 ^ 16
  round12 x := ⌊x * 10 ^ 12 + 1 / 2⌋ / 10 ^ 12
  days n := n / 86400000000
  later n x := n + ⌊x * 86400000000 + 1 / 2⌋.toNat

theorem round12_le {x y : ℚ} (h : x ≤ y) : rationals.round12 x ≤ rationals.round12 y := by
  have hfloor : ⌊x * 10 ^ 12 + 1 / 2⌋ ≤ ⌊y * 10 ^ 12 + 1 / 2⌋ := Int.floor_le_floor (by linarith)
  have hcast : (⌊x * 10 ^ 12 + 1 / 2⌋ : ℚ) ≤ ⌊y * 10 ^ 12 + 1 / 2⌋ := by exact_mod_cast hfloor
  exact div_le_div_of_nonneg_right hcast (by norm_num)

theorem exp_le {x y : ℚ} (h : x ≤ y) : rationals.exp x ≤ rationals.exp y := by
  show (if x ≤ -29 then 0 else max (1 / 10) (1 + 63212055882855767 / 10 ^ 17 * x)) ≤
    if y ≤ -29 then 0 else max (1 / 10) (1 + 63212055882855767 / 10 ^ 17 * y)
  split_ifs with hx hy hy
  · exact le_refl 0
  · exact le_max_of_le_left (by norm_num)
  · exact absurd (h.trans hy) hx
  · exact max_le_max le_rfl (by linarith)

theorem rationals_faded (x : ℚ) : rationals.round12 (rationals.exp (-x)) ≤ 0 ↔ 29 ≤ x := by
  by_cases hx : 29 ≤ x
  · have hexp : rationals.exp (-x) = 0 := if_pos (by linarith)
    rw [hexp]
    exact iff_of_true (by decide +kernel) hx
  · refine iff_of_false (fun hle => ?_) hx
    have htenth : (1 / 10 : ℚ) ≤ rationals.exp (-x) := by
      show (1 / 10 : ℚ) ≤ if -x ≤ -29 then 0 else max (1 / 10) _
      rw [if_neg (by linarith)]
      exact le_max_left _ _
    have hround : (1 / 10 : ℚ) ≤ rationals.round12 (1 / 10) := by decide +kernel
    have hpos := hround.trans (round12_le htenth)
    linarith

theorem rationals_lawful : rationals.Lawful 29 where
  literal_mono m n e h := div_le_div_of_nonneg_right (by exact_mod_cast h) (by positivity)
  zero_lt_half := by decide +kernel
  literal_scale := by decide +kernel
  neg_anti x y h := neg_le_neg h
  div_mono x y z hz h := by
    have hpos : (0 : ℚ) ≤ z := by
      have hzero : rationals.literal 0 0 = 0 := by decide +kernel
      rw [hzero] at hz
      exact hz.le
    exact div_le_div_of_nonneg_right h hpos
  exp_mono x y h := exp_le h
  exp_zero z _ := by
    have hzero : rationals.div (rationals.neg (rationals.literal 0 0)) z = 0 := by
      show -((0 : ℕ) / 10 ^ 0 : ℚ) / z = 0
      simp
    rw [hzero]
    decide +kernel
  round12_mono x y h := round12_le h
  round12_one := by decide +kernel
  days_mono m n h := div_le_div_of_nonneg_right (by exact_mod_cast h) (by norm_num)
  days_zero := by decide +kernel
  faded x z _ _ := by
    have hzero : rationals.literal 0 0 = 0 := by decide +kernel
    have hneg : rationals.div (rationals.neg x) z = -(rationals.div x z) := neg_div z x
    rw [hzero, hneg]
    exact rationals_faded _

/-- The default values of `MemoryPolicy`. -/
def defaultPolicy : MemoryPolicy rationals where
  targetRetrievability := 8 / 10
  successQualityThreshold := 6 / 10
  baseStabilityDays := 1
  minimumStabilityDays := 1 / 2
  maximumStabilityDays := 36500
  maximumReviewIntervalDays := 365
  difficultyBase := 3 / 4
  difficultyScale := 3 / 2
  forgettingBase := 1 / 2
  forgettingScale := 3 / 2
  target_mem := by decide +kernel
  threshold_mem := by decide +kernel
  minimum_mem := by decide +kernel
  base_le_maximum := by decide +kernel
  positive := by decide +kernel

def limits : KnowledgePoint ℚ := ⟨"COURSE_ANALYSIS", "KP_LIMITS", 1 / 2⟩

/-- The point as `initialize_state` makes it. -/
def limitsUnobserved : MemoryStateDraft ℚ where
  toMemoryState := Memory.initializeState "KP_LIMITS" 0
  learnerRef := "subject:student"
  courseId := "COURSE_ANALYSIS"
  stabilityDays := 1
  effectiveStabilityDays := 833333333333 / 10 ^ 12
  elapsedDays := 0
  retrievability := 0
  forgettingRate := 1 / 5
  difficultyFactor := 3 / 2
  reviewGain := 0
  lapseCount := 0
  nextReviewAt := 0
  riskLevel := .CRITICAL

theorem limitsUnobserved_reachable : Reachable rationals defaultPolicy limitsUnobserved limits (1 / 5) :=
  have h : initializeState rationals defaultPolicy "subject:student" limits
    (1 / 5) 0 = .ok limitsUnobserved := by
    decide +kernel
  .initial h

/-- The same after a review of quality 0.8. -/
def limitsReviewed : MemoryStateDraft ℚ where
  toMemoryState := ⟨0, "KP_LIMITS", 2, some 0, 1, some 0, 0, 0, none⟩
  learnerRef := "subject:student"
  courseId := "COURSE_ANALYSIS"
  stabilityDays := 9 / 5
  effectiveStabilityDays := 3 / 2
  elapsedDays := 0
  retrievability := 1
  forgettingRate := 1 / 5
  difficultyFactor := 3 / 2
  reviewGain := 9 / 5
  lapseCount := 0
  nextReviewAt := 28919404250
  riskLevel := .LOW

theorem limitsReviewed_reachable : Reachable rationals defaultPolicy limitsReviewed limits (1 / 5) :=
  have h : applyReview rationals defaultPolicy limitsUnobserved limits (1 / 5)
    (8 / 10) 0 = .ok limitsReviewed := by
    decide +kernel
  .review limitsUnobserved_reachable h

/-- And after a day and a half, one time constant. -/
def limitsRefreshed : MemoryStateDraft ℚ :=
  { limitsReviewed with
    toMemoryState := ⟨0, "KP_LIMITS", 3, some 0, 1, some 0, 0, 129600000000, none⟩
    elapsedDays := 3 / 2
    retrievability := 367879441171 / 10 ^ 12
    reviewGain := 0
    nextReviewAt := 129600000000
    riskLevel := .CRITICAL }

theorem refresh_forgets_limits : Forgets limitsReviewed limitsRefreshed :=
  (refresh_forgets_iff rationals_lawful limitsReviewed_reachable (by decide)
    (show refreshState rationals defaultPolicy limitsReviewed limits (1 / 5) 129600000000 = .ok limitsRefreshed by
      decide +kernel)).mpr (.inl rfl)

/-- The point without a review, refreshed at once: as good as known. -/
def limitsRemembered : MemoryStateDraft ℚ :=
  { limitsUnobserved with
    toMemoryState := ⟨0, "KP_LIMITS", 2, some 0, 0, none, 0, 0, none⟩
    retrievability := 1
    nextReviewAt := 16066335695
    riskLevel := .LOW }

/-- A point that nobody has reviewed is forgotten, and its first refresh remembers it. -/
theorem unobserved_point_remembered : Reachable rationals defaultPolicy limitsUnobserved limits (1 / 5) ∧
    refreshState rationals defaultPolicy limitsUnobserved limits (1 / 5) limitsUnobserved.computedAt
        = .ok limitsRemembered ∧
      ¬ Forgets limitsUnobserved limitsRemembered :=
  ⟨limitsUnobserved_reachable, by decide +kernel, by decide +kernel⟩

end CyberControl.MemoryDecay
