import CyberControl.MemoryDecay

/-! # Bounds of memory states

The runs of `EbbinghausMemoryEngine` in exact arithmetic. -/

namespace CyberControl.MemoryDecay

variable {K : Type} [Field K] [LinearOrder K]

/-- Exact arithmetic: `exp` is monotone, `round12` is monotone and rounds to twelve decimals. -/
structure Floats.Exact (A : Floats K) : Prop where
  literal : ∀ m e, A.literal m e = m / 10 ^ e
  ofNat : ∀ n, A.ofNat n = n
  neg : ∀ x, A.neg x = -x
  add : ∀ x y, A.add x y = x + y
  sub : ∀ x y, A.sub x y = x - y
  mul : ∀ x y, A.mul x y = x * y
  div : ∀ x y, A.div x y = x / y
  exp_mono : ∀ x y, x ≤ y → A.exp x ≤ A.exp y
  exp_zero : A.exp 0 = 1
  exp_nonneg : ∀ x, 0 ≤ A.exp x
  round12_mono : ∀ x y, x ≤ y → A.round12 x ≤ A.round12 y
  round12_decimal : ∀ n e : ℕ, e ≤ 12 → A.round12 (n / 10 ^ e) = n / 10 ^ e
  round12_idem : ∀ x, A.round12 (A.round12 x) = A.round12 x
  days_nonneg : ∀ n, 0 ≤ A.days n
  le_later : ∀ n x, 0 ≤ x → n ≤ A.later n x

/-- The stabilities of the policy have at most twelve decimals and are in the range of a state. -/
structure MemoryPolicy.Fits {A : Floats K} (policy : MemoryPolicy A) : Prop where
  minimum : A.round12 policy.minimumStabilityDays = policy.minimumStabilityDays
  base : A.round12 policy.baseStabilityDays = policy.baseStabilityDays
  maximum : A.round12 policy.maximumStabilityDays = policy.maximumStabilityDays
  maximum_le : policy.maximumStabilityDays ≤ 36500

/-- The score of the point is a score, and its difficulty factor is in the range of a state. -/
structure Graded (A : Floats K) (policy : MemoryPolicy A) (point : KnowledgePoint K) : Prop where
  score : 0 ≤ point.difficultyScore ∧ point.difficultyScore ≤ 1
  difficulty : 1 / 4 ≤ difficultyOf A policy point ∧ difficultyOf A policy point ≤ 4

/-- A refresh, or a review of some quality. -/
structure Operation (K : Type) where
  point : KnowledgePoint K
  forgettingRate : K
  reviewQuality : Option K
  time : ℕ

section
variable (A : Floats K) (policy : MemoryPolicy A)

def Operation.apply (state : MemoryStateDraft K) (operation : Operation K) :
    Except Exn (MemoryStateDraft K) :=
  match operation.reviewQuality with
  | none => refreshState A policy state operation.point operation.forgettingRate operation.time
  | some quality =>
    applyReview A policy state operation.point operation.forgettingRate quality operation.time

/-- The operation is about the point of the state, not before its anchor, and its numbers are scores. -/
structure Operation.Admissible (state : MemoryStateDraft K) (operation : Operation K) : Prop where
  graded : Graded A policy operation.point
  identity : (state.courseId, state.kpId) = (operation.point.courseId, operation.point.kpId)
  rate : 0 ≤ operation.forgettingRate ∧ operation.forgettingRate ≤ 1
  quality : ∀ quality ∈ operation.reviewQuality, 0 ≤ quality ∧ quality ≤ 1
  anchor_le : state.anchor ≤ operation.time

/-- What a refresh or a review does to the stability and to the version. -/
def Moves (state state' : MemoryStateDraft K) (reviewQuality : Option K) : Prop :=
  state'.stateVersion = state.stateVersion + 1 ∧
    match reviewQuality with
    | none => state'.stabilityDays = state.stabilityDays
    | some quality =>
      if policy.successQualityThreshold ≤ quality then state.stabilityDays ≤ state'.stabilityDays
      else state'.stabilityDays ≤ state.stabilityDays

inductive Run : MemoryStateDraft K → Prop
  | initial {learnerRef : String} {point : KnowledgePoint K} {rate : K} {initializedAt : ℕ}
      {state : MemoryStateDraft K} (hpoint : Graded A policy point) (hrate : 0 ≤ rate ∧ rate ≤ 1)
      (h : initializeState A policy learnerRef point rate initializedAt = .ok state) : Run state
  | step {state state' : MemoryStateDraft K} {operation : Operation K} (hrun : Run state)
      (hadmissible : operation.Admissible A policy state) (h : operation.apply A policy state = .ok state') :
      Run state'

structure InBounds (state : MemoryStateDraft K) : Prop where
  minimum_le : policy.minimumStabilityDays ≤ state.stabilityDays
  le_maximum : state.stabilityDays ≤ policy.maximumStabilityDays
  rounded : A.round12 state.stabilityDays = state.stabilityDays
  lapses_le : state.lapseCount ≤ state.reviewCount
  computedAt_le : state.computedAt ≤ state.nextReviewAt

end

variable {A : Floats K} {policy : MemoryPolicy A} {state : MemoryStateDraft K} {point : KnowledgePoint K}
  {rate : K}

/-! ### Parts of an operation -/

section rounding
variable (hA : A.Exact)
include hA

theorem checkScore_ok {name : String} {value : K} (h : 0 ≤ value ∧ value ≤ 1) :
    checkScore A name value = .ok () := by
  unfold checkScore
  rw [ensure_eq_ok]
  simpa [hA.literal] using h

theorem Floats.Exact.round12_le {x g : K} (hg : A.round12 g = g) (h : x ≤ g) : A.round12 x ≤ g :=
  hg ▸ hA.round12_mono x g h

theorem Floats.Exact.le_round12 {x g : K} (hg : A.round12 g = g) (h : g ≤ x) : g ≤ A.round12 x :=
  hg ▸ hA.round12_mono g x h

theorem Floats.Exact.round12_natCast (n : ℕ) : A.round12 n = n := by
  simpa using hA.round12_decimal n 0 (by omega)

theorem Floats.Exact.round12_zero : A.round12 0 = 0 := by simpa using hA.round12_natCast 0

end rounding

variable [IsStrictOrderedRing K]

theorem gain_mem {quality left : K} (hquality : 0 ≤ quality ∧ quality ≤ 1) (hleft : 0 ≤ left ∧ left ≤ 1)
    (n : ℕ) : 1 ≤ (1 + quality * (1 + (1 - left))) * (1 + (min n 20 : ℕ) * (3 / 100)) ∧
      (1 + quality * (1 + (1 - left))) * (1 + (min n 20 : ℕ) * (3 / 100)) ≤ 16 := by
  have hbonus : (0 : K) ≤ (min n 20 : ℕ) ∧ ((min n 20 : ℕ) : K) ≤ 20 :=
    ⟨Nat.cast_nonneg _, by exact_mod_cast min_le_right n 20⟩
  have hfirst : 1 ≤ 1 + quality * (1 + (1 - left)) ∧ 1 + quality * (1 + (1 - left)) ≤ 3 := by
    constructor
    · have := mul_nonneg hquality.1 (show 0 ≤ 1 + (1 - left) by linarith)
      linarith
    · have := mul_le_mul hquality.2 (show 1 + (1 - left) ≤ 2 by linarith) (by linarith) zero_le_one
      linarith
  constructor
  · exact one_le_mul_of_one_le_of_one_le hfirst.1 (by linarith)
  · have := mul_le_mul hfirst.2 (show 1 + ((min n 20 : ℕ) : K) * (3 / 100) ≤ 8 / 5 by linarith) (by linarith)
      (by norm_num)
    linarith

section parts
variable (hA : A.Exact)
include hA

theorem difficultyFactor_ok (h : Graded A policy point) :
    difficultyFactor A policy point = .ok (difficultyOf A policy point) := by
  unfold difficultyFactor
  rw [checkScore_ok hA h.score]
  rfl

theorem effectiveStability_ok (hfits : policy.Fits) (hpoint : Graded A policy point)
    (hrate : 0 ≤ rate ∧ rate ≤ 1) {stability : K} (hpos : 0 < stability) :
    let effective := effectiveDays A policy stability (difficultyOf A policy point) rate
    effectiveStability A policy stability (difficultyOf A policy point) rate = .ok effective ∧
      0 < effective ∧ effective ≤ 36500 := by
  intro effective
  have hdifficulty : 0 < difficultyOf A policy point := by linarith [hpoint.difficulty.1]
  have hmaximum : 0 < policy.maximumStabilityDays := by
    have hminimum := policy.minimum_mem.1
    rw [hA.literal] at hminimum
    have hbase := policy.minimum_mem.2.trans policy.base_le_maximum
    simp at hminimum
    linarith
  refine ⟨?_, ?_, ?_⟩
  · unfold effectiveStability
    rw [ensure_eq_ok.mpr (by simpa [hA.literal] using ⟨hpos, hdifficulty⟩), checkScore_ok hA hrate]
    rfl
  · have hnano : A.round12 (1 / 10 ^ 9) = 1 / 10 ^ 9 := by
      simpa using hA.round12_decimal 1 9 (by omega)
    have hfloor : A.round12 (min policy.maximumStabilityDays (1 / 10 ^ 9)) =
        min policy.maximumStabilityDays (1 / 10 ^ 9) := by
      rcases min_choice policy.maximumStabilityDays (1 / 10 ^ 9 : K) with h | h
      · rw [h, hfits.maximum]
      · rw [h, hnano]
    have hle := hA.le_round12 hfloor (min_le_min_left policy.maximumStabilityDays
      (le_max_left (1 / 10 ^ 9) (A.div stability (A.mul (difficultyOf A policy point)
        (A.add policy.forgettingBase (A.mul policy.forgettingScale rate))))))
    have hlow : (0 : K) < min policy.maximumStabilityDays (1 / 10 ^ 9) := lt_min hmaximum (by positivity)
    refine hlow.trans_le (hle.trans_eq ?_)
    simp [effective, effectiveDays, hA.literal]
  · exact (hA.round12_le hfits.maximum (min_le_left _ _)).trans hfits.maximum_le

theorem retrievability_ok {elapsed effective : K} (helapsed : 0 ≤ elapsed) (heffective : 0 < effective) :
    retrievability A elapsed effective = .ok (decayOver A elapsed effective) ∧
      0 ≤ decayOver A elapsed effective ∧ decayOver A elapsed effective ≤ 1 := by
  have hone := hA.round12_natCast 1
  rw [Nat.cast_one] at hone
  refine ⟨?_, hA.le_round12 hA.round12_zero (hA.exp_nonneg _), hA.round12_le hone ?_⟩
  · unfold retrievability
    rw [ensure_eq_ok.mpr (by simpa [hA.literal] using ⟨helapsed, heffective⟩)]
    rfl
  · rw [← hA.exp_zero, hA.div, hA.neg]
    exact hA.exp_mono _ _ (div_nonpos_of_nonpos_of_nonneg (neg_nonpos.mpr helapsed) heffective.le)

theorem reviewInterval_ok (policy : MemoryPolicy A) {effective : K} (heffective : 0 < effective) :
    ∃ interval, reviewInterval A policy effective = .ok interval ∧ 0 ≤ interval := by
  have hpositive := policy.positive policy.maximumReviewIntervalDays (by simp)
  rw [hA.literal] at hpositive
  refine ⟨A.round12 (min policy.maximumReviewIntervalDays (max (A.literal 0 0)
    (A.mul (A.neg effective) (A.log policy.targetRetrievability)))), ?_, hA.le_round12 hA.round12_zero ?_⟩
  · unfold reviewInterval
    rw [ensure_eq_ok.mpr (by simpa [hA.literal] using heffective)]
    rfl
  · exact le_min (by simpa using hpositive.le) (by simp [hA.literal])

theorem riskLevel_ok {left : K} (h : 0 ≤ left ∧ left ≤ 1) : riskLevel A left = .ok (riskOf A left) := by
  unfold riskLevel
  rw [checkScore_ok hA h]
  rfl

theorem checked_ok (hversion : 1 ≤ state.stateVersion)
    (hstability : 0 < state.stabilityDays ∧ state.stabilityDays ≤ 36500)
    (heffective : 0 < state.effectiveStabilityDays ∧ state.effectiveStabilityDays ≤ 36500)
    (helapsed : 0 ≤ state.elapsedDays) (hleft : 0 ≤ state.retrievability ∧ state.retrievability ≤ 1)
    (hrate : 0 ≤ state.forgettingRate ∧ state.forgettingRate ≤ 1)
    (hdifficulty : 1 / 4 ≤ state.difficultyFactor ∧ state.difficultyFactor ≤ 4)
    (hgain : 0 ≤ state.reviewGain ∧ state.reviewGain ≤ 16) (hlapses : state.lapseCount ≤ state.reviewCount) :
    checked A state = .ok state := by
  have hquarter : (25 : K) / 10 ^ 2 = 1 / 4 := by norm_num
  unfold checked
  simp only [hA.literal, hA.ofNat, Nat.cast_ofNat, hquarter, Nat.cast_zero, zero_div]
  rw [checkScore_ok hA hleft, checkScore_ok hA hrate, ensure_eq_ok.mpr hversion, ensure_eq_ok.mpr hstability,
    ensure_eq_ok.mpr heffective, ensure_eq_ok.mpr helapsed, ensure_eq_ok.mpr hdifficulty,
    ensure_eq_ok.mpr hgain, ensure_eq_ok.mpr hlapses]
  rfl

end parts

/-! ### Steps -/

section steps
variable (hA : A.Exact) (hfits : policy.Fits)
include hA hfits

theorem InBounds.stability_pos (h : InBounds A policy state) :
    0 < state.stabilityDays ∧ state.stabilityDays ≤ 36500 := by
  have hminimum := policy.minimum_mem.1
  simp only [hA.literal, Nat.cast_zero, zero_div] at hminimum
  exact ⟨hminimum.trans_le h.minimum_le, h.le_maximum.trans hfits.maximum_le⟩

theorem InBounds.refresh (h : InBounds A policy state) {asOf : ℕ}
    (hadmissible : (⟨point, rate, none, asOf⟩ : Operation K).Admissible A policy state) :
    ∃ state', refreshState A policy state point rate asOf = .ok state' ∧ InBounds A policy state' ∧
      Moves A policy state state' none := by
  obtain ⟨hpoint, hidentity, hrate, -, htime⟩ := hadmissible
  obtain ⟨hpos, hle⟩ := h.stability_pos hA hfits
  obtain ⟨heffective, heffective_mem⟩ := effectiveStability_ok hA hfits hpoint hrate hpos
  obtain ⟨hleft, hleft_mem⟩ := retrievability_ok hA (hA.days_nonneg (asOf - state.anchor)) heffective_mem.1
  obtain ⟨interval, hinterval, hinterval_nonneg⟩ := reviewInterval_ok hA policy heffective_mem.1
  unfold refreshState validateIdentity Memory.refreshState
  simp only [ensure_eq_ok.mpr hidentity, checkScore_ok hA hrate, if_neg (Nat.not_lt.mpr htime),
    difficultyFactor_ok hA hpoint, heffective, hleft, hinterval, riskLevel_ok hA hleft_mem, bind, Except.bind]
  refine ⟨_, checked_ok hA (Nat.le_add_left _ _) ⟨hpos, hle⟩ heffective_mem
    (hA.le_round12 hA.round12_zero (hA.days_nonneg _)) hleft_mem hrate hpoint.difficulty ?_ h.lapses_le,
    ⟨h.minimum_le, h.le_maximum, h.rounded, h.lapses_le, le_max_left _ _⟩, rfl, rfl⟩
  simp [hA.literal]

/-- The stability after a review: within the bounds, on its side of the stability before, and with counters
that agree. -/
theorem reviewed_mem (h : InBounds A policy state) {quality left : K} (hquality : 0 ≤ quality ∧ quality ≤ 1)
    (hleft : 0 ≤ left ∧ left ≤ 1) {stability gain : K} {lapses : ℕ}
    (hreviewed : reviewed A policy state quality left = (stability, gain, lapses)) :
    (policy.minimumStabilityDays ≤ stability ∧ stability ≤ policy.maximumStabilityDays) ∧
      (0 ≤ gain ∧ gain ≤ 16) ∧ lapses ≤ state.reviewCount + 1 ∧
      if policy.successQualityThreshold ≤ quality then state.stabilityDays ≤ stability
      else stability ≤ state.stabilityDays := by
  obtain ⟨hpos, -⟩ := h.stability_pos hA hfits
  have hbase := policy.minimum_mem.2.trans policy.base_le_maximum
  obtain ⟨hzero, hone, hbonus, hlow, hhigh⟩ : A.literal 0 0 = 0 ∧ A.literal 1 0 = 1 ∧
      A.literal 3 2 = 3 / 100 ∧ A.literal 45 2 = 9 / 20 ∧ A.literal 25 2 = 1 / 4 := by
    simp only [hA.literal]
    norm_num
  unfold reviewed at hreviewed
  simp only [hzero, hone, hbonus, hlow, hhigh, hA.ofNat, hA.add, hA.sub, hA.mul] at hreviewed
  split_ifs at hreviewed ⊢ with hsuccess <;> simp only [Prod.mk.injEq] at hreviewed <;>
    obtain ⟨rfl, rfl, rfl⟩ := hreviewed
  · have hgain := gain_mem hquality hleft state.reviewCount
    have hgrown := le_mul_of_one_le_right (hpos.le.trans (le_max_right policy.baseStabilityDays _)) hgain.1
    refine ⟨⟨le_min hbase ?_, min_le_left _ _⟩, ⟨by linarith [hgain.1], hgain.2⟩, h.lapses_le.trans
      (Nat.le_succ _), le_min h.le_maximum ((le_max_right _ _).trans hgrown)⟩
    exact policy.minimum_mem.2.trans ((le_max_left _ _).trans hgrown)
  · have hshrunk : state.stabilityDays * (9 / 20 + 1 / 4 * quality) ≤ state.stabilityDays :=
      mul_le_of_le_one_right hpos.le (by linarith [hquality.2])
    exact ⟨⟨le_max_left _ _, max_le hbase (hshrunk.trans h.le_maximum)⟩, ⟨le_rfl, by norm_num⟩,
      Nat.succ_le_succ h.lapses_le, max_le h.minimum_le hshrunk⟩

theorem InBounds.review (h : InBounds A policy state) {quality : K} {reviewedAt : ℕ}
    (hadmissible : (⟨point, rate, some quality, reviewedAt⟩ : Operation K).Admissible A policy state) :
    ∃ state', applyReview A policy state point rate quality reviewedAt = .ok state' ∧
      InBounds A policy state' ∧ Moves A policy state state' (some quality) := by
  obtain ⟨hpoint, hidentity, hrate, hquality, htime⟩ := hadmissible
  have hquality := hquality quality rfl
  obtain ⟨hpos, -⟩ := h.stability_pos hA hfits
  obtain ⟨hprevious, hprevious_mem⟩ := effectiveStability_ok hA hfits hpoint hrate hpos
  obtain ⟨hleft, hleft_mem⟩ :=
    retrievability_ok hA (hA.days_nonneg (reviewedAt - state.anchor)) hprevious_mem.1
  rcases hreviewed : reviewed A policy state quality (decayOver A (A.days (reviewedAt - state.anchor))
    (effectiveDays A policy state.stabilityDays (difficultyOf A policy point) rate)) with ⟨stability, gain,
    lapses⟩
  obtain ⟨hstability, hgain, hlapses, hmoves⟩ := reviewed_mem hA hfits h hquality hleft_mem hreviewed
  have hminimum := policy.minimum_mem.1
  simp only [hA.literal, Nat.cast_zero, zero_div] at hminimum
  obtain ⟨heffective, heffective_mem⟩ :=
    effectiveStability_ok hA hfits hpoint hrate (hminimum.trans_le hstability.1)
  obtain ⟨interval, hinterval, hinterval_nonneg⟩ := reviewInterval_ok hA policy heffective_mem.1
  have hrounded : policy.minimumStabilityDays ≤ A.round12 stability ∧
      A.round12 stability ≤ policy.maximumStabilityDays :=
    ⟨hA.le_round12 hfits.minimum hstability.1, hA.round12_le hfits.maximum hstability.2⟩
  unfold applyReview validateIdentity Memory.applyReview
  simp only [ensure_eq_ok.mpr hidentity, checkScore_ok hA hrate, checkScore_ok hA hquality,
    if_neg (Nat.not_lt.mpr htime), difficultyFactor_ok hA hpoint, hprevious, hleft, hreviewed, heffective,
    hinterval, bind, Except.bind]
  have hgain_mem : 0 ≤ A.round12 gain ∧ A.round12 gain ≤ 16 :=
    ⟨hA.le_round12 hA.round12_zero hgain.1, hA.round12_le (hA.round12_natCast 16) (by simpa using hgain.2)⟩
  refine ⟨_, checked_ok hA (Nat.le_add_left _ _)
    ⟨hminimum.trans_le hrounded.1, hrounded.2.trans hfits.maximum_le⟩ heffective_mem ?_ ?_ hrate
    hpoint.difficulty hgain_mem hlapses, ⟨hrounded.1, hrounded.2, hA.round12_idem _, hlapses,
      hA.le_later _ _ hinterval_nonneg⟩, rfl, ?_⟩
  · simp [hA.literal]
  · simp [hA.literal]
  · show if _ then state.stabilityDays ≤ A.round12 stability else A.round12 stability ≤ state.stabilityDays
    split_ifs at hmoves ⊢
    · exact hA.le_round12 h.rounded hmoves
    · exact hA.round12_le h.rounded hmoves

theorem InBounds.apply (h : InBounds A policy state) {operation : Operation K}
    (hadmissible : operation.Admissible A policy state) :
    ∃ state', operation.apply A policy state = .ok state' ∧ InBounds A policy state' ∧
      Moves A policy state state' operation.reviewQuality := by
  obtain ⟨point, rate, reviewQuality, time⟩ := operation
  cases reviewQuality with
  | none => exact h.refresh hA hfits hadmissible
  | some quality => exact h.review hA hfits hadmissible

end steps

/-! ### Runs -/

theorem initializeState_inBounds (hA : A.Exact) (hfits : policy.Fits) (hpoint : Graded A policy point)
    (hrate : 0 ≤ rate ∧ rate ≤ 1) (learnerRef : String) (initializedAt : ℕ) :
    ∃ state, initializeState A policy learnerRef point rate initializedAt = .ok state ∧
      InBounds A policy state := by
  have hminimum := policy.minimum_mem.1
  simp only [hA.literal, Nat.cast_zero, zero_div] at hminimum
  have hpos := hminimum.trans_le policy.minimum_mem.2
  obtain ⟨heffective, heffective_mem⟩ := effectiveStability_ok hA hfits hpoint hrate hpos
  unfold initializeState
  simp only [checkScore_ok hA hrate, difficultyFactor_ok hA hpoint, heffective, bind, Except.bind]
  refine ⟨_, checked_ok hA le_rfl ⟨hpos, policy.base_le_maximum.trans hfits.maximum_le⟩ heffective_mem ?_ ?_
    hrate hpoint.difficulty ?_ le_rfl,
    ⟨policy.minimum_mem.2, policy.base_le_maximum, hfits.base, le_rfl, le_rfl⟩⟩ <;>
  simp [hA.literal]

theorem Run.inBounds (hA : A.Exact) (hfits : policy.Fits) (h : Run A policy state) :
    InBounds A policy state := by
  induction h with
  | initial hpoint hrate h =>
    obtain ⟨state', hok, hbounds⟩ := initializeState_inBounds hA hfits hpoint hrate _ _
    rw [hok] at h
    cases h
    exact hbounds
  | step hrun hadmissible h ih =>
    obtain ⟨after, hok, hbounds, -⟩ := ih.apply hA hfits hadmissible
    cases hok.symm.trans h
    exact hbounds

/-- **Memory states stay within their bounds**, and no operation of a run raises, under a policy that fits
the ranges of a state. -/
theorem memory_in_bounds (hA : A.Exact) (hfits : policy.Fits) :
    (∀ learnerRef point rate initializedAt, Graded A policy point → 0 ≤ rate ∧ rate ≤ 1 →
      ∃ state, initializeState A policy learnerRef point rate initializedAt = .ok state) ∧
    ∀ state, Run A policy state → InBounds A policy state ∧
      ∀ operation : Operation K, operation.Admissible A policy state →
        ∃ state', operation.apply A policy state = .ok state' ∧
          Moves A policy state state' operation.reviewQuality := by
  refine ⟨fun learnerRef point rate initializedAt hpoint hrate => ?_, fun state hrun =>
    ⟨hrun.inBounds hA hfits, fun operation hadmissible => ?_⟩⟩
  · obtain ⟨state, hok, -⟩ := initializeState_inBounds hA hfits hpoint hrate learnerRef initializedAt
    exact ⟨state, hok⟩
  · obtain ⟨after, hok, -, hmoves⟩ := (hrun.inBounds hA hfits).apply hA hfits hadmissible
    exact ⟨after, hok, hmoves⟩

theorem rationals_round12 (z : ℤ) : rationals.round12 (z / 10 ^ 12) = z / 10 ^ 12 := by
  show (⌊(z / 10 ^ 12 * 10 ^ 12 : ℚ) + 1 / 2⌋ : ℚ) / 10 ^ 12 = z / 10 ^ 12
  rw [div_mul_cancel₀ _ (by positivity), Int.floor_intCast_add]
  norm_num

theorem rationals_exact : rationals.Exact where
  literal _ _ := rfl
  ofNat _ := rfl
  neg _ := rfl
  add _ _ := rfl
  sub _ _ := rfl
  mul _ _ := rfl
  div _ _ := rfl
  exp_mono _ _ := exp_le
  exp_zero := by decide +kernel
  exp_nonneg x := by
    show (0 : ℚ) ≤ if x ≤ -29 then 0 else max (1 / 10) _
    split_ifs
    · exact le_rfl
    · exact le_max_of_le_left (by norm_num)
  round12_mono _ _ := round12_le
  round12_decimal n e he := by
    have hscale : (n : ℚ) / 10 ^ e = ((n * 10 ^ (12 - e) : ℤ) : ℚ) / 10 ^ 12 := by
      rw [div_eq_div_iff (by positivity) (by positivity)]
      push_cast
      rw [mul_assoc, ← pow_add, Nat.sub_add_cancel he]
    rw [hscale, rationals_round12]
  round12_idem _ := rationals_round12 _
  days_nonneg n := by
    show (0 : ℚ) ≤ n / 86400000000
    positivity
  le_later n x _ := Nat.le_add_right _ _

theorem graded_limits : Graded rationals defaultPolicy limits := ⟨by decide +kernel, by decide +kernel⟩

theorem admissible_limits {state : MemoryStateDraft ℚ} (reviewQuality : Option ℚ) (time : ℕ)
    (hidentity : (state.courseId, state.kpId) = (limits.courseId, limits.kpId))
    (hquality : ∀ quality ∈ reviewQuality, 0 ≤ quality ∧ quality ≤ 1) (htime : state.anchor ≤ time) :
    Operation.Admissible rationals defaultPolicy state ⟨limits, 1 / 5, reviewQuality, time⟩ where
  graded := graded_limits
  identity := hidentity
  rate := (by decide +kernel : (0 : ℚ) ≤ 1 / 5 ∧ (1 / 5 : ℚ) ≤ 1)
  quality := hquality
  anchor_le := htime

/-- A review and a refresh under the default policy, and then a review that fails. -/
theorem memory_in_bounds_default : InBounds rationals defaultPolicy limitsRefreshed ∧
    ∃ state, applyReview rationals defaultPolicy limitsRefreshed limits (1 / 5) 0 129600000000 = .ok state ∧
      Moves rationals defaultPolicy limitsRefreshed state (some 0) := by
  have hfits : defaultPolicy.Fits := ⟨by decide +kernel, by decide +kernel, by decide +kernel,
    by decide +kernel⟩
  have hrun : Run rationals defaultPolicy limitsUnobserved :=
    .initial graded_limits (by decide +kernel)
      (show initializeState rationals defaultPolicy "subject:student" limits (1 / 5) 0 = .ok limitsUnobserved by
        decide +kernel)
  have hreviewed : Run rationals defaultPolicy limitsReviewed :=
    hrun.step (admissible_limits (some (8 / 10)) 0 rfl (by simp; norm_num) (Nat.le_refl 0))
      (show applyReview rationals defaultPolicy limitsUnobserved limits (1 / 5) (8 / 10) 0 = .ok limitsReviewed by
        decide +kernel)
  have hrefreshed : Run rationals defaultPolicy limitsRefreshed :=
    hreviewed.step (admissible_limits none 129600000000 rfl nofun (by decide))
      (show refreshState rationals defaultPolicy limitsReviewed limits (1 / 5) 129600000000
          = .ok limitsRefreshed by decide +kernel)
  obtain ⟨hbounds, hmoves⟩ := (memory_in_bounds rationals_exact hfits).2 limitsRefreshed hrefreshed
  exact ⟨hbounds, hmoves _ (admissible_limits (some 0) 129600000000 rfl (by simp) (by decide))⟩

def rigidPolicy (stability : ℚ) (hpos : rationals.literal 0 0 < stability) : MemoryPolicy rationals :=
  { defaultPolicy with
    minimumStabilityDays := stability, baseStabilityDays := stability, maximumStabilityDays := stability
    minimum_mem := ⟨hpos, le_rfl⟩, base_le_maximum := le_rfl }

/-- `MemoryPolicy` accepts a difficulty factor and a stability that no state may have, and one that rounding
moves above its maximum. -/
theorem steep_policy_raises :
    (¬ ∀ (policy : MemoryPolicy rationals) (point : KnowledgePoint ℚ),
      0 ≤ point.difficultyScore ∧ point.difficultyScore ≤ 1 →
        ∃ state, initializeState rationals policy "subject:student" point (1 / 5) 0 = .ok state) ∧
    (initializeState rationals (rigidPolicy 40000 (by decide +kernel)) "" limits (1 / 5) 0).toOption = none ∧
    (initializeState rationals (rigidPolicy (2 / 3) (by decide +kernel)) "" limits (1 / 5) 0 >>= fun state =>
      applyReview rationals (rigidPolicy (2 / 3) (by decide +kernel)) state limits (1 / 5) 1 0).toOption.any
        (2 / 3 < ·.stabilityDays) := by
  refine ⟨fun h => ?_, by decide +kernel, by decide +kernel⟩
  obtain ⟨state, hstate⟩ := h { defaultPolicy with difficultyBase := 5, positive := by decide +kernel } limits
    (by decide +kernel)
  have hraises : (initializeState rationals { defaultPolicy with
      difficultyBase := 5, positive :=
        by decide +kernel } "subject:student" limits (1 / 5) 0).toOption = none := by
    decide +kernel
  rw [hstate] at hraises
  cases hraises

end CyberControl.MemoryDecay
