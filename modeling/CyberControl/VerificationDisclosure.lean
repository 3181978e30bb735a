import CyberControl.VerificationAggregation

/-! # Disclosure releases and risk

`_decision` releases a candidate with disclosure when only partial support remains and the risk of every
partially supported claim is in `{LOW, partial_release_max_risk}`.  The levels between the two are missing. -/

namespace CyberControl.Verification

/-- `LOW < MEDIUM < HIGH < CRITICAL`. -/
def RiskLevel.rank : RiskLevel → ℕ
  | .LOW => 0
  | .MEDIUM => 1
  | .HIGH => 2
  | .CRITICAL => 3

theorem RiskLevel.rank_inj {l l' : RiskLevel} (h : l.rank = l'.rank) : l = l' := by
  cases l <;> cases l' <;> first | rfl | cases h

/-! ### Lowered risks -/

/-- A risk with the same modules and a level that is no greater. -/
structure Lowers (risk risk' : ClaimRisk) : Prop where
  claimId : risk'.claimId = risk.claimId
  mandatoryModules : risk'.mandatoryModules = risk.mandatoryModules
  level : risk'.level.rank ≤ risk.level.rank

/-- The same risks with some levels lowered. -/
def Lowered (risks risks' : List ClaimRisk) : Prop := List.Forall₂ Lowers risks risks'

section lowered
variable {risks risks' : List ClaimRisk} (h : Lowered risks risks')
include h

theorem Lowered.riskByClaim (claimId : ℕ) :
    (riskByClaim risks claimId = none ∧ riskByClaim risks' claimId = none) ∨
      ∃ risk risk', riskByClaim risks claimId = some risk ∧ riskByClaim risks' claimId = some risk' ∧
        Lowers risk risk' := by
  unfold Verification.riskByClaim
  have hreverse := List.rel_reverse h
  revert hreverse
  generalize risks.reverse = l
  generalize risks'.reverse = l'
  intro hreverse
  induction hreverse with
  | nil => exact .inl ⟨rfl, rfl⟩
  | @cons risk risk' l l' hlowers _ ih =>
    by_cases hid : risk.claimId = claimId
    · right
      refine ⟨risk, risk', List.find?_cons_of_pos (decide_eq_true hid), ?_, hlowers⟩
      exact List.find?_cons_of_pos (decide_eq_true (hlowers.claimId.trans hid))
    · have hid' : ¬ risk'.claimId = claimId := fun h => hid (hlowers.claimId.symm.trans h)
      rw [List.find?_cons_of_neg (by simpa using hid), List.find?_cons_of_neg (by simpa using hid')]
      exact ih

theorem Lowered.levelOf {claimId : ℕ} {l' : RiskLevel} (hl' : levelOf risks' claimId = some l') :
    ∃ l, levelOf risks claimId = some l ∧ l'.rank ≤ l.rank := by
  unfold Verification.levelOf at hl' ⊢
  rcases h.riskByClaim claimId with ⟨-, hnone⟩ | ⟨risk, risk', hrisk, hrisk', hlowers⟩
  · rw [hnone] at hl'
    cases hl'
  · rw [hrisk'] at hl'
    obtain rfl := Option.some.inj hl'
    rw [hrisk]
    exact ⟨risk.level, rfl, hlowers.level⟩

theorem Lowered.verdictOf (results : List ModuleRunResult) (claim : Claim) :
    verdictOf risks' results claim = verdictOf risks results claim := by
  unfold Verification.verdictOf
  rcases h.riskByClaim claim.claimId with ⟨hnone, hnone'⟩ | ⟨risk, risk', hrisk, hrisk', hlowers⟩
  · rw [hnone, hnone']
  · rw [hrisk, hrisk']
    unfold claimVerdict draftVerdict reasonCodes missingModules selectedResults
    simp only [hlowers.mandatoryModules]

end lowered

/-! ### The branch of partial support -/

/-- Only partial support remains: no branch before it is taken. -/
structure OnlyPartial (risks : List ClaimRisk) (verdicts : List ClaimVerdict) : Prop where
  notUnsafe : unsafeCount verdicts = 0
  waivable : verdicts.any (·.nonWaivable) = false
  notCritical : ∀ v ∈ verdicts, levelOf risks v.claimId = some .CRITICAL → v.verdict.supports
  notContradicted : contradictedCount verdicts = 0
  sufficient : insufficientCount verdicts = 0
  notAll : partialVerdicts verdicts ≠ []

section decision
variable {policy : AggregationPolicy} {risks risks' : List ClaimRisk} {verdicts : List ClaimVerdict}

variable (policy risks verdicts) in
/-- Every partially supported claim has one of the two allowed levels. -/
def Allowed : Prop := ∀ v ∈ partialVerdicts verdicts, levelOf risks v.claimId = some .LOW ∨
  levelOf risks v.claimId = some policy.partialReleaseMaxRisk

variable (policy risks verdicts) in
/-- Every partially supported claim has at most the greatest level. -/
def AtMost : Prop := ∀ v ∈ partialVerdicts verdicts, ∀ l, levelOf risks v.claimId = some l →
  l.rank ≤ policy.partialReleaseMaxRisk.rank

variable (policy risks verdicts) in
/-- A partially supported claim has a level strictly between the two. -/
def Skipped : Prop := ∃ v ∈ partialVerdicts verdicts, ∃ l, levelOf risks v.claimId = some l ∧
  RiskLevel.LOW.rank < l.rank ∧ l.rank < policy.partialReleaseMaxRisk.rank

theorem reviseOrReview_cases (revisionRound : ℤ) : reviseOrReview revisionRound = .REVISE ∨
    reviseOrReview revisionRound = .REVIEW_REQUIRED := by
  unfold reviseOrReview
  split_ifs
  · exact .inl rfl
  · exact .inr rfl

theorem OnlyPartial.decision_eq (h : OnlyPartial risks verdicts) (policy : AggregationPolicy)
    (revisionRound : ℤ) :
    (Allowed policy risks verdicts ∧
        decision policy risks verdicts revisionRound = .RELEASE_WITH_DISCLOSURE) ∨
      (¬ Allowed policy risks verdicts ∧
        decision policy risks verdicts revisionRound = reviseOrReview revisionRound) := by
  have hcritical : ¬ (verdicts.any fun v =>
      decide (levelOf risks v.claimId = some .CRITICAL ∧ ¬ v.verdict.supports)) = true := by
    intro hany
    obtain ⟨v, hv, hlevel⟩ := List.any_eq_true.mp hany
    obtain ⟨hlevel, hnot⟩ := of_decide_eq_true hlevel
    exact hnot (h.notCritical v hv hlevel)
  have hblock : ¬ (unsafeCount verdicts ≠ 0 ∨ verdicts.any (·.nonWaivable) = true) := by
    simp [h.notUnsafe, h.waivable]
  have hrevise : ¬ (contradictedCount verdicts ≠ 0 ∨ insufficientCount verdicts ≠ 0) := by
    simp [h.notContradicted, h.sufficient]
  unfold decision
  simp only [if_neg hcritical, if_neg hblock, if_neg hrevise, if_pos h.notAll]
  by_cases hallowed : Allowed policy risks verdicts
  · exact .inl ⟨hallowed, if_pos hallowed⟩
  · exact .inr ⟨hallowed, if_neg hallowed⟩

theorem OnlyPartial.disclosure_iff (h : OnlyPartial risks verdicts) (revisionRound : ℤ) :
    decision policy risks verdicts revisionRound = .RELEASE_WITH_DISCLOSURE ↔
      Allowed policy risks verdicts := by
  rcases h.decision_eq policy revisionRound with ⟨hallowed, hdecision⟩ | ⟨hnot, hdecision⟩
  · exact iff_of_true hdecision hallowed
  · refine iff_of_false ?_ hnot
    rcases reviseOrReview_cases revisionRound with h | h <;> simp [hdecision, h]

theorem onlyPartial_of_disclosure {revisionRound : ℤ}
    (h : decision policy risks verdicts revisionRound = .RELEASE_WITH_DISCLOSURE) :
    OnlyPartial risks verdicts := by
  have hne : reviseOrReview revisionRound ≠ .RELEASE_WITH_DISCLOSURE := by
    rcases reviseOrReview_cases revisionRound with h | h <;> simp [h]
  unfold decision at h
  dsimp only at h
  split_ifs at h with hblock hcritical hrevise hpartial hallowed
  · exact absurd h hne
  · rw [not_or, not_not] at hblock hrevise
    refine ⟨hblock.1, by simpa using hblock.2, fun v hv hlevel => ?_, hrevise.1, not_not.mp hrevise.2,
      hpartial⟩
    by_contra hnot
    exact hcritical (List.any_eq_true.mpr ⟨v, hv, decide_eq_true ⟨hlevel, hnot⟩⟩)
  · exact absurd h hne

theorem OnlyPartial.lowered (h : OnlyPartial risks verdicts) (hlower : Lowered risks risks') :
    OnlyPartial risks' verdicts := by
  refine { h with notCritical := fun v hv hlevel => h.notCritical v hv ?_ }
  obtain ⟨l, hl, hrank⟩ := hlower.levelOf hlevel
  cases l with
  | CRITICAL => exact hl
  | LOW => simp [RiskLevel.rank] at hrank
  | MEDIUM => simp [RiskLevel.rank] at hrank
  | HIGH => simp [RiskLevel.rank] at hrank

theorem Allowed.atMost (h : Allowed policy risks verdicts) : AtMost policy risks verdicts := by
  intro v hv l hl
  rcases h v hv with hlow | hmax
  · rw [hl] at hlow
    rw [Option.some.inj hlow]
    exact Nat.zero_le _
  · rw [hl] at hmax
    rw [Option.some.inj hmax]

theorem AtMost.lowered (h : AtMost policy risks verdicts) (hlower : Lowered risks risks') :
    AtMost policy risks' verdicts := by
  intro v hv l' hl'
  obtain ⟨l, hl, hrank⟩ := hlower.levelOf hl'
  exact hrank.trans (h v hv l hl)

theorem AtMost.allowed_iff (h : AtMost policy risks verdicts)
    (hlevels : ∀ v ∈ verdicts, ∃ l, levelOf risks v.claimId = some l) :
    Allowed policy risks verdicts ↔ ¬ Skipped policy risks verdicts := by
  constructor
  · rintro hallowed ⟨v, hv, l, hl, hlow, hmax⟩
    rcases hallowed v hv with heq | heq
    · rw [Option.some.inj (hl.symm.trans heq)] at hlow
      exact lt_irrefl _ hlow
    · rw [Option.some.inj (hl.symm.trans heq)] at hmax
      exact lt_irrefl _ hmax
  · intro hnot v hv
    obtain ⟨l, hl⟩ := hlevels v (List.mem_of_mem_filter hv)
    have hle := h v hv l hl
    by_cases hlow : l.rank = 0
    · exact .inl ((RiskLevel.rank_inj hlow : l = .LOW) ▸ hl)
    · right
      have hmax : l.rank = policy.partialReleaseMaxRisk.rank := by
        by_contra hne
        refine hnot ⟨v, hv, l, hl, ?_, ?_⟩
        · exact Nat.pos_of_ne_zero hlow
        · omega
      exact RiskLevel.rank_inj hmax ▸ hl

end decision

/-! ### Aggregations -/

theorem levelOf_verdict {risks : List ClaimRisk} {results : List ModuleRunResult} {claims : List Claim}
    {verdicts : List ClaimVerdict}
    (h : List.Forall₂ (fun claim v => verdictOf risks results claim = .ok v) claims verdicts) :
    ∀ v ∈ verdicts, ∃ l, levelOf risks v.claimId = some l := by
  intro v hv
  obtain ⟨claim, -, hverdict⟩ := exists_of_mem_right h hv
  unfold verdictOf at hverdict
  unfold levelOf
  cases hrisk : riskByClaim risks claim.claimId with
  | none =>
    rw [hrisk] at hverdict
    cases hverdict
  | some risk =>
    rw [hrisk] at hverdict
    have hid : v.claimId = claim.claimId := by rw [claimVerdict_ok hverdict, draftVerdict]
    rw [hid, hrisk]
    exact ⟨risk.level, rfl⟩

/-- **Disclosure releases and risk.**  After a disclosure release, lowering risks leads to a revision or a
review exactly when a partially supported claim comes to a skipped level; and where only partial support
remains, the release follows the bound exactly when no claim within it has a skipped level. -/
theorem disclosure_risk {policy : AggregationPolicy} {claims : List Claim} {risks risks' : List ClaimRisk}
    {results : List ModuleRunResult} {revisionRound : ℤ} {verdicts verdicts' : List ClaimVerdict}
    {aggregation aggregation' : AggregationResult} (hlower : Lowered risks risks')
    (h : aggregate policy claims risks results revisionRound = .ok (verdicts, aggregation))
    (h' : aggregate policy claims risks' results revisionRound = .ok (verdicts', aggregation')) :
    (aggregation.decision = .RELEASE_WITH_DISCLOSURE →
      ((aggregation'.decision ≠ .REVISE ∧ aggregation'.decision ≠ .REVIEW_REQUIRED) ↔
        ¬ Skipped policy risks' verdicts')) ∧
    (OnlyPartial risks verdicts →
      ((aggregation.decision = .RELEASE_WITH_DISCLOSURE ↔ AtMost policy risks verdicts) ↔
        (AtMost policy risks verdicts → ¬ Skipped policy risks verdicts))) := by
  obtain ⟨_, _, candidate, _, _, hverdicts, hdraft⟩ := aggregate_ok.mp h
  obtain ⟨_, _, candidate', _, _, hverdicts', hdraft'⟩ := aggregate_ok.mp h'
  have hsame : verdicts' = verdicts := by
    have hverdictOf : verdictOf risks' results = verdictOf risks results :=
      funext fun claim => hlower.verdictOf results claim
    have hrun := mapM_eq_ok.mpr hverdicts'
    rw [hverdictOf, mapM_eq_ok.mpr hverdicts] at hrun
    exact (Except.ok.inj hrun).symm
  subst hsame
  rw [candidateDecision_ok hdraft, candidateDecision_ok hdraft']
  refine ⟨fun hrelease => ?_, fun honly => ?_⟩
  · have honly := onlyPartial_of_disclosure hrelease
    have hatMost := ((honly.disclosure_iff revisionRound).mp hrelease).atMost.lowered hlower
    rw [← hatMost.allowed_iff (levelOf_verdict hverdicts'),
      ← (honly.lowered hlower).disclosure_iff revisionRound]
    rcases (honly.lowered hlower).decision_eq policy revisionRound with ⟨-, hdecision⟩ | ⟨-, hdecision⟩
    · simp [hdecision]
    · rcases reviseOrReview_cases revisionRound with hrevise | hreview
      · simp [hdecision, hrevise]
      · simp [hdecision, hreview]
  · rw [honly.disclosure_iff revisionRound]
    constructor
    · intro hiff hatMost
      exact (hatMost.allowed_iff (levelOf_verdict hverdicts)).mp (hiff.mpr hatMost)
    · intro hnot
      refine ⟨Allowed.atMost, fun hatMost => ?_⟩
      exact (hatMost.allowed_iff (levelOf_verdict hverdicts)).mpr (hnot hatMost)

/-! ### A lowered risk -/

/-- Up to high risks are released. -/
def highPolicy : AggregationPolicy :=
  { samplePolicy with partialReleaseMaxRisk := .HIGH }

def riskAt (level : RiskLevel) : ClaimRisk where
  claimId := 1
  level := level
  mandatoryModules := [.C2_RAG]

theorem partialResults_version : 1 ≤ 3 := by decide

/-- One module supports the claim in part. -/
def partialResults : List ModuleRunResult :=
  [sampleResult 10 3 .C2_RAG .PARTIALLY_SUPPORTED partialResults_version]

/-- The decision that is taken on partial support at that level. -/
def decisionAt (level : RiskLevel) : Option AggregateDecision :=
  (aggregate highPolicy [sampleClaim] [riskAt level] partialResults 0).toOption.map (·.2.decision)

theorem disclosure_risk_high : ∃ verdicts verdicts' aggregation aggregation',
    aggregate highPolicy [sampleClaim] [riskAt .HIGH] partialResults 0 = .ok (verdicts, aggregation) ∧
      aggregate highPolicy [sampleClaim] [riskAt .LOW] partialResults 0 = .ok (verdicts', aggregation') ∧
      (aggregation.decision = .RELEASE_WITH_DISCLOSURE →
        ((aggregation'.decision ≠ .REVISE ∧ aggregation'.decision ≠ .REVIEW_REQUIRED) ↔
          ¬ Skipped highPolicy [riskAt .LOW] verdicts')) := by
  have hruns : ∀ level ∈ [RiskLevel.HIGH, RiskLevel.LOW], (aggregate highPolicy [sampleClaim] [riskAt level]
      partialResults 0).toOption.isSome := by decide
  obtain ⟨⟨verdicts, aggregation⟩, h⟩ := Option.isSome_iff_exists.mp (hruns .HIGH (by simp))
  obtain ⟨⟨verdicts', aggregation'⟩, h'⟩ := Option.isSome_iff_exists.mp (hruns .LOW (by simp))
  have hlower : Lowered [riskAt .HIGH] [riskAt .LOW] := .cons ⟨rfl, rfl, by decide⟩ .nil
  exact ⟨verdicts, verdicts', aggregation, aggregation', eq_ok_of_toOption h, eq_ok_of_toOption h',
    (disclosure_risk hlower (eq_ok_of_toOption h) (eq_ok_of_toOption h')).1⟩

/-- **A risk that is lowered from high to medium takes the release away**, under a policy that releases up to
high risks. -/
theorem lowered_risk_revised : Lowered [riskAt .HIGH] [riskAt .MEDIUM] ∧
    decisionAt .HIGH = some .RELEASE_WITH_DISCLOSURE ∧ decisionAt .MEDIUM = some .REVISE := by
  refine ⟨.cons ⟨rfl, rfl, ?_⟩ .nil, ?_, ?_⟩
  all_goals decide

end CyberControl.Verification
