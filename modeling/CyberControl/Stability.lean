import CyberControl.VerificationAggregation
import Mathlib.Algebra.Polynomial.Roots
import Mathlib.Analysis.Complex.Norm
import Mathlib.RingTheory.SimpleRing.Principal

/-! # Stability analysis

`StabilityAnalyzer` (`academic/stability.py`) over an ordered field of numbers and a type of poles. -/

namespace CyberControl.Stability
open Verification (VerificationVerdict)

/-! ### Models -/

inductive StabilityDomain where
  | CONTINUOUS
  | DISCRETE
deriving DecidableEq, Repr

inductive StabilityConclusion where
  | STABLE
  | UNSTABLE
  | MARGINAL
  | INDETERMINATE
deriving DecidableEq, Repr

inductive Representation where
  | TRANSFER_FUNCTION
  | STATE_SPACE
  | CHARACTERISTIC_POLYNOMIAL
deriving DecidableEq, Repr

structure StabilityPolicy (K : Type) [Field K] [LinearOrder K] where
  tolerance : K
  maxPolynomialDegree : ℕ := 256
  maxMatrixDimension : ℕ := 64
  tolerance_mem : 0 < tolerance ∧ tolerance ≤ 1 / 100
  degree_mem : 1 ≤ maxPolynomialDegree ∧ maxPolynomialDegree ≤ 1024 := by decide
  dimension_mem : 1 ≤ maxMatrixDimension ∧ maxMatrixDimension ≤ 128 := by decide

def engineVersion : String := "c3-stability-engine-v1"

structure StabilityModelPayload (K : Type) where
  domain : StabilityDomain
  representation : Representation
  numeratorCoefficients : List K
  denominatorCoefficients : List K
  stateSpaceMatrices : List (String × List (List K))
  sampleTimeSeconds : Option K
  assumptions : List String
  engineVersion : String := Stability.engineVersion

/-- `StabilityModelV1`, with what its validator checks. -/
structure StabilityModelV1 (K : Type) where
  tenantId : String
  domain : StabilityDomain
  representation : Representation
  numeratorCoefficients : List K
  denominatorCoefficients : List K
  stateSpaceMatrices : List (String × List (List K))
  sampleTimeSeconds : Option K
  assumptions : List String
  modelSha256 : String
  discrete_sampled : domain = .DISCRETE → sampleTimeSeconds.isSome
  transfer_denominator : representation = .TRANSFER_FUNCTION → denominatorCoefficients ≠ []
  state_space_matrix : representation = .STATE_SPACE → (stateSpaceMatrices.lookup "A").isSome

/-- What the analysis asks of `numpy` and of complex numbers. -/
structure Numerics (K P : Type) where
  roots : List K → List P
  eigvals : List (List K) → List P
  isFinite : P → Bool
  real : P → K
  modulus : P → K
  distance : P → P → K

/-- The counterexample of a conclusion: its reason, and the poles under their key. -/
structure Counterexample (P : Type) where
  reason : String
  poles : Option (String × List P)

/-- `StabilityCheckResultV1`, as far as the analysis decides it. -/
structure StabilityCheckResultV1 (K P : Type) where
  conclusion : StabilityConclusion
  method : String
  poles : List P
  criterionValues : List (String × WithBot K)
  counterexample : Option (Counterexample P)
  verdict : VerificationVerdict
  confidence : ℚ

/-! ### The analysis -/

section analysis
variable {K P : Type} [Field K] [LinearOrder K] (policy : StabilityPolicy K) (numerics : Numerics K P)
  (sha256 : StabilityModelPayload K → String)

/-- `_validate_model_integrity`; the numbers are finite. -/
def validateModelIntegrity (model : StabilityModelV1 K) : Except Exn Unit := do
  let payload : StabilityModelPayload K :=
    { domain := model.domain
      representation := model.representation
      numeratorCoefficients := model.numeratorCoefficients
      denominatorCoefficients := model.denominatorCoefficients
      stateSpaceMatrices := model.stateSpaceMatrices
      sampleTimeSeconds := model.sampleTimeSeconds
      assumptions := model.assumptions }
  ensure (sha256 payload = model.modelSha256)
    (.valueError "stability model SHA256 does not match its immutable payload")
  ensure (∀ value ∈ model.numeratorCoefficients ++ model.denominatorCoefficients, |value| ≤ 10 ^ 100)
    (.valueError "stability model contains a non-finite or oversized coefficient")
  ensure (∀ matrix ∈ model.stateSpaceMatrices.map Prod.snd, matrix.length ≤ policy.maxMatrixDimension ∧
      ∀ row ∈ matrix, row.length ≤ policy.maxMatrixDimension)
    (.valueError "state-space matrix exceeds the safety dimension limit")

/-- The coefficients that `_characteristic_coefficients` starts from. -/
def allCoefficients (model : StabilityModelV1 K) : List K :=
  if model.representation = .CHARACTERISTIC_POLYNOMIAL ∧ model.denominatorCoefficients = [] then
    model.numeratorCoefficients
  else model.denominatorCoefficients

def characteristicCoefficients (model : StabilityModelV1 K) : Except Exn (List K) := do
  let coefficients := allCoefficients model
  ensure (coefficients ≠ []) (.valueError "stability model requires characteristic polynomial coefficients")
  ensure (coefficients.length - 1 ≤ policy.maxPolynomialDegree)
    (.valueError "characteristic polynomial degree exceeds the safety limit")
  match coefficients.findIdx? (fun coefficient => decide (policy.tolerance < |coefficient|)) with
  | none => .error (.valueError "characteristic polynomial cannot be identically zero")
  | some firstNonzero => .ok (coefficients.drop firstNonzero)

def polynomialPoles (coefficients : List K) : List P :=
  if coefficients.length ≤ 1 then [] else numerics.roots coefficients

def stateSpacePoles (matrices : List (String × List (List K))) : Except Exn (List P) :=
  match matrices.lookup "A" with
  | none => .error (.valueError "state-space matrix A must be a non-empty square matrix")
  | some raw => do
    ensure (raw ≠ [] ∧ ∀ row ∈ raw, row.length = raw.length)
      (.valueError "state-space matrix A must be a non-empty square matrix")
    ensure (raw.length ≤ policy.maxMatrixDimension)
      (.valueError "state-space matrix A exceeds the safety dimension limit")
    return numerics.eigvals raw

/-- `coefficients[0::2]`. -/
def everyOther : List K → List K
  | [] => []
  | [a] => [a]
  | a :: _ :: l => a :: everyOther l

/-- The next row of the Routh table below two rows. -/
def routhRow (width : ℕ) (before previous : List K) (pivot : K) : List K :=
  (List.range (width - 1)).map (fun column =>
    (pivot * before.getD (column + 1) 0 - before.getD 0 0 * previous.getD (column + 1) 0) / pivot) ++ [0]

/-- The first column from the last two rows on, and whether a row was singular; a small pivot is replaced by
the tolerance, also in the column. -/
def routhRows (width : ℕ) : ℕ → List K → List K → List K × Bool
  | 0, before, previous => ([before.getD 0 0, previous.getD 0 0], false)
  | count + 1, before, previous =>
    let small := decide (|previous.getD 0 0| ≤ policy.tolerance)
    let pivot := if small then policy.tolerance else previous.getD 0 0
    let row := routhRow width before previous pivot
    let (column, singular) := routhRows width count (pivot :: previous.tail) row
    (before.getD 0 0 :: column,
      small || row.all (fun value => decide (|value| ≤ policy.tolerance)) || singular)

def routhFirstColumn (coefficients : List K) : List K × Bool :=
  match coefficients with
  | [] => ([], false)
  | [a] => ([a], false)
  | _ :: _ :: rest =>
    let width := (coefficients.length + 1) / 2
    let padded (row : List K) := row ++ List.replicate (width - row.length) 0
    routhRows policy width rest.length (padded (everyOther coefficients))
      (padded (everyOther coefficients.tail))

/-- `_state_space_criteria`; without a pole the maximum is minus infinity. -/
def stateSpaceCriteria (poles : List P) : List (String × WithBot K) :=
  [("max_real_part", (poles.map numerics.real).maximum), ("pole_count", some (poles.length : K))]

def rootCriteria (poles : List P) : List (String × WithBot K) :=
  [("max_modulus", max 0 (poles.map numerics.modulus).maximum), ("pole_count", some (poles.length : K))]

/-- The criteria of `_routh_first_column`. -/
def routhCriteria (coefficients : List K) : List (String × WithBot K) :=
  let (firstColumn, singular) := routhFirstColumn policy coefficients
  firstColumn.zipIdx.map (fun entry => ("routh_first_column_" ++ toString entry.2, some entry.1)) ++
    [("routh_singular", some (if singular then 1 else 0))]

def hasRepeatedBoundaryPole : List P → Bool
  | [] => false
  | left :: poles =>
    poles.any (fun right => decide (numerics.distance left right ≤ max (policy.tolerance * 10) (1 / 10 ^ 7))) ||
      hasRepeatedBoundaryPole poles

/-- What is concluded from the poles outside and on the boundary. -/
def concludeFrom (outside boundary : List P) (outsideReason repeatedReason boundaryReason : String) :
    StabilityConclusion × Option (Counterexample P) :=
  if outside ≠ [] then (.UNSTABLE, some ⟨outsideReason, some ("offending_poles", outside)⟩)
  else if boundary ≠ [] then
    if hasRepeatedBoundaryPole policy numerics boundary then
      (.UNSTABLE, some ⟨repeatedReason, some ("offending_poles", boundary)⟩)
    else (.MARGINAL, some ⟨boundaryReason, some ("boundary_poles", boundary)⟩)
  else (.STABLE, none)

def conclude (domain : StabilityDomain) (poles : List P) : StabilityConclusion × Option (Counterexample P) :=
  if poles.any (fun pole => !numerics.isFinite pole) then
    (.INDETERMINATE, some ⟨"NON_FINITE_POLE", none⟩)
  else
    match domain with
    | .CONTINUOUS =>
      concludeFrom policy numerics
        (poles.filter (fun pole => decide (policy.tolerance < numerics.real pole)))
        (poles.filter (fun pole => decide (|numerics.real pole| ≤ policy.tolerance)))
        "RIGHT_HALF_PLANE_POLE" "REPEATED_IMAGINARY_AXIS_POLE" "IMAGINARY_AXIS_POLE"
    | .DISCRETE =>
      concludeFrom policy numerics
        (poles.filter (fun pole => decide (1 + policy.tolerance < numerics.modulus pole)))
        (poles.filter (fun pole => decide (|numerics.modulus pole - 1| ≤ policy.tolerance)))
        "OUTSIDE_UNIT_CIRCLE_POLE" "REPEATED_UNIT_CIRCLE_POLE" "UNIT_CIRCLE_POLE"

/-- `_verdict`. -/
def verdictOf (conclusion expected : StabilityConclusion) : VerificationVerdict × ℚ :=
  if conclusion = .INDETERMINATE then (.INSUFFICIENT_EVIDENCE, 30 / 100)
  else if conclusion = expected then (.SUPPORTED, 995 / 1000)
  else if conclusion = .MARGINAL ∨ expected = .MARGINAL then (.PARTIALLY_SUPPORTED, 88 / 100)
  else (.CONTRADICTED, 995 / 1000)

/-- The poles of a model with the method and the criteria. -/
def polesOf (model : StabilityModelV1 K) : Except Exn (List P × String × List (String × WithBot K)) :=
  if model.representation = .STATE_SPACE then do
    let poles ← stateSpacePoles policy numerics model.stateSpaceMatrices
    return (poles, "EIGENVALUES", stateSpaceCriteria numerics poles)
  else do
    let coefficients ← characteristicCoefficients policy model
    let poles := polynomialPoles numerics coefficients
    match model.domain with
    | .CONTINUOUS => return (poles, "ROUTH_HURWITZ", routhCriteria policy coefficients)
    | .DISCRETE => return (poles, "JURY", rootCriteria numerics poles)

def analyze (model : StabilityModelV1 K) (tenantId : String) (expected : StabilityConclusion) :
    Except Exn (StabilityCheckResultV1 K P) := do
  ensure (model.tenantId = tenantId) (.valueError "stability analysis cannot cross tenant boundaries")
  validateModelIntegrity policy sha256 model
  let (poles, method, criterionValues) ← polesOf policy numerics model
  let (conclusion, counterexample) := conclude policy numerics model.domain poles
  let (verdict, confidence) := verdictOf conclusion expected
  return { conclusion, method, poles, criterionValues, counterexample, verdict, confidence }

end analysis

/-! ### Exact roots -/

open Polynomial

/-- One more coefficient behind those of a polynomial. -/
noncomputable def horner (p : ℂ[X]) (a : ℝ) : ℂ[X] := p * X + C (a : ℂ)

/-- The polynomial of a list of coefficients, the leading one first. -/
noncomputable def polynomialOf (coefficients : List ℝ) : ℂ[X] := coefficients.foldl horner 0

/-- The roots are those of the polynomial, with their multiplicities, and complex numbers are exact. -/
structure Numerics.Exact (numerics : Numerics ℝ ℂ) : Prop where
  roots : ∀ coefficients, 1 < coefficients.length → coefficients.head? ≠ some 0 →
    (numerics.roots coefficients : Multiset ℂ) = (polynomialOf coefficients).roots
  isFinite : ∀ pole, numerics.isFinite pole = true
  real : ∀ pole, numerics.real pole = pole.re
  modulus : ∀ pole, numerics.modulus pole = ‖pole‖
  distance : ∀ left right, numerics.distance left right = ‖left - right‖

theorem foldl_horner_scale (c : ℝ) (coefficients : List ℝ) (p : ℂ[X]) :
    (coefficients.map (fun a => c * a)).foldl horner (C (c : ℂ) * p) =
      C (c : ℂ) * coefficients.foldl horner p := by
  induction coefficients generalizing p with
  | nil => rfl
  | cons a l ih =>
    have hstep : horner (C (c : ℂ) * p) (c * a) = C (c : ℂ) * horner p a := by
      rw [horner, horner, Complex.ofReal_mul, C_mul, mul_add, mul_assoc]
    rw [List.map_cons, List.foldl_cons, List.foldl_cons, hstep, ih]

theorem polynomialOf_scale (c : ℝ) (coefficients : List ℝ) :
    polynomialOf (coefficients.map (fun a => c * a)) = C (c : ℂ) * polynomialOf coefficients := by
  unfold polynomialOf
  rw [← foldl_horner_scale, mul_zero]

section exactness
variable {numerics : Numerics ℝ ℂ} {policy : StabilityPolicy ℝ} {sha256 : StabilityModelPayload ℝ → String}
  {model model' : StabilityModelV1 ℝ} {c : ℝ} {kept kept' : List ℝ} {poles poles' : List ℂ}

/-- **The roots of a scaled polynomial** are the same, up to their order. -/
theorem roots_scale (hexact : numerics.Exact) (hc : c ≠ 0) {coefficients : List ℝ}
    (hhead : coefficients.head? ≠ some 0) :
    (polynomialPoles numerics (coefficients.map (fun a => c * a))).Perm
    (polynomialPoles numerics coefficients) := by
  unfold polynomialPoles
  rw [List.length_map]
  split
  · exact .refl _
  · rename_i hlength
    refine Multiset.coe_eq_coe.mp ?_
    have hhead' : (coefficients.map (fun a => c * a)).head? ≠ some 0 := by
      intro h
      obtain ⟨a, ha, hzero⟩ := Option.map_eq_some_iff.mp (List.head?_map ▸ h)
      exact hhead (by rw [ha, (mul_eq_zero.mp hzero).resolve_left hc])
    rw [hexact.roots _ (by rw [List.length_map]; omega) hhead', hexact.roots _ (by omega) hhead,
      polynomialOf_scale, roots_C_mul _ (by exact_mod_cast hc)]

/-! ### Conclusions -/

theorem hasRepeatedBoundaryPole_eq_false : hasRepeatedBoundaryPole policy numerics poles = false ↔
    poles.Pairwise (fun left right =>
      ¬ numerics.distance left right ≤ max (policy.tolerance * 10) (1 / 10 ^ 7)) := by
  induction poles with
  | nil => simp [hasRepeatedBoundaryPole]
  | cons left poles ih =>
    rw [hasRepeatedBoundaryPole, Bool.or_eq_false_iff, ih, List.pairwise_cons, List.any_eq_false]
    simp only [decide_eq_true_eq]

theorem hasRepeatedBoundaryPole_perm (hexact : numerics.Exact) (h : poles.Perm poles') :
    hasRepeatedBoundaryPole policy numerics poles = hasRepeatedBoundaryPole policy numerics poles' := by
  rw [Bool.eq_iff_iff, ← not_iff_not, Bool.not_eq_true, Bool.not_eq_true, hasRepeatedBoundaryPole_eq_false,
    hasRepeatedBoundaryPole_eq_false]
  refine h.pairwise_iff (fun {left right} hne => ?_)
  rw [hexact.distance, norm_sub_rev, ← hexact.distance]
  exact hne

theorem perm_ne_nil (h : poles.Perm poles') : poles ≠ [] ↔ poles' ≠ [] := by
  refine not_congr ⟨?_, ?_⟩
  · rintro rfl
    exact List.nil_perm.mp h
  · rintro rfl
    exact List.perm_nil.mp h

theorem concludeFrom_perm (hexact : numerics.Exact) {outside outside' boundary boundary' : List ℂ}
    (houtside : outside.Perm outside') (hboundary : boundary.Perm boundary') (r₁ r₂ r₃ : String) :
    (concludeFrom policy numerics outside boundary r₁ r₂ r₃).1 =
      (concludeFrom policy numerics outside' boundary' r₁ r₂ r₃).1 := by
  have hout : outside ≠ [] ↔ outside' ≠ [] := perm_ne_nil houtside
  have hbound : boundary ≠ [] ↔ boundary' ≠ [] := perm_ne_nil hboundary
  unfold concludeFrom
  rw [hasRepeatedBoundaryPole_perm hexact hboundary]
  simp only [hout, hbound]
  split_ifs <;> rfl

/-- **The conclusion reads the poles as a multiset.** -/
theorem conclude_perm (hexact : numerics.Exact) (domain : StabilityDomain) (h : poles.Perm poles') :
    (conclude policy numerics domain poles).1 = (conclude policy numerics domain poles').1 := by
  unfold conclude
  rw [h.any_eq]
  split
  · rfl
  · cases domain with
    | CONTINUOUS => exact concludeFrom_perm hexact (h.filter _) (h.filter _) _ _ _
    | DISCRETE => exact concludeFrom_perm hexact (h.filter _) (h.filter _) _ _ _

/-! ### Coefficients that are kept -/

theorem characteristicCoefficients_ok (h : characteristicCoefficients policy model = .ok kept) :
    ∃ dropped a rest, kept = a :: rest ∧ allCoefficients model = dropped ++ kept ∧
      (∀ b ∈ dropped, |b| ≤ policy.tolerance) ∧ policy.tolerance < |a| := by
  unfold characteristicCoefficients at h
  obtain ⟨_, h⟩ := unit_bind_eq_ok.mp h
  obtain ⟨_, h⟩ := unit_bind_eq_ok.mp h
  split at h
  · exact absurd h (by simp)
  · rename_i firstNonzero hfirst
    obtain ⟨hlt, hlarge, hsmall⟩ := List.findIdx?_eq_some_iff_getElem.mp hfirst
    refine ⟨(allCoefficients model).take firstNonzero, (allCoefficients model)[firstNonzero],
      (allCoefficients model).drop (firstNonzero + 1), ?_, ?_, ?_, ?_⟩
    · rw [← Except.ok.inj h]
      exact List.drop_eq_getElem_cons hlt
    · rw [← Except.ok.inj h, List.take_append_drop]
    · intro b hb
      obtain ⟨i, hi, rfl⟩ := List.mem_take_iff_getElem.mp hb
      have hnot := hsmall i (by omega)
      rw [decide_eq_true_eq] at hnot
      exact not_lt.mp hnot
    · exact of_decide_eq_true hlarge

/-- The first coefficient that is not zero. -/
noncomputable def leadingCoefficient (model : StabilityModelV1 ℝ) : Option ℝ :=
  (allCoefficients model).find? (fun a => decide (a ≠ 0))

/-- No coefficient that is discarded is nonzero. -/
def NoneDiscarded (policy : StabilityPolicy ℝ) (model : StabilityModelV1 ℝ) : Prop :=
  ∃ zeros kept, characteristicCoefficients policy model = .ok kept ∧ allCoefficients model = zeros ++ kept ∧
    ∀ a ∈ zeros, a = 0

theorem ne_zero_of_large {a : ℝ} (h : policy.tolerance < |a|) : a ≠ 0 :=
  abs_pos.mp (lt_trans policy.tolerance_mem.1 h)

theorem noneDiscarded_iff (h : characteristicCoefficients policy model = .ok kept) :
    NoneDiscarded policy model ↔ ∃ a, leadingCoefficient model = some a ∧ policy.tolerance < |a| := by
  obtain ⟨dropped, a, rest, hkept, hall, hdropped, ha⟩ := characteristicCoefficients_ok h
  constructor
  · rintro ⟨zeros, kept', hkept', hall', hzeros⟩
    obtain rfl : kept = kept' := Except.ok.inj (h.symm.trans hkept')
    refine ⟨a, List.find?_eq_some_iff_append.mpr ⟨?_, zeros, rest, hkept ▸ hall', ?_⟩, ha⟩
    · exact decide_eq_true (ne_zero_of_large ha)
    · intro z hz
      simp [hzeros z hz]
  · rintro ⟨b, hb, hlarge⟩
    refine ⟨dropped, kept, h, hall, fun z hz => ?_⟩
    by_contra hne
    have hfound : (dropped.find? (fun a => decide (a ≠ 0))).isSome :=
      List.find?_isSome.mpr ⟨z, hz, decide_eq_true hne⟩
    obtain ⟨w, hw⟩ := Option.isSome_iff_exists.mp hfound
    rw [leadingCoefficient, hall, List.find?_append, hw, Option.some_or, Option.some.injEq] at hb
    have hsmall := hdropped w (List.mem_of_find?_eq_some hw)
    rw [hb] at hsmall
    exact absurd hlarge (not_lt.mpr hsmall)

/-! ### Two scales -/

/-- A polynomial model and the same with `c` times the coefficients. -/
structure Scaled (c : ℝ) (model model' : StabilityModelV1 ℝ) : Prop where
  polynomial : model.representation ≠ .STATE_SPACE
  representation : model'.representation = model.representation
  domain : model'.domain = model.domain
  numerator : model'.numeratorCoefficients = model.numeratorCoefficients.map (fun a => c * a)
  denominator : model'.denominatorCoefficients = model.denominatorCoefficients.map (fun a => c * a)

theorem Scaled.allCoefficients (h : Scaled c model model') :
    Stability.allCoefficients model' = (Stability.allCoefficients model).map (fun a => c * a) := by
  unfold Stability.allCoefficients
  rw [h.representation, h.numerator, h.denominator]
  simp only [List.map_eq_nil_iff]
  split <;> rfl

theorem Scaled.leadingCoefficient (hc : c ≠ 0) (h : Scaled c model model') :
    Stability.leadingCoefficient model' = (Stability.leadingCoefficient model).map (fun a => c * a) := by
  unfold Stability.leadingCoefficient
  rw [h.allCoefficients, List.find?_map]
  congr 2
  funext a
  simp [hc]

theorem kept_eq_dropWhile (hkept : characteristicCoefficients policy model = .ok kept)
    (h : NoneDiscarded policy model) :
    kept = (allCoefficients model).dropWhile (fun a => decide (a = 0)) := by
  obtain ⟨zeros, kept', hkept', hall, hzeros⟩ := h
  obtain rfl : kept = kept' := Except.ok.inj (hkept.symm.trans hkept')
  obtain ⟨_, a, rest, rfl, _, _, ha⟩ := characteristicCoefficients_ok hkept
  rw [hall, List.dropWhile_append_of_pos (fun z hz => decide_eq_true (hzeros z hz)),
    List.dropWhile_cons_of_neg (by simp [ne_zero_of_large ha])]

theorem Scaled.keptCoefficients (hc : c ≠ 0) (h : Scaled c model model')
    (hkept : characteristicCoefficients policy model = .ok kept) (hnone : NoneDiscarded policy model)
    (hkept' : characteristicCoefficients policy model' = .ok kept') (hnone' : NoneDiscarded policy model') :
    kept' = kept.map (fun a => c * a) := by
  have hzero : ((fun a => decide (a = 0)) ∘ fun a => c * a) = fun a : ℝ => decide (a = 0) := by
    funext a
    simp [hc]
  rw [kept_eq_dropWhile hkept hnone, kept_eq_dropWhile hkept' hnone', h.allCoefficients, List.dropWhile_map,
    hzero]

/-- The conclusion of a polynomial model is that of the poles of the kept coefficients. -/
theorem analyze_polynomial {tenantId : String} {expected : StabilityConclusion}
    {result : StabilityCheckResultV1 ℝ ℂ} (hpolynomial : model.representation ≠ .STATE_SPACE)
    (h : analyze policy numerics sha256 model tenantId expected = .ok result) :
    ∃ kept, characteristicCoefficients policy model = .ok kept ∧
      result.conclusion = (conclude policy numerics model.domain (polynomialPoles numerics kept)).1 := by
  unfold analyze at h
  obtain ⟨_, h⟩ := unit_bind_eq_ok.mp h
  obtain ⟨_, h⟩ := unit_bind_eq_ok.mp h
  obtain ⟨⟨poles, method, criterionValues⟩, hpoles, h⟩ := bind_eq_ok.mp h
  rw [polesOf, if_neg hpolynomial] at hpoles
  obtain ⟨kept, hkept, hpoles⟩ := bind_eq_ok.mp hpoles
  refine ⟨kept, hkept, ?_⟩
  have hpoles_eq : poles = polynomialPoles numerics kept := by
    cases hdomain : model.domain with
    | CONTINUOUS =>
      rw [hdomain] at hpoles
      exact (congrArg Prod.fst (Except.ok.inj hpoles)).symm
    | DISCRETE =>
      rw [hdomain] at hpoles
      exact (congrArg Prod.fst (Except.ok.inj hpoles)).symm
  rw [← hpoles_eq, ← Except.ok.inj h]
  rfl

/-- **The analysis does not depend on the scale** and discards no nonzero coefficient exactly when the leading
coefficient exceeds the tolerance on both scales. -/
theorem scale_invariant_iff (hexact : numerics.Exact) (hc : c ≠ 0) (hscaled : Scaled c model model')
    {tenantId tenantId' : String} {expected expected' : StabilityConclusion}
    {result result' : StabilityCheckResultV1 ℝ ℂ}
    (h : analyze policy numerics sha256 model tenantId expected = .ok result)
    (h' : analyze policy numerics sha256 model' tenantId' expected' = .ok result') :
    (result'.conclusion = result.conclusion ∧ NoneDiscarded policy model ∧ NoneDiscarded policy model') ↔
      ∃ a, leadingCoefficient model = some a ∧ policy.tolerance < |a| ∧ policy.tolerance < |c * a| := by
  obtain ⟨kept, hkept, hconclusion⟩ := analyze_polynomial hscaled.polynomial h
  obtain ⟨kept', hkept', hconclusion'⟩ :=
    analyze_polynomial (hscaled.representation ▸ hscaled.polynomial) h'
  constructor
  · rintro ⟨_, hnone, hnone'⟩
    obtain ⟨a, ha, hlarge⟩ := (noneDiscarded_iff hkept).mp hnone
    obtain ⟨b, hb, hlarge'⟩ := (noneDiscarded_iff hkept').mp hnone'
    rw [hscaled.leadingCoefficient hc, ha, Option.map_some, Option.some.injEq] at hb
    exact ⟨a, ha, hlarge, hb ▸ hlarge'⟩
  · rintro ⟨a, ha, hlarge, hlarge'⟩
    have hnone := (noneDiscarded_iff hkept).mpr ⟨a, ha, hlarge⟩
    have hnone' := (noneDiscarded_iff hkept').mpr
      ⟨c * a, by rw [hscaled.leadingCoefficient hc, ha, Option.map_some], hlarge'⟩
    refine ⟨?_, hnone, hnone'⟩
    obtain ⟨_, b, rest, hcons, _, _, hb⟩ := characteristicCoefficients_ok hkept
    have hhead : kept.head? ≠ some 0 := by
      rw [hcons, List.head?_cons, ne_eq, Option.some.injEq]
      exact ne_zero_of_large hb
    rw [hconclusion, hconclusion', hscaled.keptCoefficients hc hkept hnone hkept' hnone', hscaled.domain]
    exact conclude_perm hexact _ (roots_scale hexact hc hhead)

end exactness

/-! ### A pole that is discarded -/

/-- Root finding without an error. -/
noncomputable def exactNumerics : Numerics ℝ ℂ where
  roots coefficients := (polynomialOf coefficients).roots.toList
  eigvals _ := []
  isFinite _ := true
  real pole := pole.re
  modulus pole := ‖pole‖
  distance left right := ‖left - right‖

theorem exactNumerics_exact : exactNumerics.Exact where
  roots coefficients _ _ := Multiset.coe_toList _
  isFinite _ := rfl
  real _ := rfl
  modulus _ := rfl
  distance _ _ := rfl

noncomputable def defaultPolicy : StabilityPolicy ℝ where
  tolerance := 1 / 10 ^ 8
  tolerance_mem := by norm_num

/-- The payload of a characteristic polynomial in continuous time. -/
def polynomialPayload (coefficients : List ℝ) : StabilityModelPayload ℝ where
  domain := .CONTINUOUS
  representation := .CHARACTERISTIC_POLYNOMIAL
  numeratorCoefficients := []
  denominatorCoefficients := coefficients
  stateSpaceMatrices := []
  sampleTimeSeconds := none
  assumptions := []

def sampleDigest (payload : StabilityModelPayload ℝ) : String :=
    toString payload.denominatorCoefficients.length

/-- A characteristic polynomial in continuous time. -/
def characteristicPolynomial (coefficients : List ℝ) : StabilityModelV1 ℝ where
  tenantId := "tenant"
  domain := .CONTINUOUS
  representation := .CHARACTERISTIC_POLYNOMIAL
  numeratorCoefficients := []
  denominatorCoefficients := coefficients
  stateSpaceMatrices := []
  sampleTimeSeconds := none
  assumptions := []
  modelSha256 := sampleDigest (polynomialPayload coefficients)
  discrete_sampled h := absurd h (by decide)
  transfer_denominator h := absurd h (by decide)
  state_space_matrix h := absurd h (by decide)

theorem characteristicPolynomial_scaled (c : ℝ) (coefficients : List ℝ) :
    Scaled c (characteristicPolynomial coefficients)
      (characteristicPolynomial (coefficients.map (fun a => c * a))) where
  polynomial h := absurd h (by simp [characteristicPolynomial])
  representation := rfl
  domain := rfl
  numerator := rfl
  denominator := rfl

section sample
variable {coefficients kept : List ℝ}

theorem allCoefficients_characteristicPolynomial (coefficients : List ℝ) :
    allCoefficients (characteristicPolynomial coefficients) = coefficients := by
  unfold allCoefficients
  split
  · rename_i h
    exact h.2.symm
  · rfl

theorem characteristicCoefficients_of_findIdx {firstNonzero : ℕ} (hne : coefficients ≠ [])
    (hlength : coefficients.length ≤ 257)
    (hfirst : coefficients.findIdx? (fun a => decide (defaultPolicy.tolerance < |a|)) = some firstNonzero) :
    characteristicCoefficients defaultPolicy (characteristicPolynomial coefficients) =
      .ok (coefficients.drop firstNonzero) := by
  unfold characteristicCoefficients
  rw [allCoefficients_characteristicPolynomial]
  refine unit_bind_eq_ok.mpr ⟨ensure_eq_ok.mpr hne, unit_bind_eq_ok.mpr ⟨ensure_eq_ok.mpr ?_, ?_⟩⟩
  · show coefficients.length - 1 ≤ 256
    omega
  · rw [hfirst]

/-- The analysis of a characteristic polynomial with moderate coefficients. -/
theorem analyze_characteristicPolynomial (hsize : ∀ a ∈ coefficients, |a| ≤ 10 ^ 100)
    (hkept : characteristicCoefficients defaultPolicy (characteristicPolynomial coefficients) = .ok kept) :
    ∃ result, analyze defaultPolicy exactNumerics sampleDigest
      (characteristicPolynomial coefficients) "tenant"
        .STABLE = .ok result ∧
      result.conclusion =
        (conclude defaultPolicy exactNumerics .CONTINUOUS (polynomialPoles exactNumerics kept)).1 := by
  have hvalid : validateModelIntegrity defaultPolicy sampleDigest
    (characteristicPolynomial coefficients) = .ok () := by
    refine unit_bind_eq_ok.mpr ⟨ensure_eq_ok.mpr rfl, unit_bind_eq_ok.mpr ⟨ensure_eq_ok.mpr ?_,
      ensure_eq_ok.mpr ?_⟩⟩
    · exact hsize
    · intro matrix hmatrix
      exact absurd hmatrix (by simp [characteristicPolynomial])
  have hpoles : polesOf defaultPolicy exactNumerics (characteristicPolynomial coefficients) =
      .ok (polynomialPoles exactNumerics kept, "ROUTH_HURWITZ", routhCriteria defaultPolicy kept) := by
    rw [polesOf, if_neg (characteristicPolynomial_scaled 1 coefficients).polynomial, hkept]
    rfl
  have htenant (error : Exn) : ensure
    ((characteristicPolynomial coefficients).tenantId = "tenant") error = .ok () :=
    ensure_eq_ok.mpr rfl
  have hresult : ∃ result, analyze defaultPolicy exactNumerics sampleDigest
    (characteristicPolynomial coefficients)
      "tenant" .STABLE = .ok result := by
    unfold analyze
    rw [htenant, hvalid, hpoles]
    exact ⟨_, rfl⟩
  obtain ⟨result, hresult⟩ := hresult
  obtain ⟨kept', hkept', hconclusion⟩ :=
    analyze_polynomial (characteristicPolynomial_scaled 1 coefficients).polynomial hresult
  obtain rfl : kept = kept' := Except.ok.inj (hkept.symm.trans hkept')
  exact ⟨result, hresult, hconclusion⟩

theorem conclude_stable {poles : List ℂ} (h : ∀ pole ∈ poles, pole.re < -defaultPolicy.tolerance) :
    (conclude defaultPolicy exactNumerics .CONTINUOUS poles).1 = .STABLE := by
  have houtside : poles.filter (fun pole => decide (defaultPolicy.tolerance < exactNumerics.real pole)) =
    [] := by
    refine List.filter_eq_nil_iff.mpr (fun pole hpole => ?_)
    have hre : pole.re < -defaultPolicy.tolerance := h pole hpole
    have htolerance := defaultPolicy.tolerance_mem.1
    rw [decide_eq_true_eq, not_lt]
    show pole.re ≤ defaultPolicy.tolerance
    linarith
  have hboundary : poles.filter
    (fun pole => decide (|exactNumerics.real pole| ≤ defaultPolicy.tolerance)) = [] := by
    refine List.filter_eq_nil_iff.mpr (fun pole hpole => ?_)
    have hre : pole.re < -defaultPolicy.tolerance := h pole hpole
    rw [decide_eq_true_eq, not_le]
    show defaultPolicy.tolerance < |pole.re|
    exact lt_abs.mpr (.inr (by linarith))
  simp [conclude, exactNumerics_exact.isFinite, houtside, hboundary, concludeFrom]

theorem conclude_unstable {poles : List ℂ} {pole : ℂ} (hpole : pole ∈ poles)
    (h : defaultPolicy.tolerance < pole.re) :
    (conclude defaultPolicy exactNumerics .CONTINUOUS poles).1 = .UNSTABLE := by
  have houtside : poles.filter (fun pole => decide (defaultPolicy.tolerance < exactNumerics.real pole)) ≠
    [] :=
    List.ne_nil_of_mem (List.mem_filter.mpr ⟨hpole, decide_eq_true h⟩)
  simp [conclude, exactNumerics_exact.isFinite, concludeFrom, houtside]

end sample

/-- The coefficients of `(s + 1) * (1 - s / 2 ^ 30)`. -/
noncomputable def fastPole : List ℝ := [-1 / 2 ^ 30, 1 - 1 / 2 ^ 30, 1]

theorem fastPole_kept : characteristicCoefficients defaultPolicy (characteristicPolynomial fastPole) =
    .ok [1 - 1 / 2 ^ 30, 1] := by
  have hfirst : fastPole.findIdx? (fun a => decide (defaultPolicy.tolerance < |a|)) = some 1 := by
    simp only [fastPole, defaultPolicy, List.findIdx?_cons]
    norm_num
  exact characteristicCoefficients_of_findIdx (List.cons_ne_nil _ _) (by simp [fastPole]) hfirst

theorem fastPole_scaled_kept :
    characteristicCoefficients defaultPolicy (characteristicPolynomial (fastPole.map (fun a => 2 ^ 10 * a))) =
      .ok (fastPole.map (fun a => 2 ^ 10 * a)) := by
  have hfirst : (fastPole.map (fun a => 2 ^ 10 * a)).findIdx?
      (fun a => decide (defaultPolicy.tolerance < |a|)) = some 0 := by
    simp only [fastPole, defaultPolicy, List.map_cons, List.findIdx?_cons]
    norm_num
  exact characteristicCoefficients_of_findIdx (List.cons_ne_nil _ _) (by simp [fastPole]) hfirst

theorem fastPole_stable {pole : ℂ} (h : pole ∈ polynomialPoles exactNumerics [1 - 1 / 2 ^ 30, 1]) :
    pole.re < -defaultPolicy.tolerance := by
  have hroot : (polynomialOf [1 - 1 / 2 ^ 30, 1]).eval pole = 0 :=
    (mem_roots'.mp (Multiset.mem_toList.mp h)).2
  have hvalue : ((1 - 1 / 2 ^ 30 : ℝ) : ℂ) * pole + ((1 : ℝ) : ℂ) = 0 := by simpa
    [polynomialOf, horner] using hroot
  have hre := congrArg Complex.re hvalue
  rw [Complex.add_re, Complex.re_ofReal_mul, Complex.ofReal_re, Complex.zero_re] at hre
  show pole.re < -(1 / 10 ^ 8)
  norm_num at hre ⊢
  linarith

theorem fastPole_unstable :
    (2 ^ 30 : ℂ) ∈ polynomialPoles exactNumerics (fastPole.map (fun a => 2 ^ 10 * a)) := by
  have hvalue (x : ℂ) : (polynomialOf (fastPole.map (fun a => 2 ^ 10 * a))).eval x =
      -x ^ 2 / 2 ^ 20 + (2 ^ 10 - 1 / 2 ^ 20) * x + 2 ^ 10 := by
    simp [polynomialOf, horner, fastPole]
    ring
  refine Multiset.mem_toList.mpr (mem_roots'.mpr ⟨?_, ?_⟩)
  · intro hzero
    have h := hvalue 0
    rw [hzero, eval_zero] at h
    norm_num at h
  · rw [IsRoot.def, hvalue]
    norm_num

/-- The analysis of `s ^ 2 + 3 * s + 2` is the same on twice the scale. -/
theorem scale_invariant_sample :
    ∃ result result', (result'.conclusion = result.conclusion ∧
        NoneDiscarded defaultPolicy (characteristicPolynomial [1, 3, 2]) ∧
        NoneDiscarded defaultPolicy (characteristicPolynomial ([1, 3, 2].map (fun a => 2 * a)))) ∧
      analyze defaultPolicy exactNumerics sampleDigest (characteristicPolynomial [1, 3, 2]) "tenant" .STABLE =
        .ok result ∧
      analyze defaultPolicy exactNumerics sampleDigest
        (characteristicPolynomial ([1, 3, 2].map (fun a => 2 * a))) "tenant" .STABLE = .ok result' := by
  have hfirst : [(1 : ℝ), 3, 2].findIdx? (fun a => decide (defaultPolicy.tolerance < |a|)) = some 0 := by
    simp only [defaultPolicy, List.findIdx?_cons]
    norm_num
  have hfirst' : ([(1 : ℝ), 3, 2].map (fun a => 2 * a)).findIdx?
      (fun a => decide (defaultPolicy.tolerance < |a|)) = some 0 := by
    simp only [defaultPolicy, List.map_cons, List.findIdx?_cons]
    norm_num
  obtain ⟨result, h, _⟩ := analyze_characteristicPolynomial (by norm_num)
    (characteristicCoefficients_of_findIdx (List.cons_ne_nil _ _) (by simp) hfirst)
  obtain ⟨result', h', _⟩ := analyze_characteristicPolynomial (by norm_num)
    (characteristicCoefficients_of_findIdx (List.cons_ne_nil _ _) (by simp) hfirst')
  refine ⟨result, result', (scale_invariant_iff exactNumerics_exact two_ne_zero
    (characteristicPolynomial_scaled 2 _) h h').mpr ⟨1, ?_, ?_, ?_⟩, h, h'⟩
  · simp [leadingCoefficient, allCoefficients_characteristicPolynomial]
  · norm_num [defaultPolicy]
  · norm_num [defaultPolicy]

/-- `(s + 1) * (1 - s / 2 ^ 30)` is stable, and `2 ^ 10` times it is not. -/
theorem scaling_changes_conclusion :
    ∃ result result',
      analyze defaultPolicy exactNumerics sampleDigest (characteristicPolynomial fastPole) "tenant" .STABLE =
        .ok result ∧
      analyze defaultPolicy exactNumerics sampleDigest
        (characteristicPolynomial (fastPole.map (fun a => 2 ^ 10 * a))) "tenant" .STABLE = .ok result' ∧
      result.conclusion = .STABLE ∧ result'.conclusion = .UNSTABLE := by
  obtain ⟨result, h, hconclusion⟩ := analyze_characteristicPolynomial (by norm_num [fastPole]) fastPole_kept
  obtain ⟨result', h', hconclusion'⟩ :=
    analyze_characteristicPolynomial (by norm_num [fastPole]) fastPole_scaled_kept
  refine ⟨result, result', h, h', ?_, ?_⟩
  · rw [hconclusion]
    exact conclude_stable (fun pole hpole => fastPole_stable hpole)
  · rw [hconclusion']
    refine conclude_unstable fastPole_unstable ?_
    show 1 / 10 ^ 8 < (2 ^ 30 : ℂ).re
    norm_num

end CyberControl.Stability
