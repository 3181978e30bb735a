import CyberControl.FormulaSource
import Mathlib.Data.Complex.Basic
import Mathlib.Tactic.Linarith

/-! # Symbolic equivalence of formulas

`FormulaEquivalenceEngine._symbolic_equivalence` (`academic/formula.py`): two formulas with the same relation
are equivalent when the difference of their residuals cancels to zero, or when their ratio cancels to a number. -/

namespace CyberControl.Formula

local instance atLeastTwo_ten : Nat.AtLeastTwo 10 := ⟨by decide⟩

/-! ### The algebra system -/

/-- The operations of `sympy` on its expressions; `numeric` is `complex(sp.N(expression, 16))`, or none when a
part is not finite, with the parts as the rational numbers that they are. -/
structure Sympy (E : Type) where
  add : E → E → E
  neg : E → E
  sub : E → E → E
  div : E → E → E
  cancel : E → Except Raised E
  isZero : E → Bool
  freeSymbols : E → List String
  appliedUndefs : E → List String
  countOps : E → ℕ
  hasNonFinite : E → Bool
  numeric : E → Except Raised (Option (ℚ × ℚ))

/-- The parts of a number are known to twelve digits. -/
def Close (z : ℚ × ℚ) (c : ℂ) : Prop :=
  |c.re - z.1| ≤ (|(z.1 : ℝ)| + |(z.2 : ℝ)|) / 10 ^ 12 ∧ |c.im - z.2| ≤ (|(z.1 : ℝ)| + |(z.2 : ℝ)|) / 10 ^ 12

variable {E A : Type}

/-- What is assumed of the algebra system; `eval` is the value of an expression under an assignment of its
symbols, where it is defined.  A quotient that cancels to a number is that number wherever both sides are
defined, so that the numerator vanishes with the denominator. -/
structure Sympy.Lawful (sp : Sympy E) (eval : E → A → Option ℂ) : Prop where
  eval_sub : ∀ a b σ u v, eval a σ = some u → eval b σ = some v → eval (sp.sub a b) σ = some (u - v)
  eval_div : ∀ a b σ u v, eval a σ = some u → eval b σ = some v → v ≠ 0 → eval (sp.div a b) σ = some (u / v)
  eval_zero : ∀ e σ u, sp.isZero e = true → eval e σ = some u → u = 0
  eval_cancel : ∀ e e' σ u, sp.cancel e = .ok e' → eval e σ = some u → eval e' σ = some u
  cancel_vanishes : ∀ l r q z σ u, sp.cancel (sp.div l r) = .ok q → sp.numeric q = .ok (some z) →
    eval l σ = some u → eval r σ = some 0 → u = 0
  eval_number : ∀ q z, sp.freeSymbols q = [] → sp.appliedUndefs q = [] → sp.numeric q = .ok (some z) →
    ∃ c, (∀ σ, eval q σ = some c) ∧ Close z c

/-! ### Formulas -/

/-- The operators of `_RELATION`. -/
inductive Relation where
  | le
  | ge
  | ne
  | eq
  | lt
  | gt
deriving DecidableEq, Repr

/-- `residual` of `SafeFormulaParser.parse`. -/
def residualOf (sp : Sympy E) (left : E) : Option E → E
  | none => left
  | some right => sp.add left (sp.neg right)

/-- `ParsedFormula`, as far as the comparison reads it. -/
structure ParsedFormula (sp : Sympy E) where
  relation : Option Relation
  lhs : E
  rhs : Option E
  residual : E
  relation_isSome : relation.isSome = rhs.isSome
  residual_eq : residual = residualOf sp lhs rhs

/-! ### The comparison -/

section compare
variable (sp : Sympy E) (policy : FormulaPolicy)

def validateTree (expression : E) : Except Raised Unit :=
  if policy.maxOperations < sp.countOps expression then
    .error (.formulaSecurityError "formula operation count exceeds the safety limit")
  else if sp.hasNonFinite expression then
    .error (.formulaParseError "formula contains a non-finite symbolic value")
  else .ok ()

/-- The decision on the numeric value of the ratio. -/
def decideRatio (relation : Option Relation) : Option (ℚ × ℚ) → Option Bool
  | none => none
  | some (re, im) =>
    if policy.tolerance < |im| then some false
    else if relation = none ∨ relation = some .eq then some (decide (policy.tolerance < |re|))
    else some (decide (policy.tolerance < re))

/-- The body of `try`. -/
def comparison (left right : ParsedFormula sp) : Except Raised (Option Bool) := do
  let difference ← sp.cancel (sp.sub left.residual right.residual)
  validateTree sp policy difference
  if sp.isZero difference then return some true
  let ratio ← sp.cancel (sp.div left.residual right.residual)
  validateTree sp policy ratio
  if sp.isZero ratio ∨ sp.freeSymbols ratio ≠ [] ∨ sp.appliedUndefs ratio ≠ [] then return some false
  let numericRatio ← sp.numeric ratio
  return decideRatio policy left.relation numericRatio

def symbolicEquivalence (left right : ParsedFormula sp) : Except Raised (Option Bool) :=
  if left.relation ≠ right.relation then .ok none
  else
    match comparison sp policy left right with
    | .ok decision => .ok decision
    | .error raised => if raised.handled then .ok none else .error raised

/-- The difference does not cancel to zero, and the ratio cancels to a number that is accepted. -/
structure RatioFound (left right : ParsedFormula sp) (ratio : E) (z : ℚ × ℚ) : Prop where
  relation : left.relation = right.relation
  difference : ∃ difference, sp.cancel (sp.sub left.residual right.residual) = .ok difference ∧
    validateTree sp policy difference = .ok () ∧ sp.isZero difference = false
  cancel : sp.cancel (sp.div left.residual right.residual) = .ok ratio
  valid : validateTree sp policy ratio = .ok ()
  nonzero : sp.isZero ratio = false
  freeSymbols : sp.freeSymbols ratio = []
  appliedUndefs : sp.appliedUndefs ratio = []
  numeric : sp.numeric ratio = .ok (some z)
  accepted : decideRatio policy left.relation (some z) = some true

end compare

/-! ### Meaning -/

/-- The relation between a residual and zero; the order relations are those of real numbers. -/
def Relation.holds : Relation → ℂ → Prop
  | .le, u => u.re ≤ 0
  | .ge, u => 0 ≤ u.re
  | .ne, u => u ≠ 0
  | .eq, u => u = 0
  | .lt, u => u.re < 0
  | .gt, u => 0 < u.re

/-- An order relation has a truth value at a real residual, the others at every one. -/
def Relation.HasTruth : Relation → ℂ → Prop
  | .eq, _ => True
  | .ne, _ => True
  | _, u => u.im = 0

/-- Two bare expressions with the same value, or two relations with the same truth value. -/
def SameMeaning : Option Relation → ℂ → ℂ → Prop
  | none, u, v => u = v
  | some relation, u, v => relation.HasTruth u → relation.HasTruth v → (relation.holds u ↔ relation.holds v)

section meaning
variable {sp : Sympy E} {policy : FormulaPolicy} {eval : E → A → Option ℂ} {left right : ParsedFormula sp}
  {ratio : E} {z : ℚ × ℚ} {σ : A} {u v c : ℂ}

theorem value_mul (hsp : sp.Lawful eval)
    (hratio : sp.cancel (sp.div left.residual right.residual) = .ok ratio)
    (hnumeric : sp.numeric ratio = .ok (some z)) (hc : ∀ σ, eval ratio σ = some c)
    (hu : eval left.residual σ = some u) (hv : eval right.residual σ = some v) : u = c * v := by
  by_cases hzero : v = 0
  · subst hzero
    rw [hsp.cancel_vanishes _ _ _ _ _ _ hratio hnumeric hu hv, mul_zero]
  · have hdiv := hsp.eval_cancel _ _ _ _ hratio (hsp.eval_div _ _ _ _ _ hu hv hzero)
    rw [hc, Option.some.injEq] at hdiv
    rw [hdiv, div_mul_cancel₀ _ hzero]

/-! ### True verdicts -/

theorem comparison_true (hrelation : left.relation = right.relation)
    (h : comparison sp policy left right = .ok (some true)) :
    (∃ difference, sp.cancel (sp.sub left.residual right.residual) = .ok difference ∧
        sp.isZero difference = true) ∨
      ∃ ratio z, RatioFound sp policy left right ratio z := by
  unfold comparison at h
  obtain ⟨difference, hdifference, h⟩ := bind_eq_ok.mp h
  obtain ⟨hvalid, h⟩ := unit_bind_eq_ok.mp h
  cases hzero : sp.isZero difference with
  | true => exact .inl ⟨difference, hdifference, hzero⟩
  | false =>
    simp only [hzero, Bool.false_eq_true, if_false] at h
    obtain ⟨ratio, hratio, h⟩ := bind_eq_ok.mp h
    obtain ⟨hratioValid, h⟩ := unit_bind_eq_ok.mp h
    split at h
    · exact absurd (Except.ok.inj h) (by simp)
    · rename_i hguard
      simp only [not_or, not_not, Bool.not_eq_true] at hguard
      obtain ⟨hratioZero, hsymbols, hundefs⟩ := hguard
      obtain ⟨numericRatio, hnumeric, h⟩ := bind_eq_ok.mp h
      have haccepted := Except.ok.inj h
      cases numericRatio with
      | none => exact absurd haccepted (by simp [decideRatio])
      | some z =>
        exact .inr ⟨ratio, z, hrelation, ⟨difference, hdifference, hvalid, hzero⟩, hratio, hratioValid,
          hratioZero, hsymbols, hundefs, hnumeric, haccepted⟩

theorem symbolicEquivalence_true (h : symbolicEquivalence sp policy left right = .ok (some true)) :
    left.relation = right.relation ∧
      ((∃ difference, sp.cancel (sp.sub left.residual right.residual) = .ok difference ∧
          sp.isZero difference = true) ∨
        ∃ ratio z, RatioFound sp policy left right ratio z) := by
  unfold symbolicEquivalence at h
  split at h
  · exact absurd h (by simp)
  · rename_i hrelation
    refine ⟨not_not.mp hrelation, ?_⟩
    cases hcomparison : comparison sp policy left right with
    | error raised =>
      rw [hcomparison] at h
      dsimp only at h
      split at h <;> exact absurd h (by simp)
    | ok decision =>
      rw [hcomparison] at h
      obtain rfl : decision = some true := Except.ok.inj h
      exact comparison_true (not_not.mp hrelation) hcomparison

theorem RatioFound.verdict (h : RatioFound sp policy left right ratio z) :
    symbolicEquivalence sp policy left right = .ok (some true) := by
  obtain ⟨difference, hdifference, hvalid, hzero⟩ := h.difference
  have hcomparison : comparison sp policy left right = .ok (some true) := by
    simp [comparison, hdifference, hvalid, hzero, h.cancel, h.valid, h.nonzero, h.freeSymbols,
      h.appliedUndefs,
      h.numeric, h.accepted, bind, Except.bind, pure, Except.pure]
  simp [symbolicEquivalence, h.relation, hcomparison]

variable {relation : Option Relation}

theorem large_of_accepted (h : decideRatio policy relation (some z) = some true) :
    policy.tolerance < |z.1| ∧ |z.2| ≤ policy.tolerance := by
  simp only [decideRatio] at h
  split at h
  · exact absurd h (by simp)
  · rename_i him
    refine ⟨?_, not_lt.mp him⟩
    split at h
    · exact of_decide_eq_true (Option.some.inj h)
    · exact lt_of_lt_of_le (of_decide_eq_true (Option.some.inj h)) (le_abs_self _)

theorem positive_of_accepted {relation : Relation}
    (h : decideRatio policy (some relation) (some z) = some true)
    (hrelation : relation ≠ .eq) : policy.tolerance < z.1 := by
  simp only [decideRatio, reduceCtorEq, Option.some.injEq, hrelation, or_self, if_false] at h
  split at h
  · exact absurd h (by simp)
  · exact of_decide_eq_true (Option.some.inj h)

theorem ne_zero_of_accepted (h : decideRatio policy relation (some z) = some true)
    (hc : Close z c) : c ≠ 0 := by
  rintro rfl
  have htolerance : (0 : ℝ) < policy.tolerance := by exact_mod_cast policy.tolerance_mem.1
  obtain ⟨hre, him⟩ := hc
  have hpos := large_of_accepted h
  have hlarge : (policy.tolerance : ℝ) < |(z.1 : ℝ)| := by exact_mod_cast hpos.1
  have hsmall : |(z.2 : ℝ)| ≤ policy.tolerance := by exact_mod_cast hpos.2
  rw [Complex.zero_re, zero_sub, abs_neg] at hre
  linarith

theorem re_pos_of_accepted {relation : Relation} (h : decideRatio policy (some relation) (some z) = some true)
    (hrelation : relation ≠ .eq) (hc : Close z c) : 0 < c.re := by
  have htolerance : (0 : ℝ) < policy.tolerance := by exact_mod_cast policy.tolerance_mem.1
  have hpos := large_of_accepted h
  have hsmall : |(z.2 : ℝ)| ≤ policy.tolerance := by exact_mod_cast hpos.2
  have hlarge : (policy.tolerance : ℝ) < z.1 := by exact_mod_cast positive_of_accepted h hrelation
  have hre := abs_le.mp hc.1
  rw [abs_of_pos (lt_trans htolerance hlarge)] at hre
  linarith [hre.1]

theorem re_mul_of_real (hv : v.im = 0) : (c * v).re = c.re * v.re := by
  rw [Complex.mul_re, hv, mul_zero, sub_zero]

/-- A relation survives a factor that is not zero, and positive for the order relations. -/
theorem sameMeaning_of_mul {relation : Relation} (hne : c ≠ 0) (hpos : relation ≠ .eq → 0 < c.re)
    (h : u = c * v) :
    SameMeaning (some relation) u v := by
  intro _ hv
  subst h
  cases relation with
  | eq => exact mul_eq_zero.trans (or_iff_right hne)
  | ne => exact not_congr (mul_eq_zero.trans (or_iff_right hne))
  | le =>
    show (c * v).re ≤ 0 ↔ v.re ≤ 0
    rw [re_mul_of_real hv, ← not_lt, ← not_lt, mul_pos_iff_of_pos_left (hpos (by decide))]
  | ge =>
    show 0 ≤ (c * v).re ↔ 0 ≤ v.re
    rw [re_mul_of_real hv, mul_nonneg_iff_of_pos_left (hpos (by decide))]
  | lt =>
    show (c * v).re < 0 ↔ v.re < 0
    rw [re_mul_of_real hv, ← not_le, ← not_le, mul_nonneg_iff_of_pos_left (hpos (by decide))]
  | gt =>
    show 0 < (c * v).re ↔ 0 < v.re
    rw [re_mul_of_real hv, mul_pos_iff_of_pos_left (hpos (by decide))]

theorem sameMeaning_of_eq (h : u = v) : SameMeaning relation u v := by
  subst h
  cases relation with
  | none => rfl
  | some relation => exact fun _ _ => Iff.rfl

theorem difference_value (hsp : sp.Lawful eval) {difference : E}
    (hdifference : sp.cancel (sp.sub left.residual right.residual) = .ok difference)
    (hzero : sp.isZero difference = true) (hu : eval left.residual σ = some u)
    (hv : eval right.residual σ = some v) : u = v :=
  sub_eq_zero.mp (hsp.eval_zero _ _ _ hzero
    (hsp.eval_cancel _ _ _ _ hdifference (hsp.eval_sub _ _ _ _ _ hu hv)))

/-! ### Soundness -/

/-- Whenever the verdict is true, the formulas mean the same wherever both residuals are defined. -/
def Sound (sp : Sympy E) (policy : FormulaPolicy) (eval : E → A → Option ℂ)
    (left right : ParsedFormula sp) : Prop :=
  symbolicEquivalence sp policy left right = .ok (some true) → ∀ σ u v, eval left.residual σ = some u →
    eval right.residual σ = some v → SameMeaning left.relation u v

/-- **A true verdict is right for relations, and for bare expressions whose ratio is one.** -/
theorem symbolic_sound_iff (hsp : sp.Lawful eval) : Sound sp policy eval left right ↔
    (left.relation = none → ∀ ratio z, RatioFound sp policy left right ratio z →
      (∀ σ, eval ratio σ = some 1) ∨
        ∀ σ u v, eval left.residual σ = some u → eval right.residual σ = some v → v = 0) := by
  constructor
  · intro h hbare ratio z hfound
    obtain ⟨c, hc, _⟩ := hsp.eval_number _ _ hfound.freeSymbols hfound.appliedUndefs hfound.numeric
    by_cases hone : c = 1
    · exact .inl (fun σ => hone ▸ hc σ)
    · refine .inr (fun σ u v hu hv => ?_)
      have hsame := h hfound.verdict σ u v hu hv
      rw [hbare] at hsame
      have hvalue : u = v := hsame
      have hmul := value_mul hsp hfound.cancel hfound.numeric hc hu hv
      have hfactor : (c - 1) * v = 0 := by rw [sub_one_mul, ← hmul, hvalue, sub_self]
      exact (mul_eq_zero.mp hfactor).resolve_left (sub_ne_zero.mpr hone)
  · intro h hverdict σ u v hu hv
    obtain ⟨_, ⟨difference, hdifference, hzero⟩ | ⟨ratio, z, hfound⟩⟩ := symbolicEquivalence_true hverdict
    · exact sameMeaning_of_eq (difference_value hsp hdifference hzero hu hv)
    · obtain ⟨c, hc, hclose⟩ := hsp.eval_number _ _ hfound.freeSymbols hfound.appliedUndefs hfound.numeric
      have hmul := value_mul hsp hfound.cancel hfound.numeric hc hu hv
      cases hrelation : left.relation with
      | some relation =>
        have haccepted := hfound.accepted
        rw [hrelation] at haccepted
        exact sameMeaning_of_mul (ne_zero_of_accepted haccepted hclose)
          (fun hne => re_pos_of_accepted haccepted hne hclose) hmul
      | none =>
        obtain hone | hvanish := h hrelation ratio z hfound
        · have hc_one : c = 1 := Option.some.inj ((hc σ).symm.trans (hone σ))
          exact hmul.trans (by rw [hc_one, one_mul])
        · obtain rfl := hvanish σ u v hu hv
          exact hmul.trans (mul_zero c)

end meaning

/-! ### Terms in one symbol -/

/-- Rational expressions in one symbol. -/
inductive Term where
  | number (value : ℚ)
  | symbol
  | add (a b : Term)
  | neg (a : Term)
  | mul (a b : Term)
  | div (a b : Term)
deriving DecidableEq

/-- The value of a term, where no divisor vanishes. -/
noncomputable def Term.eval : Term → ℂ → Option ℂ
  | .number q, _ => some q
  | .symbol, x => some x
  | .add a b, x => do return (← a.eval x) + (← b.eval x)
  | .neg a, x => (a.eval x).map (fun u => -u)
  | .mul a b, x => do return (← a.eval x) * (← b.eval x)
  | .div a b, x => do
    let u ← a.eval x
    let v ← b.eval x
    if v = 0 then none else some (u / v)

/-- The coefficient and the degree of a term that is a monomial. -/
def Term.monomial : Term → Option (ℚ × ℕ)
  | .number q => some (q, 0)
  | .symbol => some (1, 1)
  | .add a b => do
    let p ← a.monomial
    let q ← b.monomial
    if q.1 = 0 then some p else if p.2 = q.2 then some (p.1 + q.1, p.2) else none
  | .neg a => a.monomial.map (fun p => (-p.1, p.2))
  | .mul a b => do
    let p ← a.monomial
    let q ← b.monomial
    return (p.1 * q.1, p.2 + q.2)
  | .div a b => do
    let p ← a.monomial
    let q ← b.monomial
    if q.1 ≠ 0 ∧ q.2 ≤ p.2 then some (p.1 / q.1, p.2 - q.2) else none

/-- A monomial without the symbol cancels to its coefficient. -/
def Term.cancel (t : Term) : Term :=
  match t.monomial with
  | some (q, n) => if q = 0 ∨ n = 0 then .number q else t
  | none => t

def Term.freeSymbols : Term → List String
  | .number _ => []
  | .symbol => ["x"]
  | .add a b => a.freeSymbols ∪ b.freeSymbols
  | .neg a => a.freeSymbols
  | .mul a b => a.freeSymbols ∪ b.freeSymbols
  | .div a b => a.freeSymbols ∪ b.freeSymbols

def Term.countOps : Term → ℕ
  | .number _ => 0
  | .symbol => 0
  | .add a b => a.countOps + b.countOps + 1
  | .neg a => a.countOps + 1
  | .mul a b => a.countOps + b.countOps + 1
  | .div a b => a.countOps + b.countOps + 1

/-- The algebra system on these terms. -/
def Term.sympy : Sympy Term where
  add := .add
  neg := .neg
  sub a b := .add a (.neg b)
  div := .div
  cancel t := .ok t.cancel
  isZero t := decide (t = .number 0)
  freeSymbols := Term.freeSymbols
  appliedUndefs _ := []
  countOps := Term.countOps
  hasNonFinite _ := false
  numeric
    | .number q => .ok (some (q, 0))
    | _ => .error .typeError

section terms
variable {a b t : Term} {x u : ℂ} {q : ℚ} {n : ℕ}

attribute [simp] Term.eval Term.monomial

theorem Term.eval_add_eq_some :
    (Term.add a b).eval x = some u ↔ ∃ v, a.eval x = some v ∧ ∃ w, b.eval x = some w ∧ v + w = u := by
  simp [Option.bind_eq_some_iff]

theorem Term.eval_mul_eq_some :
    (Term.mul a b).eval x = some u ↔ ∃ v, a.eval x = some v ∧ ∃ w, b.eval x = some w ∧ v * w = u := by
  simp [Option.bind_eq_some_iff]

theorem Term.eval_div_eq_some : (Term.div a b).eval x = some u ↔
    ∃ v, a.eval x = some v ∧ ∃ w, b.eval x = some w ∧ w ≠ 0 ∧ v / w = u := by
  simp [Option.bind_eq_some_iff]

theorem Term.monomial_add_cases (h : (Term.add a b).monomial = some (q, n)) :
    ∃ p m, a.monomial = some (p, m) ∧ ∃ r k, b.monomial = some (r, k) ∧
      (r = 0 ∧ p = q ∧ m = n ∨ m = k ∧ p + r = q ∧ m = n) := by
  simp only [Term.monomial, Option.bind_eq_bind, Option.bind_eq_some_iff, Prod.exists] at h
  obtain ⟨p, m, hp, r, k, hr, h⟩ := h
  refine ⟨p, m, hp, r, k, hr, ?_⟩
  split at h
  · rename_i hzero
    obtain ⟨rfl, rfl⟩ := Prod.mk.inj (Option.some.inj h)
    exact .inl ⟨hzero, rfl, rfl⟩
  · split at h
    · rename_i hdegree
      obtain ⟨rfl, rfl⟩ := Prod.mk.inj (Option.some.inj h)
      exact .inr ⟨hdegree, rfl, rfl⟩
    · exact absurd h (by simp)

theorem Term.monomial_div_eq_some : (Term.div a b).monomial = some (q, n) ↔
    ∃ p m, a.monomial = some (p, m) ∧ ∃ r k, b.monomial = some (r, k) ∧ r ≠ 0 ∧ k ≤ m ∧ p / r = q ∧
      m - k = n := by
  simp [Option.bind_eq_some_iff, and_assoc]

theorem Term.eval_monomial (hm : t.monomial = some (q, n)) (hu : t.eval x = some u) : u = q * x ^ n := by
  induction t generalizing q n u with
  | number value =>
    simp only [Term.monomial, Option.some.injEq, Prod.mk.injEq] at hm
    simp only [Term.eval, Option.some.injEq] at hu
    rw [← hm.1, ← hm.2, ← hu, pow_zero, mul_one]
  | symbol =>
    simp only [Term.monomial, Option.some.injEq, Prod.mk.injEq] at hm
    simp only [Term.eval, Option.some.injEq] at hu
    rw [← hm.1, ← hm.2, ← hu, pow_one, Rat.cast_one, one_mul]
  | add a b iha ihb =>
    obtain ⟨v, hv, w, hw, rfl⟩ := Term.eval_add_eq_some.mp hu
    obtain ⟨p, m, hp, r, k, hr, ⟨rfl, rfl, rfl⟩ | ⟨rfl, rfl, rfl⟩⟩ := Term.monomial_add_cases hm
    · rw [iha hp hv, ihb hr hw, Rat.cast_zero, zero_mul, add_zero]
    · rw [iha hp hv, ihb hr hw, Rat.cast_add, add_mul]
  | neg a iha =>
    obtain ⟨⟨p, m⟩, hp, hpq⟩ := Option.map_eq_some_iff.mp hm
    obtain ⟨w, hw, rfl⟩ := Option.map_eq_some_iff.mp hu
    obtain ⟨rfl, rfl⟩ := Prod.mk.inj hpq
    rw [iha hp hw, Rat.cast_neg, neg_mul]
  | mul a b iha ihb =>
    obtain ⟨v, hv, w, hw, rfl⟩ := Term.eval_mul_eq_some.mp hu
    simp [Option.bind_eq_some_iff] at hm
    obtain ⟨p, m, hp, r, k, hr, rfl, rfl⟩ := hm
    rw [iha hp hv, ihb hr hw, Rat.cast_mul, pow_add, mul_mul_mul_comm]
  | div a b iha ihb =>
    obtain ⟨v, hv, w, hw, hne, rfl⟩ := Term.eval_div_eq_some.mp hu
    obtain ⟨p, m, hp, r, k, hr, hr0, hk, rfl, rfl⟩ := Term.monomial_div_eq_some.mp hm
    have hx : x ^ k ≠ 0 := by
      rw [ihb hr hw] at hne
      exact right_ne_zero_of_mul hne
    rw [iha hp hv, ihb hr hw, Rat.cast_div, mul_div_mul_comm,
      div_eq_of_eq_mul hx (pow_sub_mul_pow x hk).symm]

theorem Term.cancel_cases (t : Term) : t.cancel = t ∨
    ∃ q n, t.monomial = some (q, n) ∧ (q = 0 ∨ n = 0) ∧ t.cancel = .number q := by
  unfold Term.cancel
  split
  · rename_i q n hm
    split
    · rename_i hconst
      exact .inr ⟨q, n, hm, hconst, rfl⟩
    · exact .inl rfl
  · exact .inl rfl

theorem Term.eval_cancel (hu : t.eval x = some u) : t.cancel.eval x = some u := by
  obtain h | ⟨q, n, hm, hconst, h⟩ := t.cancel_cases
  · rw [h]
    exact hu
  · rw [h, Term.eval_monomial hm hu]
    obtain rfl | rfl := hconst
    · simp
    · simp

theorem Term.numeric_eq_some {z : ℚ × ℚ} (h : Term.sympy.numeric t = .ok (some z)) : t = .number z.1 ∧
    z.2 = 0 := by
  cases t with
  | number q =>
    obtain rfl := Option.some.inj (Except.ok.inj h)
    exact ⟨rfl, rfl⟩
  | _ => exact absurd h (by simp [Term.sympy])

theorem Term.cancel_vanishes (h : (Term.div a b).cancel = .number q) (hu : a.eval x = some u)
    (hv : b.eval x = some 0) : u = 0 := by
  obtain hc | ⟨p, n, hm, hconst, hc⟩ := (Term.div a b).cancel_cases
  · exact absurd (hc.symm.trans h) (by simp)
  · obtain ⟨p, m, hp, r, k, hr, hr0, hk, rfl, rfl⟩ := Term.monomial_div_eq_some.mp hm
    rw [Term.eval_monomial hp hu]
    have hzero := Term.eval_monomial hr hv
    have hx : x = 0 ∧ k ≠ 0 := by simpa [hr0] using hzero.symm
    rw [hx.1, zero_pow (by omega), mul_zero]

theorem Term.sympy_lawful : Term.sympy.Lawful Term.eval where
  eval_sub a b σ u v hu hv :=
    Term.eval_add_eq_some.mpr ⟨u, hu, -v, by simp [hv], (sub_eq_add_neg u v).symm⟩
  eval_div a b σ u v hu hv hne := Term.eval_div_eq_some.mpr ⟨u, hu, v, hv, hne, rfl⟩
  eval_zero e σ u hzero hu := by
    rw [of_decide_eq_true hzero] at hu
    simpa using hu.symm
  eval_cancel e e' σ u hcancel hu := by
    rw [← Except.ok.inj hcancel]
    exact Term.eval_cancel hu
  cancel_vanishes l r q z σ u hcancel hnumeric hu hv := by
    have h := Except.ok.inj hcancel
    rw [(Term.numeric_eq_some hnumeric).1] at h
    exact Term.cancel_vanishes h hu hv
  eval_number q z _ _ hnumeric := by
    obtain ⟨rfl, hz⟩ := Term.numeric_eq_some hnumeric
    refine ⟨z.1, fun σ => rfl, ?_, ?_⟩
    · simp only [Complex.ratCast_re, sub_self, abs_zero]
      positivity
    · simp only [Complex.ratCast_im, hz, Rat.cast_zero, sub_self, abs_zero]
      positivity

end terms

/-- A formula without a relation. -/
def bare (t : Term) : ParsedFormula Term.sympy where
  relation := none
  lhs := t
  rhs := none
  residual := t
  relation_isSome := rfl
  residual_eq := rfl

/-- An equation whose right side is zero. -/
def equation (t : Term) : ParsedFormula Term.sympy where
  relation := some .eq
  lhs := t
  rhs := some (.number 0)
  residual := .add t (.neg (.number 0))
  relation_isSome := rfl
  residual_eq := rfl

/-- The verdict on `x = 0` and `2*x = 0` is true, and right. -/
theorem symbolic_sound_equation :
    symbolicEquivalence Term.sympy {} (equation .symbol) (equation (.mul (.number 2) .symbol)) = .ok
      (some true) ∧
      Sound Term.sympy {} Term.eval (equation .symbol) (equation (.mul (.number 2) .symbol)) :=
  ⟨by decide +kernel, (symbolic_sound_iff Term.sympy_lawful).mpr (fun h => absurd h (by decide))⟩

/-- The verdict on `x` and `2*x` is true, and they differ at one. -/
theorem proportional_formulas_equivalent :
    ¬ Sound Term.sympy {} Term.eval (bare .symbol) (bare (.mul (.number 2) .symbol)) := by
  intro h
  have hvalue : (1 : ℂ) = 2 * 1 := h (by decide +kernel) 1 1 (2 * 1) rfl (by simp [bare])
  norm_num at hvalue

end CyberControl.Formula
