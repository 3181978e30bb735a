import CyberControl.Errors
import CyberControl.PatternRuns
import Mathlib.Data.List.Infix
import Mathlib.Tactic.NormNum

/-! # The source of a formula

`SafeFormulaParser._validate_source` (`academic/formula.py`): what a text is checked for before it is parsed. -/

namespace CyberControl.Formula

/-- What is raised on the way; `handled` are the exceptions that the equivalence engine catches. -/
inductive Raised where
  | formulaParseError (text : String)
  | formulaSecurityError (text : String)
  | arithmeticError
  | typeError
  | valueError
  | other (name : String)
deriving DecidableEq

def Raised.handled : Raised → Bool
  | .other _ => false
  | _ => true

theorem tolerance_bounds : 0 < (1 / 10 ^ 8 : ℚ) ∧ (1 / 10 ^ 8 : ℚ) ≤ 1 / 100 := by decide +kernel

/-- `FormulaPolicy`, as far as the source, the tree and the comparison read it. -/
structure FormulaPolicy where
  maxExpressionChars : ℕ := 8192
  maxOperations : ℕ := 2048
  maxParenthesisDepth : ℕ := 32
  maxAbsoluteExponent : ℕ := 32
  tolerance : ℚ := 1 / 10 ^ 8
  chars : 1 ≤ maxExpressionChars ∧ maxExpressionChars ≤ 8192 := by decide
  operations : 1 ≤ maxOperations ∧ maxOperations ≤ 10000 := by decide
  depth : 1 ≤ maxParenthesisDepth ∧ maxParenthesisDepth ≤ 128 := by decide
  absoluteExponent : 1 ≤ maxAbsoluteExponent ∧ maxAbsoluteExponent ≤ 128 := by decide
  tolerance_mem : 0 < tolerance ∧ tolerance ≤ 1 / 100 := by first | exact tolerance_bounds | decide +kernel

/-! ### Characters -/

/-- `\s` -/
def isSpace (c : Char) : Bool :=
  let n := c.toNat
  (9 ≤ n ∧ n ≤ 13) || (28 ≤ n ∧ n ≤ 32) || (0x2000 ≤ n ∧ n ≤ 0x200a) ||
    [0x85, 0xa0, 0x1680, 0x2028, 0x2029, 0x202f, 0x205f, 0x3000].contains n

/-- `[A-Za-z0-9_]` -/
def isWord (c : Char) : Bool := c.isAlphanum || c = '_'

/-- The characters of `_ALLOWED_EXPRESSION`. -/
def isAllowed (c : Char) : Bool :=
  isWord c || isSpace c ||
    ['+', '-', '*', '/', '^', '(', ')', '.', ',', '!', '<', '>', '=', '\\', '\x7b', '\x7d',
    '[', ']'].contains c

def isSign (c : Char) : Bool := c = '-' || c = '+'

/-! ### Patterns -/

/-- `_IDENTIFIER.findall`. -/
def identifiers (value : List Char) : List (List Char) :=
  Pattern.findGroups (.boundary isWord)
    (.seq (.char fun c => c.isAlpha || c = '_') (.seq (.star (.char isWord)) (.boundary isWord)))
    (value.length + 1) (.start value)

/-- `_LONG_NUMBER`; only the digits of ASCII are among the characters. -/
def longNumber : Pattern := .atLeast (.char Char.isDigit) 65

/-- `(?:\^|\*\*)\s*` -/
def exponentHead : Pattern := .seq (.alt (.literal '^') (.word ['*', '*'])) (.star (.char isSpace))

/-- `[-+]?\d+` -/
def exponentBody : Pattern := .seq (.option (.char isSign)) (.plus (.char Char.isDigit))

/-- `_EXPONENT.findall`. -/
def exponents (value : List Char) : List (List Char) :=
  Pattern.findGroups exponentHead exponentBody (value.length + 1) (.start value)

/-- The number that a run of digits writes. -/
def natOf (digits : List Char) : ℕ := digits.foldl (fun n c => 10 * n + (c.toNat - 48)) 0

/-- `int(raw_exponent)`. -/
def intOf : List Char → ℤ
  | '-' :: digits => -natOf digits
  | '+' :: digits => natOf digits
  | digits => natOf digits

/-! ### The checks -/

def forbiddenIdentifiers : List String :=
  ["compile", "eval", "exec", "getattr", "globals", "import", "lambda", "locals", "open", "setattr"]

def openingFor : Char → Option Char
  | ')' => some '('
  | ']' => some '['
  | '\x7d' => some '\x7b'
  | _ => none

/-- The delimiters that are open, the last one first, and the greatest depth; none when one does not match. -/
def scanDelimiters : List Char → List Char → ℕ → Option (List Char × ℕ)
  | [], delimiters, maximumDepth => some (delimiters, maximumDepth)
  | character :: value, delimiters, maximumDepth =>
    if ['(', '[', '\x7b'].contains character then
      scanDelimiters value (character :: delimiters) (max maximumDepth (delimiters.length + 1))
    else
      match openingFor character with
      | none => scanDelimiters value delimiters maximumDepth
      | some opening =>
        if delimiters.head? = some opening then scanDelimiters value delimiters.tail maximumDepth else none

/-- `if condition: raise error`. -/
def refuse (condition : Prop) [Decidable condition] (error : Raised) : Except Raised Unit :=
  if condition then .error error else .ok ()

def validateSource (policy : FormulaPolicy) (value : List Char) : Except Raised Unit := do
  refuse (policy.maxExpressionChars < value.length)
    (.formulaSecurityError "formula exceeds the expression size limit")
  refuse (¬ (value ≠ [] ∧ value.all isAllowed))
    (.formulaSecurityError "formula contains characters outside the safe grammar")
  let lowered := value.map Char.toLower
  refuse (['_', '_'] <:+: lowered ∨ ∃ identifier ∈ identifiers lowered,
    String.ofList identifier ∈ forbiddenIdentifiers)
    (.formulaSecurityError "formula contains a forbidden identifier")
  refuse (longNumber.search value).isSome
    (.formulaSecurityError "formula contains an oversized numeric literal")
  match scanDelimiters value [] 0 with
  | none => .error (.formulaParseError "formula delimiters are unbalanced")
  | some (delimiters, maximumDepth) => do
    refuse (delimiters ≠ []) (.formulaParseError "formula delimiters are unbalanced")
    refuse (policy.maxParenthesisDepth < maximumDepth)
      (.formulaSecurityError "formula nesting exceeds the safety limit")
    refuse (∃ raw ∈ exponents value, policy.maxAbsoluteExponent < (intOf raw).natAbs)
      (.formulaSecurityError "formula exponent exceeds the safety limit")

/-! ### What the guard reads -/

/-- The two spellings of the power operator. -/
def IsOperator (operator : List Char) : Prop := operator = ['^'] ∨ operator = ['*', '*']

/-- A sign or none, and digits. -/
structure IsInteger (raw : List Char) : Prop where
  split : ∃ sign digits, raw = sign ++ digits ∧ digits ≠ [] ∧ (∀ c ∈ digits, c.isDigit) ∧
    (sign = [] ∨ ∃ c, isSign c ∧ sign = [c])

theorem digit_facts {c : Char} (h : c.isDigit) : isSpace c = false ∧ isSign c = false ∧ c ≠ '^' ∧ c ≠ '*' := by
  have hrange : 48 ≤ c.toNat ∧ c.toNat ≤ 57 := by
    simp only [Char.isDigit, Bool.and_eq_true, decide_eq_true_eq] at h
    exact h
  refine ⟨?_, ?_, ?_, ?_⟩
  · simp [isSpace]
    omega
  · rw [Bool.eq_false_iff]
    intro hsign
    simp only [isSign, Bool.or_eq_true, decide_eq_true_eq] at hsign
    obtain rfl | rfl := hsign
    · exact absurd h (by decide)
    · exact absurd h (by decide)
  · rintro rfl
    exact absurd h (by decide)
  · rintro rfl
    exact absurd h (by decide)

theorem sign_facts {c : Char} (h : isSign c) : isSpace c = false ∧ c.isDigit = false ∧ c ≠ '^' ∧ c ≠ '*' := by
  simp only [isSign, Bool.or_eq_true, decide_eq_true_eq] at h
  obtain rfl | rfl := h
  · decide
  · decide

theorem space_facts {c : Char} (h : isSpace c) : c ≠ '^' ∧ c ≠ '*' := by
  refine ⟨?_, ?_⟩
  · rintro rfl
    exact absurd h (by decide)
  · rintro rfl
    exact absurd h (by decide)

section reads
variable {before after operator gap raw : List Char}

theorem head_digits (hdigits : ∀ c ∈ raw, c.isDigit) (hne : raw ≠ [])
    (hafter : after.head?.any Char.isDigit = false) :
    ((Pattern.plus (.char Char.isDigit)).ends ⟨before, raw ++ after⟩).head? = some ⟨raw.reverse ++ before,
    after⟩ := by
  cases raw with
  | nil => exact absurd rfl hne
  | cons x digits =>
    rw [List.reverse_cons, List.append_assoc]
    refine Pattern.head_seq ?_
      (Pattern.head_star_char (fun c hc => hdigits c (List.mem_cons_of_mem x hc)) hafter)
    rw [List.cons_append, Pattern.ends_char_cons (hdigits x List.mem_cons_self)]
    rfl

theorem head_exponentBody (hraw : IsInteger raw) (hafter : after.head?.any Char.isDigit = false) :
    (exponentBody.ends ⟨before, raw ++ after⟩).head? = some ⟨raw.reverse ++ before, after⟩ := by
  obtain ⟨sign, digits, rfl, hne, hdigits, rfl | ⟨c, hc, rfl⟩⟩ := hraw.split
  · have hnosign : (digits ++ after).head?.any isSign = false := by
      obtain ⟨x, digits, rfl⟩ := List.exists_cons_of_ne_nil hne
      exact (digit_facts (hdigits x List.mem_cons_self)).2.1
    have hoption : ((Pattern.option (.char isSign)).ends ⟨before, digits ++ after⟩).head? =
        some ⟨before, digits ++ after⟩ := by
      rw [Pattern.option, Pattern.ends, Pattern.ends_char_stop hnosign]
      rfl
    exact Pattern.head_seq hoption (head_digits hdigits hne hafter)
  · have hoption : ((Pattern.option (.char isSign)).ends ⟨before, c :: (digits ++ after)⟩).head? =
        some ⟨c :: before, digits ++ after⟩ := by
      rw [Pattern.option, Pattern.ends, Pattern.ends_char_cons hc]
      rfl
    have hbody := Pattern.head_seq hoption (head_digits hdigits hne hafter)
    rw [List.reverse_append, List.append_assoc, List.append_assoc]
    exact hbody

theorem head_exponentHead (hoperator : IsOperator operator) (hgap : ∀ c ∈ gap, isSpace c)
    (hafter : after.head?.any isSpace = false) :
    (exponentHead.ends ⟨before, operator ++ (gap ++ after)⟩).head? =
      some ⟨gap.reverse ++ (operator.reverse ++ before), after⟩ := by
  have hstar := @Pattern.head_star_char isSpace (operator.reverse ++ before) _ _ hgap hafter
  refine Pattern.head_seq ?_ hstar
  obtain rfl | rfl := hoperator
  · rfl
  · rfl

theorem groupAt_exponent (hoperator : IsOperator operator) (hgap : ∀ c ∈ gap, isSpace c)
    (hraw : IsInteger raw)
    (hafter : after.head?.any Char.isDigit = false) :
    ∃ e, Pattern.groupAt exponentHead exponentBody ⟨before, operator ++ (gap ++ (raw ++ after))⟩ = some
      (raw, e) := by
  have hnospace : (raw ++ after).head?.any isSpace = false := by
    obtain ⟨sign, digits, rfl, hne, hdigits, rfl | ⟨c, hc, rfl⟩⟩ := hraw.split
    · obtain ⟨x, digits, rfl⟩ := List.exists_cons_of_ne_nil hne
      exact (digit_facts (hdigits x List.mem_cons_self)).1
    · exact (sign_facts hc).1
  have hgroup := Pattern.groupAt_of_head (@head_exponentHead before _ _ _ hoperator hgap hnospace)
    (head_exponentBody hraw hafter)
  rw [List.length_append, Nat.add_sub_cancel, List.take_left] at hgroup
  exact ⟨_, hgroup⟩

variable {c d : TextCursor}

theorem takes_operator (h : d ∈ (Pattern.alt (.literal '^') (.word ['*', '*'])).ends c) :
    ∃ operator, IsOperator operator ∧ Pattern.Takes c operator d := by
  obtain h | h := List.mem_append.mp h
  · obtain ⟨x, hx, htake⟩ := Pattern.takes_of_mem_char h
    obtain rfl := of_decide_eq_true hx
    exact ⟨_, .inl rfl, htake⟩
  · obtain ⟨d', h', h⟩ := List.mem_flatMap.mp h
    obtain ⟨x, hx, htake⟩ := Pattern.takes_of_mem_char h'
    obtain ⟨y, hy, htake'⟩ := Pattern.takes_of_mem_char h
    obtain rfl := of_decide_eq_true hx
    obtain rfl := of_decide_eq_true hy
    exact ⟨_, .inr rfl, htake.trans htake'⟩

theorem takes_sign (h : d ∈ (Pattern.option (.char isSign)).ends c) :
    ∃ sign, (∀ x ∈ sign, isSign x) ∧ Pattern.Takes c sign d := by
  obtain h | h := List.mem_append.mp h
  · obtain ⟨x, hx, htake⟩ := Pattern.takes_of_mem_char h
    exact ⟨[x], by simpa using hx, htake⟩
  · obtain rfl := List.mem_singleton.mp h
    exact ⟨[], by simp, .refl _⟩

theorem takes_of_groupAt {group : List Char}
    (h : Pattern.groupAt exponentHead exponentBody c = some (group, d)) :
    ∃ operator tail, IsOperator operator ∧ tail ≠ [] ∧ (∀ x ∈ tail, x ≠ '^' ∧ x ≠ '*') ∧
      Pattern.Takes c (operator ++ tail) d := by
  obtain ⟨d₁, hhead, hbody⟩ := Pattern.exists_of_groupAt h
  obtain ⟨d₂, hoperator, hspaces⟩ := List.mem_flatMap.mp hhead
  obtain ⟨d₃, hsign, hdigits⟩ := List.mem_flatMap.mp hbody
  obtain ⟨d₄, hdigit, hmore⟩ := List.mem_flatMap.mp hdigits
  obtain ⟨operator, hisOperator, htake⟩ := takes_operator hoperator
  obtain ⟨gap, hgap, htake₁⟩ := Pattern.takes_of_mem_star hspaces
  obtain ⟨sign, hsigns, htake₂⟩ := takes_sign hsign
  obtain ⟨x, hx, htake₃⟩ := Pattern.takes_of_mem_char hdigit
  obtain ⟨digits, hall, htake₄⟩ := Pattern.takes_of_mem_star hmore
  refine ⟨operator, gap ++ (sign ++ ([x] ++ digits)), hisOperator, by simp, ?_,
    htake.trans (htake₁.trans (htake₂.trans (htake₃.trans htake₄)))⟩
  intro y hy
  simp only [List.mem_append, List.mem_singleton] at hy
  obtain hy | hy | rfl | hy := hy
  · exact space_facts (hgap y hy)
  · exact (sign_facts (hsigns y hy)).2.2
  · exact (digit_facts hx).2.2
  · exact (digit_facts (hall y hy)).2.2

theorem no_overlap {operator' tail ahead u more rest : List Char} (hoperator : IsOperator operator)
    (hoperator' : IsOperator operator') (htail : tail ≠ []) (hclean : ∀ x ∈ tail, x ≠ '^' ∧ x ≠ '*')
    (hahead : ahead ≠ []) (hsplit : operator' ++ tail = ahead ++ u) (hrest : operator ++ more = u ++ rest) :
    u = [] := by
  by_contra hu
  obtain ⟨y, u, rfl⟩ := List.exists_cons_of_ne_nil hu
  have hy : y = '^' ∨ y = '*' := by
    obtain rfl | rfl := hoperator
    · exact .inl (List.cons.inj hrest).1.symm
    · exact .inr (List.cons.inj hrest).1.symm
  obtain ⟨x, ahead, rfl⟩ := List.exists_cons_of_ne_nil hahead
  obtain rfl | rfl := hoperator'
  · have htail : tail = ahead ++ y :: u := (List.cons.inj hsplit).2
    obtain ⟨h₁, h₂⟩ := hclean y (htail ▸ by simp)
    exact hy.elim h₁ h₂
  · have hstar : '*' :: tail = ahead ++ y :: u := (List.cons.inj hsplit).2
    cases ahead with
    | nil =>
      obtain ⟨rfl, rfl⟩ := List.cons.inj hstar
      obtain rfl | rfl := hoperator
      · exact absurd (List.cons.inj hrest).1 (by decide)
      · obtain ⟨z, tail, rfl⟩ := List.exists_cons_of_ne_nil htail
        have hz := (List.cons.inj (List.cons.inj hrest).2).1
        exact (hclean z List.mem_cons_self).2 hz.symm
    | cons z ahead =>
      have htail : tail = ahead ++ y :: u := (List.cons.inj hstar).2
      obtain ⟨h₁, h₂⟩ := hclean y (htail ▸ by simp)
      exact hy.elim h₁ h₂

/-- **The guard reads every integer** behind a power operator. -/
theorem mem_exponents (hoperator : IsOperator operator) (hgap : ∀ c ∈ gap, isSpace c) (hraw : IsInteger raw)
    (hafter : after.head?.any Char.isDigit = false) :
    raw ∈ exponents (before ++ (operator ++ (gap ++ (raw ++ after)))) := by
  obtain ⟨e, he⟩ := @groupAt_exponent before.reverse _ _ _ _ hoperator hgap hraw hafter
  refine Pattern.mem_findGroups ?_ (Nat.lt_succ_self _) (by rw [List.append_nil]; exact he) ?_
  · intro c group d h
    obtain ⟨operator', tail, _, htail, _, htakes⟩ := takes_of_groupAt h
    have hlength := congrArg List.length htakes.1
    rw [List.length_append, List.length_append] at hlength
    have := List.length_pos_iff.mpr htail
    omega
  · intro passed ahead g d hahead hne h
    obtain ⟨operator', tail, hoperator', htail, hclean, htakes⟩ := takes_of_groupAt h
    obtain ⟨beforeD, afterD⟩ := d
    obtain ⟨hafterD, rfl⟩ := htakes
    obtain ⟨u, hleft, hright⟩ | ⟨u, hleft, rfl⟩ := List.append_eq_append_iff.mp hafterD
    · obtain rfl := no_overlap hoperator hoperator' htail hclean hne hleft hright
      refine ⟨ahead, [], (List.append_nil _).symm, ?_⟩
      rw [hleft, List.append_nil, List.nil_append, hright, List.nil_append]
    · exact ⟨operator' ++ tail, u, hleft, rfl⟩

end reads

example : validateSource {} "x^(99)".toList = .ok () := by decide +kernel

example : validateSource {} "x^99".toList =
    .error (.formulaSecurityError "formula exponent exceeds the safety limit") := by decide +kernel

end CyberControl.Formula
