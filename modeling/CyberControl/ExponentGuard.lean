import CyberControl.FormulaSource
import Mathlib.Analysis.SpecialFunctions.Pow.Complex

/-! # The guard on exponents

`_validate_source` reads exponents with a pattern; the parser reads them with its grammar. -/

namespace CyberControl.Formula

/-! ### Literals -/

/-- White space between two tokens: a character, or a line that is continued. -/
inductive Blank where
  | space (c : Char) (h : isSpace c)
  | continuation (carriage : Bool)

def Blank.text : Blank → List Char
  | .space c _ => [c]
  | .continuation carriage => '\\' :: (if carriage then ['\r', '\n'] else ['\n'])

abbrev Gap := List Blank

def Gap.text (gap : Gap) : List Char := gap.flatMap Blank.text

inductive Sign where
  | plus
  | minus
deriving DecidableEq

def Sign.text : Sign → Char
  | .plus => '+'
  | .minus => '-'

def digitChar (d : Fin 10) : Char := Char.ofNat (48 + d)

/-- Digits, with an underscore before some of them. -/
structure DigitPart where
  first : Fin 10
  more : List (Bool × Fin 10)

def DigitPart.text (part : DigitPart) : List Char :=
  digitChar part.first :: part.more.flatMap (fun d => if d.1 then ['_', digitChar d.2] else [digitChar d.2])

def DigitPart.value (part : DigitPart) : ℕ := part.more.foldl (fun n d => 10 * n + d.2) part.first

def DigitPart.length (part : DigitPart) : ℕ := part.more.length + 1

inductive Radix where
  | hexadecimal
  | octal
  | binary

def Radix.base : Radix → ℕ
  | .hexadecimal => 16
  | .octal => 8
  | .binary => 2

def Radix.letter : Radix → Bool → Char
  | .hexadecimal, upper => if upper then 'X' else 'x'
  | .octal, upper => if upper then 'O' else 'o'
  | .binary, upper => if upper then 'B' else 'b'

/-- A digit of a radix, with an underscore before it or none, in upper or in lower case. -/
structure RadixDigit (radix : Radix) where
  underscore : Bool
  upper : Bool
  digit : Fin radix.base

def RadixDigit.text {radix : Radix} (d : RadixDigit radix) : List Char :=
  let c := Nat.digitChar d.digit
  (if d.underscore then ['_'] else []) ++ [if d.upper then c.toUpper else c]

/-- The exponent of a decimal number. -/
structure Scale where
  upper : Bool
  sign : Option Sign
  digits : DigitPart

def Scale.text (scale : Scale) : List Char :=
  (if scale.upper then 'E' else 'e') :: (scale.sign.map Sign.text).toList ++ scale.digits.text

def Scale.factor (scale : Scale) : ℚ :=
  if scale.sign = some .minus then 1 / 10 ^ scale.digits.value else 10 ^ scale.digits.value

/-- The numbers of the grammar: integers, integers in another radix, decimal numbers, and decimal numbers whose
last digits repeat. -/
inductive Number where
  | integer (digits : DigitPart)
  | based (radix : Radix) (upper : Bool) (digits : List (RadixDigit radix))
  | point (whole fraction : Option DigitPart) (scale : Option Scale)
  | scientific (whole : DigitPart) (scale : Scale)
  | repeating (whole fraction : Option DigitPart) (before : Gap) (left : Gap) (repeated : DigitPart)
    (right : Gap)

def Number.text : Number → List Char
  | .integer digits => digits.text
  | .based radix upper digits => '0' :: radix.letter upper :: digits.flatMap RadixDigit.text
  | .point whole fraction scale =>
    (whole.map DigitPart.text).getD [] ++ '.' :: (fraction.map DigitPart.text).getD [] ++
      (scale.map Scale.text).getD []
  | .scientific whole scale => whole.text ++ scale.text
  | .repeating whole fraction before left repeated right =>
    (whole.map DigitPart.text).getD [] ++ '.' :: (fraction.map DigitPart.text).getD [] ++ before.text ++
      '[' :: left.text ++ repeated.text ++ right.text ++ [']']

def Number.value : Number → ℚ
  | .integer digits => digits.value
  | .based radix _ digits => digits.foldl (fun n d => radix.base * n + d.digit) 0
  | .point whole fraction scale =>
    ((whole.map DigitPart.value).getD 0 +
      (fraction.map (fun part => (part.value : ℚ) / 10 ^ part.length)).getD 0) * (scale.map Scale.factor).getD 1
  | .scientific whole scale => whole.value * scale.factor
  | .repeating whole fraction _ _ repeated _ =>
    (whole.map DigitPart.value).getD 0 +
      ((fraction.map DigitPart.value).getD 0 + (repeated.value : ℚ) / (10 ^ repeated.length - 1)) /
        10 ^ (fraction.map DigitPart.length).getD 0

/-! ### Exponents -/

inductive PowerOperator where
  | caret
  | stars

def PowerOperator.text : PowerOperator → List Char
  | .caret => ['^']
  | .stars => ['*', '*']

mutual

/-- A number, or a literal in parentheses. -/
inductive Atom where
  | number (n : Number)
  | parenthesised (left : Gap) (e : Exponent) (right : Gap)

/-- The literals of the grammar at the place of an exponent: an atom, a signed literal, or a power of an atom,
which is right-associative. -/
inductive Exponent where
  | atom (a : Atom)
  | signed (sign : Sign) (gap : Gap) (e : Exponent)
  | tower (base : Atom) (before : Gap) (operator : PowerOperator) (after : Gap) (e : Exponent)

end

mutual

def Atom.text : Atom → List Char
  | .number n => n.text
  | .parenthesised left e right => '(' :: left.text ++ e.text ++ right.text ++ [')']

def Exponent.text : Exponent → List Char
  | .atom a => a.text
  | .signed sign gap e => sign.text :: gap.text ++ e.text
  | .tower base before operator after e => base.text ++ before.text ++ operator.text ++ after.text ++ e.text

end

mutual

/-- The value of an atom; a power of zero with a negative exponent has none. -/
noncomputable def Atom.value : Atom → Option ℂ
  | .number n => some (n.value : ℂ)
  | .parenthesised _ e _ => e.value

noncomputable def Exponent.value : Exponent → Option ℂ
  | .atom a => a.value
  | .signed .plus _ e => e.value
  | .signed .minus _ e => e.value.map (fun v => -v)
  | .tower base _ _ _ e =>
    base.value.bind (fun b => e.value.bind (fun v => if b = 0 ∧ v.re < 0 then none else some (b ^ v)))

end

/-- A power operator of a source, with what is written behind it. -/
structure Power where
  operator : PowerOperator
  gap : Gap
  exponent : Exponent

/-- The absolute value is within the limit. -/
def Power.Within (policy : FormulaPolicy) (power : Power) : Prop :=
  ∀ v, power.exponent.value = some v → ‖v‖ ≤ policy.maxAbsoluteExponent

/-! ### Parsers -/

/-- A literal exponent is written behind its operator, and its last number is not continued. -/
def Power.At (source : List Char) (power : Power) : Prop :=
  ∃ before after,
    source = before ++ (power.operator.text ++ (power.gap.text ++ (power.exponent.text ++ after))) ∧
      (power.exponent.text.getLast?.any Char.isDigit → after.head?.any Char.isDigit = false)

/-- The literal exponents of a source as the parser reads it; none when it does not. -/
abbrev ExponentParser := List Char → Option (List Power)

/-- The parser reads literal exponents where they are written. -/
def ExponentParser.Lawful (parser : ExponentParser) : Prop :=
  ∀ source powers, parser source = some powers → ∀ power ∈ powers, power.At source

/-! ### Exponents that the pattern reads -/

def DigitPart.plain (part : DigitPart) : Bool := part.more.all (fun d => !d.1)

/-- A sign or none, directly before digits without underscores. -/
def Exponent.direct : Exponent → Bool
  | .atom (.number (.integer digits)) => digits.plain
  | .signed _ gap (.atom (.number (.integer digits))) => gap.isEmpty && digits.plain
  | _ => false

def Blank.isSpace : Blank → Bool
  | .space _ _ => true
  | .continuation _ => false

/-- Written directly, with nothing but white space behind the operator. -/
def Power.Guarded (power : Power) : Prop := power.gap.all Blank.isSpace = true ∧ power.exponent.direct = true

section guarded
variable {policy : FormulaPolicy} {source : List Char} {part : DigitPart} {e : Exponent} {power : Power}

theorem digitChar_digit : ∀ d : Fin 10, (digitChar d).isDigit = true ∧ (digitChar d).toNat - 48 = d := by
  decide

theorem DigitPart.text_plain (h : part.plain) :
    part.text = (part.first :: part.more.map Prod.snd).map digitChar := by
  have hmore : ∀ more : List (Bool × Fin 10), more.all (fun d => !d.1) →
      more.flatMap (fun d => if d.1 then ['_', digitChar d.2] else [digitChar d.2]) =
        (more.map Prod.snd).map digitChar := by
    intro more
    induction more with
    | nil => intro _; rfl
    | cons d more ih =>
      intro hall
      rw [List.all_cons, Bool.and_eq_true, Bool.not_eq_true'] at hall
      rw [List.flatMap_cons, hall.1, ih hall.2]
      rfl
  rw [DigitPart.text, hmore _ h, List.map_cons]

theorem DigitPart.natOf_text (h : part.plain) : natOf part.text = part.value := by
  have hfold : ∀ (ds : List (Bool × Fin 10)) (n : ℕ),
      ((ds.map Prod.snd).map digitChar).foldl (fun n c => 10 * n + (c.toNat - 48)) n =
        ds.foldl (fun n d => 10 * n + (d.2 : ℕ)) n := by
    intro ds
    induction ds with
    | nil => intro n; rfl
    | cons d ds ih =>
      intro n
      rw [List.map_cons, List.map_cons, List.foldl_cons, List.foldl_cons, (digitChar_digit d.2).2, ih]
  rw [DigitPart.text_plain h, natOf, List.map_cons, List.foldl_cons, (digitChar_digit part.first).2, hfold,
    mul_zero, zero_add, DigitPart.value]

theorem DigitPart.digits_text (h : part.plain) : part.text ≠ [] ∧ ∀ c ∈ part.text, c.isDigit := by
  rw [DigitPart.text_plain h]
  refine ⟨by simp, ?_⟩
  intro c hc
  obtain ⟨d, _, rfl⟩ := List.mem_map.mp hc
  exact (digitChar_digit d).1

theorem intOf_digits {digits : List Char} (h : ∀ c ∈ digits, c.isDigit) : intOf digits = natOf digits := by
  unfold intOf
  split
  · exact absurd (h '-' List.mem_cons_self) (by decide)
  · exact absurd (h '+' List.mem_cons_self) (by decide)
  · rfl

theorem Exponent.direct_spec (h : e.direct) : IsInteger e.text ∧ e.value = some ((intOf e.text : ℤ) : ℂ) ∧
    e.text.getLast?.any Char.isDigit := by
  unfold Exponent.direct at h
  split at h
  · rename_i digits
    obtain ⟨hne, hdigits⟩ := DigitPart.digits_text h
    have htext : (Exponent.atom (.number (.integer digits))).text = digits.text := by
      rw [Exponent.text, Atom.text, Number.text]
    rw [htext]
    refine ⟨⟨[], digits.text, rfl, hne, hdigits, .inl rfl⟩, ?_, ?_⟩
    · rw [intOf_digits hdigits, DigitPart.natOf_text h, Exponent.value, Atom.value, Number.value]
      simp
    · rw [List.getLast?_eq_some_getLast hne]
      exact hdigits _ (List.getLast_mem hne)
  · rename_i sign gap digits
    rw [Bool.and_eq_true, List.isEmpty_iff] at h
    obtain ⟨rfl, h⟩ := h
    obtain ⟨hne, hdigits⟩ := DigitPart.digits_text h
    have htext : (Exponent.signed sign [] (.atom (.number (.integer digits)))).text = sign.text :: digits.text := by
      rw [Exponent.text, Exponent.text, Atom.text, Number.text]
      rfl
    rw [htext]
    refine ⟨⟨[sign.text], digits.text, rfl, hne, hdigits, .inr ⟨sign.text, ?_, rfl⟩⟩, ?_, ?_⟩
    · cases sign with
      | plus => rfl
      | minus => rfl
    · cases sign with
      | plus =>
        rw [Exponent.value, Exponent.value, Atom.value, Number.value]
        simp [intOf, Sign.text, DigitPart.natOf_text h]
      | minus =>
        rw [Exponent.value, Exponent.value, Atom.value, Number.value]
        simp [intOf, Sign.text, DigitPart.natOf_text h]
    · rw [List.getLast?_cons, List.getLast?_eq_some_getLast hne]
      exact hdigits _ (List.getLast_mem hne)
  · cases h

theorem PowerOperator.isOperator (operator : PowerOperator) : IsOperator operator.text := by
  cases operator with
  | caret => exact .inl rfl
  | stars => exact .inr rfl

theorem Gap.isSpace_text {gap : Gap} (h : gap.all Blank.isSpace = true) :
    ∀ c ∈ Gap.text gap, Formula.isSpace c = true := by
  intro c hc
  obtain ⟨blank, hblank, hc⟩ := List.mem_flatMap.mp hc
  have hspace := List.all_eq_true.mp h blank hblank
  cases blank with
  | space x hx =>
    obtain rfl := List.mem_singleton.mp hc
    exact hx
  | continuation carriage => cases hspace

theorem refuse_eq_ok {condition : Prop} [Decidable condition] {error : Raised} :
    refuse condition error = .ok () ↔ ¬ condition := by
  unfold refuse
  split_ifs with h
  · simp [h]
  · simp [h]

theorem validateSource_exponents (h : validateSource policy source = .ok ()) {raw : List Char}
    (hraw : raw ∈ exponents source) : (intOf raw).natAbs ≤ policy.maxAbsoluteExponent := by
  unfold validateSource at h
  simp only [unit_bind_eq_ok] at h
  obtain ⟨_, _, _, _, h⟩ := h
  split at h
  · cases h
  · obtain ⟨_, h⟩ := unit_bind_eq_ok.mp h
    obtain ⟨_, h⟩ := unit_bind_eq_ok.mp h
    have hnone := refuse_eq_ok.mp h
    exact not_lt.mp (fun hlarge => hnone ⟨raw, hraw, hlarge⟩)

/-- **An exponent that the pattern reads** is within the limit. -/
theorem within_of_guarded (h : validateSource policy source = .ok ()) (hat : power.At source)
    (hguarded : power.Guarded) : power.Within policy := by
  obtain ⟨hgap, hdirect⟩ := hguarded
  obtain ⟨before, after, rfl, hend⟩ := hat
  obtain ⟨hinteger, hvalue, hlast⟩ := Exponent.direct_spec hdirect
  have hraw := @mem_exponents before _ _ _ _ (PowerOperator.isOperator power.operator)
    (Gap.isSpace_text hgap) hinteger
    (hend hlast)
  have hbound := validateSource_exponents h hraw
  intro v hv
  obtain rfl := Option.some.inj (hvalue.symm.trans hv)
  rw [Complex.norm_intCast, ← Int.cast_abs, Int.abs_eq_natAbs, Int.cast_natCast]
  exact_mod_cast hbound

/-- **The guard holds for the parsed expression** exactly when the exponents that the pattern does not read are
within the limit. -/
theorem exponent_guard_iff {parser : ExponentParser} (hparser : parser.Lawful) {powers : List Power}
    (hparse : parser source = some powers) (h : validateSource policy source = .ok ()) :
    (∀ power ∈ powers, power.Within policy) ↔ ∀ power ∈ powers, ¬ power.Guarded → power.Within policy := by
  constructor
  · intro hall power hpower _
    exact hall power hpower
  · intro hall power hpower
    by_cases hguarded : power.Guarded
    · exact within_of_guarded h (hparser source powers hparse power hpower) hguarded
    · exact hall power hpower hguarded

end guarded

/-! ### A short source -/

/-- `^2` -/
def square : Power := ⟨.caret, [], .atom (.number (.integer ⟨2, []⟩))⟩

/-- `^(9)` -/
def bracketed : Power := ⟨.caret, [], .atom (.parenthesised [] (.atom (.number (.integer ⟨9, []⟩))) [])⟩

/-- `^(99)` -/
def inParentheses : Power :=
    ⟨.caret, [], .atom (.parenthesised [] (.atom (.number (.integer ⟨9, [(false, 9)]⟩))) [])⟩

/-- The literal exponents of `x^2+x^(9)` and of `x^(99)`. -/
def sampleParser : ExponentParser := fun source =>
  if source = "x^2+x^(9)".toList then some [square, bracketed]
  else if source = "x^(99)".toList then some [inParentheses]
  else none

theorem sampleParser_lawful : sampleParser.Lawful := by
  intro source powers h power hpower
  unfold sampleParser at h
  split at h
  · rename_i hsource
    obtain rfl := Option.some.inj h
    rcases List.mem_pair.mp hpower with rfl | rfl
    · exact ⟨['x'], "+x^(9)".toList, hsource, fun _ => rfl⟩
    · exact ⟨"x^2+x".toList, [], hsource, fun _ => rfl⟩
  · split at h
    · rename_i hsource
      obtain rfl := Option.some.inj h
      obtain rfl := List.mem_singleton.mp hpower
      exact ⟨['x'], [], hsource, fun _ => rfl⟩
    · cases h

theorem bracketed_within : bracketed.Within {} := by
  intro n hvalue
  simp [bracketed, Exponent.value, Atom.value, Number.value, DigitPart.value] at hvalue
  norm_num [← hvalue]

/-- In `x^2+x^(9)` the pattern reads the first exponent only. -/
theorem exponent_guard_sum : square.Within {} ∧ ¬ bracketed.Guarded := by
  have hall := (@exponent_guard_iff {} "x^2+x^(9)".toList sampleParser sampleParser_lawful [square, bracketed]
    (if_pos rfl) (by decide +kernel)).mpr fun power hpower hnot => by
      rcases List.mem_pair.mp hpower with rfl | rfl
      · exact absurd ⟨rfl, rfl⟩ hnot
      · exact bracketed_within
  exact ⟨hall square List.mem_cons_self, fun h => nomatch h.2⟩

/-- `x^(99)` is accepted, and its exponent is not within the limit. -/
theorem parenthesised_exponent_accepted :
    validateSource {} "x^(99)".toList = .ok () ∧ sampleParser "x^(99)".toList = some [inParentheses] ∧
      sampleParser.Lawful ∧ ¬ inParentheses.Within {} := by
  refine ⟨by decide +kernel, ?_, sampleParser_lawful, ?_⟩
  · rw [sampleParser, if_neg (by decide), if_pos rfl]
  intro h
  have hvalue : inParentheses.exponent.value = some 99 := by
    simp [inParentheses, Exponent.value, Atom.value, Number.value, DigitPart.value]
  have hnorm := h 99 hvalue
  norm_num at hnorm

end CyberControl.Formula
