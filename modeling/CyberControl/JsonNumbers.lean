import CyberControl.Json

/-! # Integers in JSON texts -/

namespace CyberControl.Json

theorem digitChar_ne_zero : ∀ n < 10, n ≠ 0 → n.digitChar ≠ '0' := by decide

theorem isDigit_of_mem {n : ℕ} {c : Char} (h : c ∈ Nat.toDigits 10 n) : c.isDigit = true :=
  Nat.isDigit_of_mem_toDigits (by decide) (by decide) h

theorem toDigits_head {n : ℕ} (hn : n ≠ 0) : ∃ d ds, Nat.toDigits 10 n = d :: ds ∧ d ≠ '0' := by
  induction n using Nat.strongRecOn with
  | ind n ih =>
    rw [Nat.toDigits_eq_if (by decide)]
    split_ifs with hlt
    · exact ⟨_, _, rfl, digitChar_ne_zero n hlt hn⟩
    · obtain ⟨d, ds, hdigits, hd⟩ := ih (n / 10) (by omega) (by omega)
      exact ⟨d, ds ++ [(n % 10).digitChar], by rw [hdigits]; rfl, hd⟩

theorem isNumberChar_of_isDigit {c : Char} (h : c.isDigit = true) : isNumberChar c = true := by
  obtain ⟨hzero, hnine⟩ : 48 ≤ c.toNat ∧ c.toNat ≤ 57 := Char.isDigit_iff_toNat.mp h
  have hall : ∀ n < 58, 48 ≤ n → isNumberChar (Char.ofNat n) = true := by decide
  rw [← Char.ofNat_toNat c]
  exact hall c.toNat (by omega) (by omega)

theorem isNumber_toDigits (n : ℕ) :
    isNumber (Nat.toDigits 10 n) = true ∧ isNumber ('-' :: Nat.toDigits 10 n) = true := by
  by_cases hn : n = 0
  · rw [hn]
    decide
  · obtain ⟨d, ds, hdigits, hd⟩ := toDigits_head hn
    have hall : ∀ c ∈ d :: ds, c.isDigit = true := fun c hc => isDigit_of_mem (hdigits ▸ hc)
    have hrest : ds.dropWhile Char.isDigit = [] :=
      List.dropWhile_eq_nil_iff.mpr fun c hc => hall c (by simp [hc])
    have hdigit := hall d (by simp)
    have hminus : d ≠ '-' := by
      rintro rfl
      exact absurd hdigit (by decide)
    rw [hdigits]
    constructor
    · simp [isNumber, hrest, hdigit, hminus, isFraction, isExponent]
    · simp [isNumber, hrest, hdigit, isFraction, isExponent]

/-- The text of a natural number, `repr(n)`. -/
def natText (n : ℕ) : NumberText where
  text := Nat.toDigits 10 n
  isNumberChar_text _ hc := isNumberChar_of_isDigit (isDigit_of_mem hc)
  isNumber_text := (isNumber_toDigits n).1

/-- The text of an integer, `repr(n)`. -/
def intText : ℤ → NumberText
  | .ofNat n => natText n
  | .negSucc n =>
    { text := '-' :: Nat.toDigits 10 (n + 1)
      isNumberChar_text := by
        intro c hc
        rcases List.mem_cons.mp hc with rfl | hc
        · decide
        · exact isNumberChar_of_isDigit (isDigit_of_mem hc)
      isNumber_text := (isNumber_toDigits (n + 1)).2 }

/-- The integer before the fraction and the exponent of a number text. -/
def integerPart (n : NumberText) : ℤ :=
  match n.text with
  | '-' :: cs => - Nat.ofDigitChars 10 (cs.takeWhile Char.isDigit) 0
  | cs => Nat.ofDigitChars 10 (cs.takeWhile Char.isDigit) 0

/-- **An integer is the integer part of its text.** -/
theorem integerPart_intText (k : ℤ) : integerPart (intText k) = k := by
  have hdigits : ∀ n, (Nat.toDigits 10 n).takeWhile Char.isDigit = Nat.toDigits 10 n :=
    fun n => List.takeWhile_eq_self_iff.mpr fun c hc => isDigit_of_mem hc
  cases k with
  | ofNat n =>
    simp only [integerPart, intText, natText]
    split
    · rename_i hminus
      have hdigit : '-'.isDigit = true := isDigit_of_mem (n := n) (by simp [hminus])
      exact absurd hdigit (by decide)
    · rw [hdigits, Nat.ofDigitChars_ten_toDigits]
      rfl
  | negSucc n =>
    simp only [integerPart, intText, hdigits, Nat.ofDigitChars_ten_toDigits]
    omega

end CyberControl.Json
