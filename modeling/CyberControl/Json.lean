import Mathlib.Data.List.TakeWhile

/-! # JSON texts

The compact JSON text of a value, as `json.dumps(value, ensure_ascii=False, separators=(",", ":"))`
writes it, and a decoder of JSON texts.  A number is kept as its text; `nonFinite`, a float that is
not a number or infinite, has no JSON text. -/

namespace CyberControl

/-- The characters of number texts. -/
def isNumberChar (c : Char) : Bool := ['+', '-', '.', 'e', 'E', '0', '1', '2', '3', '4', '5', '6', '7', '8', '9'].contains c

def isExponent : List Char → Bool
  | [] => true
  | e :: cs =>
    let digits := match cs with
      | '+' :: cs => cs
      | '-' :: cs => cs
      | cs => cs
    (e = 'e' || e = 'E') && !digits.isEmpty && digits.all Char.isDigit

/-- A fraction and an exponent, each possibly missing. -/
def isFraction : List Char → Bool
  | '.' :: d :: cs => d.isDigit && isExponent (cs.dropWhile Char.isDigit)
  | cs => isExponent cs

/-- The number production of the JSON grammar. -/
def isNumber (cs : List Char) : Bool :=
  let cs := match cs with
    | '-' :: cs => cs
    | cs => cs
  match cs with
  | [] => false
  | '0' :: cs => isFraction cs
  | d :: cs => d.isDigit && isFraction (cs.dropWhile Char.isDigit)

structure NumberText where
  text : List Char
  isNumberChar_text : ∀ c ∈ text, isNumberChar c = true
  isNumber_text : isNumber text = true

inductive Json where
  | null
  | bool (b : Bool)
  | number (n : NumberText)
  | nonFinite
  | string (s : String)
  | array (elements : List Json)
  | object (members : List (String × Json))

namespace Json

/-! ### Encoding -/

def hexDigit (n : ℕ) : Char :=
  ['0', '1', '2', '3', '4', '5', '6', '7', '8', '9', 'a', 'b', 'c', 'd', 'e', 'f'].getD n '0'

/-- One character inside a string: quotes, backslashes and control characters are escaped. -/
def escapeChar (c : Char) : List Char :=
  if c = '"' then ['\\', '"']
  else if c = '\\' then ['\\', '\\']
  else if c = '\n' then ['\\', 'n']
  else if c = '\r' then ['\\', 'r']
  else if c = '\t' then ['\\', 't']
  else if c.toNat = 8 then ['\\', 'b']
  else if c.toNat = 12 then ['\\', 'f']
  else if c.toNat < 32 then ['\\', 'u', '0', '0', hexDigit (c.toNat / 16), hexDigit (c.toNat % 16)]
  else [c]

def encodeString (s : String) : List Char := '"' :: (s.toList.flatMap escapeChar ++ ['"'])

mutual

/-- The compact text of a value. -/
def encode : Json → List Char
  | .null => ['n', 'u', 'l', 'l']
  | .bool true => ['t', 'r', 'u', 'e']
  | .bool false => ['f', 'a', 'l', 's', 'e']
  | .number n => n.text
  | .nonFinite => ['N', 'a', 'N']
  | .string s => encodeString s
  | .array elements => '[' :: (encodeElements elements ++ [']'])
  | .object members => '{' :: (encodeMembers members ++ ['}'])

def encodeElements : List Json → List Char
  | [] => []
  | [v] => v.encode
  | v :: w :: elements => v.encode ++ ',' :: encodeElements (w :: elements)

def encodeMembers : List (String × Json) → List Char
  | [] => []
  | [(k, v)] => encodeString k ++ ':' :: v.encode
  | (k, v) :: m :: members => encodeString k ++ ':' :: v.encode ++ ',' :: encodeMembers (m :: members)

end

mutual

/-- No float of the value is infinite or not a number. -/
def finite : Json → Bool
  | .nonFinite => false
  | .array elements => finiteElements elements
  | .object members => finiteMembers members
  | _ => true

def finiteElements : List Json → Bool
  | [] => true
  | v :: elements => v.finite && finiteElements elements

def finiteMembers : List (String × Json) → Bool
  | [] => true
  | (_, v) :: members => v.finite && finiteMembers members

end

mutual

/-- The strings of a value, keys included. -/
def strings : Json → List String
  | .string s => [s]
  | .array elements => stringsElements elements
  | .object members => stringsMembers members
  | _ => []

def stringsElements : List Json → List String
  | [] => []
  | v :: elements => v.strings ++ stringsElements elements

def stringsMembers : List (String × Json) → List String
  | [] => []
  | (k, v) :: members => k :: v.strings ++ stringsMembers members

end

/-! ### Decoding -/

def isSpace (c : Char) : Bool := [' ', '\t', '\n', '\r'].contains c

def skipSpace (cs : List Char) : List Char := cs.dropWhile isSpace

def hexValue (c : Char) : Option ℕ :=
  if '0' ≤ c ∧ c ≤ '9' then some (c.toNat - '0'.toNat)
  else if 'a' ≤ c ∧ c ≤ 'f' then some (c.toNat - 'a'.toNat + 10)
  else if 'A' ≤ c ∧ c ≤ 'F' then some (c.toNat - 'A'.toNat + 10)
  else none

def hexValue4 (a b c d : Char) : Option ℕ := do
  return ((← hexValue a) * 16 + (← hexValue b)) * 256 + ((← hexValue c) * 16 + (← hexValue d))

/-- The code unit of an escape other than `\u`. -/
def unescape (c : Char) : Option ℕ :=
  if c = '"' ∨ c = '\\' ∨ c = '/' then some c.toNat
  else if c = 'n' then some 10
  else if c = 'r' then some 13
  else if c = 't' then some 9
  else if c = 'b' then some 8
  else if c = 'f' then some 12
  else none

def consUnit (u : Option ℕ) (r : Option (List ℕ × List Char)) : Option (List ℕ × List Char) := do
  let u ← u
  let (us, rest) ← r
  return (u :: us, rest)

/-- The code units of a string whose opening quote has been read, and what follows its closing
quote. -/
def parseUnits : List Char → Option (List ℕ × List Char)
  | '"' :: rest => some ([], rest)
  | '\\' :: 'u' :: a :: b :: c :: d :: rest => consUnit (hexValue4 a b c d) (parseUnits rest)
  | '\\' :: e :: rest => consUnit (unescape e) (parseUnits rest)
  | c :: rest => if c.toNat < 32 then none else consUnit (some c.toNat) (parseUnits rest)
  | [] => none

/-- The characters of a sequence of code units: surrogates are joined in pairs. -/
def joinUnits : List ℕ → Option (List Char)
  | [] => some []
  | u :: us =>
    if u.isValidChar then (joinUnits us).map (Char.ofNat u :: ·)
    else
      match us with
      | v :: us =>
        if (0xd800 ≤ u ∧ u < 0xdc00) ∧ (0xdc00 ≤ v ∧ v < 0xe000) then
          (joinUnits us).map (Char.ofNat ((u - 0xd800) * 0x400 + (v - 0xdc00) + 0x10000) :: ·)
        else none
      | [] => none

def parseString (cs : List Char) : Option (String × List Char) := do
  let (units, rest) ← parseUnits cs
  let chars ← joinUnits units
  return (String.ofList chars, rest)

def parseLiteral (text : List Char) (v : Json) (cs : List Char) : Option (Json × List Char) :=
  if text.isPrefixOf cs then some (v, cs.drop text.length) else none

def parseNumber (cs : List Char) : Option (Json × List Char) :=
  if h : isNumber (cs.takeWhile isNumberChar) = true then
    some (.number ⟨_, fun _ hc => List.mem_takeWhile_imp hc, h⟩, cs.dropWhile isNumberChar)
  else none

mutual

/-- A value at the head of a text; the fuel bounds the nesting. -/
def parseValue : ℕ → List Char → Option (Json × List Char)
  | 0, _ => none
  | fuel + 1, cs =>
    match skipSpace cs with
    | [] => none
    | c :: rest =>
      if c = 'n' then parseLiteral ['u', 'l', 'l'] .null rest
      else if c = 't' then parseLiteral ['r', 'u', 'e'] (.bool true) rest
      else if c = 'f' then parseLiteral ['a', 'l', 's', 'e'] (.bool false) rest
      else if c = '"' then (parseString rest).map fun (s, rest) => (.string s, rest)
      else if c = '[' then
        match skipSpace rest with
        | ']' :: rest => some (.array [], rest)
        | _ => (parseElements fuel rest).map fun (elements, rest) => (.array elements, rest)
      else if c = '{' then
        match skipSpace rest with
        | '}' :: rest => some (.object [], rest)
        | _ => (parseMembers fuel rest).map fun (members, rest) => (.object members, rest)
      else parseNumber (c :: rest)

/-- Elements up to the closing bracket. -/
def parseElements : ℕ → List Char → Option (List Json × List Char)
  | 0, _ => none
  | fuel + 1, cs => do
    let (v, cs) ← parseValue fuel cs
    match skipSpace cs with
    | ',' :: cs =>
      let (elements, cs) ← parseElements fuel cs
      return (v :: elements, cs)
    | ']' :: cs => return ([v], cs)
    | _ => none

/-- Members up to the closing brace. -/
def parseMembers : ℕ → List Char → Option (List (String × Json) × List Char)
  | 0, _ => none
  | fuel + 1, cs =>
    match skipSpace cs with
    | '"' :: cs => do
      let (k, cs) ← parseString cs
      match skipSpace cs with
      | ':' :: cs =>
        let (v, cs) ← parseValue fuel cs
        match skipSpace cs with
        | ',' :: cs =>
          let (members, cs) ← parseMembers fuel cs
          return ((k, v) :: members, cs)
        | '}' :: cs => return ([(k, v)], cs)
        | _ => none
      | _ => none
    | _ => none

end

/-- The value of a text, which may have white space around its tokens. -/
def decode (cs : List Char) : Option Json :=
  match parseValue (cs.length + 1) cs with
  | some (v, rest) => if skipSpace rest = [] then some v else none
  | none => none

/-! ### Strings and numbers come back -/

variable {c : Char} {cs : List Char}

theorem skipSpace_cons (h : isSpace c = false) :
    skipSpace (c :: cs) = c :: cs := by
  rw [skipSpace, List.dropWhile_cons, h]
  rfl

theorem hexValue_hexDigit : ∀ n < 16, hexValue (hexDigit n) = some n := by decide

theorem parseUnits_escapeChar (c : Char) (rest : List Char) :
    parseUnits (escapeChar c ++ rest) = consUnit (some c.toNat) (parseUnits rest) := by
  unfold escapeChar
  by_cases hshort : c ∈ ['"', '\\', '\n', '\r', '\t']
  · simp only [List.mem_cons, List.not_mem_nil, or_false] at hshort
    rcases hshort with rfl | rfl | rfl | rfl | rfl <;> simp [parseUnits, unescape]
  · simp only [List.mem_cons, List.not_mem_nil, or_false, not_or] at hshort
    obtain ⟨hquote, hback, hn, hr, ht⟩ := hshort
    rw [if_neg hquote, if_neg hback, if_neg hn, if_neg hr, if_neg ht]
    by_cases h8 : c.toNat = 8
    · simp [h8, parseUnits, unescape]
    · by_cases h12 : c.toNat = 12
      · simp [h12, parseUnits, unescape]
      · rw [if_neg h8, if_neg h12]
        by_cases hcontrol : c.toNat < 32
        · have hhigh := hexValue_hexDigit (c.toNat / 16) (by omega)
          have hlow := hexValue_hexDigit (c.toNat % 16) (by omega)
          have hzero : hexValue '0' = some 0 := by decide
          have hvalue : hexValue4 '0' '0' (hexDigit (c.toNat / 16)) (hexDigit (c.toNat % 16)) =
              some c.toNat := by
            simp only [hexValue4, hzero, hhigh, hlow, Option.bind_eq_bind, Option.bind_some]
            exact congrArg some (by omega)
          rw [if_pos hcontrol]
          simp only [List.cons_append, List.nil_append, parseUnits, hvalue]
        · rw [if_neg hcontrol, List.singleton_append, parseUnits.eq_def]
          split
          · rename_i h
            exact absurd (List.cons.inj h).1 hquote
          · rename_i h
            exact absurd (List.cons.inj h).1 hback
          · rename_i h
            exact absurd (List.cons.inj h).1 hback
          · rename_i h
            obtain ⟨rfl, rfl⟩ := List.cons.inj h
            rw [if_neg hcontrol]
          · rename_i h
            cases h

theorem parseUnits_flatMap (cs rest : List Char) :
    parseUnits (cs.flatMap escapeChar ++ '"' :: rest) = some (cs.map Char.toNat, rest) := by
  induction cs with
  | nil => simp [parseUnits]
  | cons c cs ih =>
    rw [List.flatMap_cons, List.append_assoc, parseUnits_escapeChar, ih]
    rfl

theorem joinUnits_toNat (cs : List Char) : joinUnits (cs.map Char.toNat) = some cs := by
  induction cs with
  | nil => rfl
  | cons c cs ih =>
    have hvalid : c.toNat.isValidChar := c.valid
    rw [List.map_cons, joinUnits.eq_def]
    simp only [if_pos hvalid, ih, Char.ofNat_toNat, Option.map_some]

theorem parseString_encode (s : String) (rest : List Char) :
    parseString (s.toList.flatMap escapeChar ++ '"' :: rest) = some (s, rest) := by
  simp only [parseString, parseUnits_flatMap, joinUnits_toNat, Option.bind_eq_bind,
    Option.bind_some, String.ofList_toList, Option.pure_def]

/-- What follows a value in a text does not begin with a character of a number. -/
def NumberEnd (rest : List Char) : Prop := ∀ c ∈ rest.head?, isNumberChar c = false

theorem parseNumber_text (n : NumberText) {rest : List Char} (hrest : NumberEnd rest) :
    parseNumber (n.text ++ rest) = some (.number n, rest) := by
  have htake : rest.takeWhile isNumberChar = [] := by
    cases rest with
    | nil => rfl
    | cons c rest => simp [hrest c rfl]
  have hdrop : rest.dropWhile isNumberChar = rest := by
    cases rest with
    | nil => rfl
    | cons c rest => simp [hrest c rfl]
  have htext : (n.text ++ rest).takeWhile isNumberChar = n.text := by
    rw [List.takeWhile_append_of_pos n.isNumberChar_text, htake, List.append_nil]
  have hafter : (n.text ++ rest).dropWhile isNumberChar = rest := by
    rw [List.dropWhile_append_of_pos n.isNumberChar_text, hdrop]
  have hvalid : isNumber ((n.text ++ rest).takeWhile isNumberChar) = true := by
    rw [htext]
    exact n.isNumber_text
  rw [parseNumber, dif_pos hvalid, hafter]
  congr 3
  cases n
  simp only [NumberText.mk.injEq]
  exact htext

/-! ### Values come back -/

theorem isAlphanum_range {c : Char} (h : c.isAlphanum = true) : 48 ≤ c.toNat ∧ c.toNat ≤ 122 := by
  have h : ((decide (c.val ≥ 'A'.val ∧ c.val ≤ 'Z'.val) || (c.val ≥ 'a'.val && c.val ≤ 'z'.val)) ||
      (c.val ≥ '0'.val && c.val ≤ '9'.val)) = true := h
  simp only [Bool.or_eq_true, Bool.and_eq_true, decide_eq_true_eq, UInt32.le_iff_toNat_le, ge_iff_le] at h
  have hval : c.toNat = c.val.toNat := rfl
  have hz : 'z'.val.toNat = 122 := rfl
  have hZ : 'Z'.val.toNat = 90 := rfl
  have hnine : '9'.val.toNat = 57 := rfl
  have ha : 'a'.val.toNat = 97 := rfl
  have hA : 'A'.val.toNat = 65 := rfl
  have hzero : '0'.val.toNat = 48 := rfl
  omega

theorem isNumberChar_cases (h : isNumberChar c = true) :
    isSpace c = false ∧ c ≠ ']' ∧ c ≠ '}' ∧ c ∉ ['n', 't', 'f', '"', '[', '{'] := by
  have hall : ['+', '-', '.', 'e', 'E', '0', '1', '2', '3', '4', '5', '6', '7', '8', '9'].all (fun c =>
      isSpace c = false ∧ c ≠ ']' ∧ c ≠ '}' ∧ c ∉ ['n', 't', 'f', '"', '[', '{']) = true := by decide
  exact of_decide_eq_true (List.all_eq_true.mp hall c (List.contains_iff_mem.mp h))

theorem exists_cons_text (n : NumberText) :
    ∃ c t, n.text = c :: t ∧ isNumberChar c = true := by
  have hne : n.text ≠ [] := by
    intro h
    have := n.isNumber_text
    rw [h] at this
    cases this
  obtain ⟨c, t, ht⟩ := List.exists_cons_of_ne_nil hne
  exact ⟨c, t, ht, n.isNumberChar_text c (by simp [ht])⟩

theorem encode_head (v : Json) : ∃ c t, v.encode = c :: t ∧ isSpace c = false ∧ c ≠ ']' := by
  cases v with
  | bool b => cases b <;> exact ⟨_, _, rfl, by decide, by decide⟩
  | number n =>
    obtain ⟨c, t, ht, hc⟩ := exists_cons_text n
    have hcases := isNumberChar_cases hc
    exact ⟨c, t, by rw [encode, ht], hcases.1, hcases.2.1⟩
  | _ => exact ⟨_, _, rfl, by decide, by decide⟩

theorem parseLiteral_append (text : List Char) (v : Json) (rest : List Char) :
    parseLiteral text v (text ++ rest) = some (v, rest) := by
  simp [parseLiteral]

theorem numberEnd_cons {rest : List Char} (h : isNumberChar c = false) :
    NumberEnd (c :: rest) := by
  intro d hd
  cases hd
  exact h

variable {fuel : ℕ}

theorem parseValue_bracket (hspace : isSpace c = false)
    (hclose : c ≠ ']') :
    parseValue (fuel + 1) ('[' :: c :: cs) =
      (parseElements fuel (c :: cs)).map fun (elements, rest) => (.array elements, rest) := by
  have hbracket : skipSpace ('[' :: c :: cs) = '[' :: c :: cs := skipSpace_cons (by decide)
  rw [parseValue, hbracket]
  simp only [Char.reduceEq, if_false, if_true, skipSpace_cons hspace]
  split
  · rename_i h
    exact absurd (List.cons.inj h).1 hclose
  · rfl

theorem parseValue_brace :
    parseValue (fuel + 1) ('{' :: '"' :: cs) =
      (parseMembers fuel ('"' :: cs)).map fun (members, rest) => (.object members, rest) := by
  have hbrace : skipSpace ('{' :: '"' :: cs) = '{' :: '"' :: cs := skipSpace_cons (by decide)
  have hquote : skipSpace ('"' :: cs) = '"' :: cs := skipSpace_cons (by decide)
  rw [parseValue, hbrace]
  simp only [Char.reduceEq, if_false, if_true, hquote]
  split
  · rename_i h
    cases (List.cons.inj h).1
  · rfl

/-- With so much fuel the parser reads a value from its text. -/
def ReadsValues (fuel : ℕ) : Prop := ∀ (v : Json) (rest : List Char), v.finite = true →
  v.encode.length ≤ fuel → NumberEnd rest → parseValue fuel (v.encode ++ rest) = some (v, rest)

def ReadsElements (fuel : ℕ) : Prop := ∀ (v : Json) (elements : List Json) (rest : List Char),
  finiteElements (v :: elements) = true → (encodeElements (v :: elements)).length < fuel →
  parseElements fuel (encodeElements (v :: elements) ++ ']' :: rest) = some (v :: elements, rest)

def ReadsMembers (fuel : ℕ) : Prop :=
  ∀ (m : String × Json) (members : List (String × Json)) (rest : List Char),
  finiteMembers (m :: members) = true → (encodeMembers (m :: members)).length < fuel →
  parseMembers fuel (encodeMembers (m :: members) ++ '}' :: rest) = some (m :: members, rest)

theorem encodeElements_head (v : Json) (elements : List Json) (rest : List Char) :
    ∃ c t, encodeElements (v :: elements) ++ rest = c :: t ∧ isSpace c = false ∧ c ≠ ']' := by
  obtain ⟨c, t, ht, hspace, hclose⟩ := v.encode_head
  cases elements with
  | nil => exact ⟨c, _, by rw [encodeElements, ht, List.cons_append], hspace, hclose⟩
  | cons w elements =>
    exact ⟨c, _, by rw [encodeElements, ht, List.cons_append, List.cons_append], hspace, hclose⟩

theorem encodeMembers_head (m : String × Json) (members : List (String × Json)) (rest : List Char) :
    ∃ t, encodeMembers (m :: members) ++ rest = '"' :: t := by
  cases members with
  | nil => exact ⟨_, by rw [encodeMembers, encodeString, List.cons_append, List.cons_append]⟩
  | cons x members =>
    refine ⟨(encodeMembers (m :: x :: members) ++ rest).tail, ?_⟩
    rw [encodeMembers, encodeString]
    simp only [List.cons_append, List.tail_cons]

theorem ReadsValues.succ (helements : ReadsElements fuel) (hmembers : ReadsMembers fuel) :
    ReadsValues (fuel + 1) := by
  intro v rest hv hfuel hrest
  have hskip : skipSpace (v.encode ++ rest) = v.encode ++ rest := by
    obtain ⟨c, t, htext, hspace, -⟩ := v.encode_head
    rw [htext, List.cons_append]
    exact skipSpace_cons hspace
  cases v with
  | null =>
    rw [parseValue, hskip]
    exact parseLiteral_append ['u', 'l', 'l'] .null rest
  | bool b =>
    rw [parseValue, hskip]
    cases b with
    | false => exact parseLiteral_append ['a', 'l', 's', 'e'] (.bool false) rest
    | true => exact parseLiteral_append ['r', 'u', 'e'] (.bool true) rest
  | number n =>
    obtain ⟨c, t, ht, hnumber⟩ := exists_cons_text n
    have hparse := parseNumber_text n hrest
    have hcases := (isNumberChar_cases hnumber).2.2.2
    simp only [List.mem_cons, List.not_mem_nil, or_false, not_or] at hcases
    obtain ⟨h₁, h₂, h₃, h₄, h₅, h₆⟩ := hcases
    rw [parseValue, hskip, encode]
    rw [ht] at hparse ⊢
    simp only [List.cons_append, h₁, h₂, h₃, h₄, h₅, h₆, if_false]
    exact hparse
  | nonFinite => cases hv
  | string s =>
    have hparse := parseString_encode s rest
    rw [parseValue, hskip, encode, encodeString]
    simp only [List.cons_append, List.append_assoc, List.nil_append, hparse]
    simp
  | array elements =>
    rw [encode] at hfuel hskip ⊢
    simp only [List.cons_append, List.append_assoc, List.nil_append] at hskip ⊢
    cases elements with
    | nil =>
      have hempty : skipSpace (']' :: rest) = ']' :: rest := skipSpace_cons (by decide)
      simp only [encodeElements, List.nil_append] at hskip ⊢
      rw [parseValue, hskip]
      simp [hempty]
    | cons w elements =>
      have hparse := helements w elements rest hv
        (by simp only [List.length_cons, List.length_append] at hfuel ⊢; omega)
      obtain ⟨c, t, ht, hspace, hclose⟩ := encodeElements_head w elements (']' :: rest)
      rw [ht] at hparse ⊢
      rw [parseValue_bracket hspace hclose, hparse]
      rfl
  | object members =>
    rw [encode] at hfuel hskip ⊢
    simp only [List.cons_append, List.append_assoc, List.nil_append] at hskip ⊢
    cases members with
    | nil =>
      have hempty : skipSpace ('}' :: rest) = '}' :: rest := skipSpace_cons (by decide)
      simp only [encodeMembers, List.nil_append] at hskip ⊢
      rw [parseValue, hskip]
      simp [hempty]
    | cons m members =>
      have hparse := hmembers m members rest hv
        (by simp only [List.length_cons, List.length_append] at hfuel ⊢; omega)
      obtain ⟨t, ht⟩ := encodeMembers_head m members ('}' :: rest)
      rw [ht] at hparse ⊢
      rw [parseValue_brace, hparse]
      rfl

theorem ReadsElements.succ (hvalues : ReadsValues fuel) (helements : ReadsElements fuel) :
    ReadsElements (fuel + 1) := by
  intro v elements rest hv hfuel
  rw [finiteElements, Bool.and_eq_true] at hv
  cases elements with
  | nil =>
    rw [encodeElements] at hfuel ⊢
    have hvalue := hvalues v (']' :: rest) hv.1 (by omega) (numberEnd_cons (by decide))
    have hclose : skipSpace (']' :: rest) = ']' :: rest := skipSpace_cons (by decide)
    rw [parseElements, hvalue]
    simp [hclose]
  | cons w elements =>
    rw [encodeElements] at hfuel ⊢
    simp only [List.length_append, List.length_cons] at hfuel
    rw [List.append_assoc, List.cons_append]
    have hvalue := hvalues v (',' :: (encodeElements (w :: elements) ++ ']' :: rest)) hv.1
      (by omega) (numberEnd_cons (by decide))
    have hrest := helements w elements rest hv.2 (by omega)
    have hcomma : skipSpace (',' :: (encodeElements (w :: elements) ++ ']' :: rest)) =
        ',' :: (encodeElements (w :: elements) ++ ']' :: rest) := skipSpace_cons (by decide)
    rw [parseElements, hvalue]
    simp [hcomma, hrest]

theorem ReadsMembers.succ (hvalues : ReadsValues fuel) (hmembers : ReadsMembers fuel) :
    ReadsMembers (fuel + 1) := by
  intro ⟨k, v⟩ members rest hv hfuel
  rw [finiteMembers, Bool.and_eq_true] at hv
  have hquote : ∀ cs, skipSpace ('"' :: cs) = '"' :: cs := fun cs => skipSpace_cons (by decide)
  have hcolon : ∀ cs, skipSpace (':' :: cs) = ':' :: cs := fun cs => skipSpace_cons (by decide)
  cases members with
  | nil =>
    rw [encodeMembers] at hfuel ⊢
    simp only [List.length_append, List.length_cons] at hfuel
    have hvalue := hvalues v ('}' :: rest) hv.1 (by omega) (numberEnd_cons (by decide))
    have hkey := parseString_encode k (':' :: (v.encode ++ '}' :: rest))
    have hclose : skipSpace ('}' :: rest) = '}' :: rest := skipSpace_cons (by decide)
    simp only [encodeString, List.cons_append, List.append_assoc, List.nil_append]
    rw [parseMembers, hquote]
    simp only [hkey, Option.bind_eq_bind, Option.bind_some, hcolon, hvalue, hclose, Option.pure_def]
  | cons m members =>
    rw [encodeMembers] at hfuel ⊢
    simp only [List.length_append, List.length_cons] at hfuel
    let tail := encodeMembers (m :: members) ++ '}' :: rest
    have hvalue := hvalues v (',' :: tail) hv.1 (by omega) (numberEnd_cons (by decide))
    have hkey := parseString_encode k (':' :: (v.encode ++ ',' :: tail))
    have hrest := hmembers m members rest hv.2 (by omega)
    have hcomma : skipSpace (',' :: tail) = ',' :: tail := skipSpace_cons (by decide)
    simp only [encodeString, List.cons_append, List.append_assoc, List.nil_append]
    rw [parseMembers, hquote]
    simp only [tail] at hkey hvalue hcomma
    simp only [hkey, Option.bind_eq_bind, Option.bind_some, hcolon, hvalue, hcomma, hrest,
      Option.pure_def]

theorem reads (fuel : ℕ) : ReadsValues fuel ∧ ReadsElements fuel ∧ ReadsMembers fuel := by
  induction fuel with
  | zero =>
    refine ⟨fun v rest _ hfuel _ => ?_, fun v elements rest _ hfuel => ?_,
      fun m members rest _ hfuel => ?_⟩
    · obtain ⟨c, t, htext, -, -⟩ := v.encode_head
      rw [htext, List.length_cons] at hfuel
      omega
    · omega
    · omega
  | succ fuel ih =>
    obtain ⟨hvalues, helements, hmembers⟩ := ih
    exact ⟨.succ helements hmembers, .succ hvalues helements, .succ hvalues hmembers⟩

/-- **Decoding the text of a finite value returns the value.** -/
theorem decode_encode {v : Json} (hv : v.finite = true) : decode v.encode = some v := by
  have hparse := (reads (v.encode.length + 1)).1 v [] hv (by omega) (by simp [NumberEnd])
  rw [List.append_nil] at hparse
  simp [decode, hparse, skipSpace]

/-! ### The characters of a text -/

/-- A printable ASCII character. -/
def Printable (c : Char) : Prop := 32 ≤ c.toNat ∧ c.toNat < 127

instance (c : Char) : Decidable (Printable c) := inferInstanceAs (Decidable (_ ∧ _))

def PrintableText (text : List Char) : Prop := ∀ c ∈ text, Printable c

instance (text : List Char) : Decidable (PrintableText text) := List.decidableBAll Printable text

theorem printable_hexDigit : ∀ n < 16, Printable (hexDigit n) := by decide

theorem mem_escapeChar {c d : Char} (h : c ∈ escapeChar d) :
    Printable c ∨ (127 ≤ c.toNat ∧ c = d) := by
  have hshort : ∀ l, PrintableText l → c ∈ l → Printable c ∨ (127 ≤ c.toNat ∧ c = d) :=
    fun l hl hc => .inl (hl c hc)
  unfold escapeChar at h
  split_ifs at h with h₁ h₂ h₃ h₄ h₅ h₆ h₇ hcontrol
  · exact hshort _ (by decide) h
  · exact hshort _ (by decide) h
  · exact hshort _ (by decide) h
  · exact hshort _ (by decide) h
  · exact hshort _ (by decide) h
  · exact hshort _ (by decide) h
  · exact hshort _ (by decide) h
  · refine hshort _ ?_ h
    simp only [PrintableText, List.forall_mem_cons, List.not_mem_nil, false_imp_iff, implies_true, and_true]
    exact ⟨by decide, by decide, by decide, by decide, printable_hexDigit _ (by omega),
      printable_hexDigit _ (by omega)⟩
  · obtain rfl := List.mem_singleton.mp h
    by_cases hascii : c.toNat < 127
    · exact .inl ⟨by omega, hascii⟩
    · exact .inr ⟨by omega, rfl⟩

theorem escapeChar_of_le (h : 127 ≤ c.toNat) : escapeChar c = [c] := by
  have hne : ∀ d : Char, d.toNat < 127 → c ≠ d := by
    rintro d hd rfl
    omega
  rw [escapeChar, if_neg (hne _ (by decide)), if_neg (hne _ (by decide)), if_neg (hne _ (by decide)),
    if_neg (hne _ (by decide)), if_neg (hne _ (by decide)), if_neg (by omega), if_neg (by omega),
    if_neg (by omega)]

/-- Besides printable characters, a text has exactly the characters of some strings that are not
ASCII control characters or printable. -/
structure Carries (text : List Char) (strings : List String) : Prop where
  covered : ∀ c ∈ text, Printable c ∨ (127 ≤ c.toNat ∧ ∃ s ∈ strings, c ∈ s.toList)
  carried : ∀ s ∈ strings, ∀ c ∈ s.toList, 127 ≤ c.toNat → c ∈ text

variable {text : List Char}

theorem Carries.of_printable (h : PrintableText text) : Carries text [] where
  covered c hc := .inl (h c hc)
  carried := by simp

theorem Carries.append {text text' : List Char} {l l' : List String} (h : Carries text l)
    (h' : Carries text' l') : Carries (text ++ text') (l ++ l') where
  covered c hc := by
    rcases List.mem_append.mp hc with hc | hc
    · refine (h.covered c hc).imp_right fun ⟨hle, s, hs, hmem⟩ => ?_
      exact ⟨hle, s, List.mem_append_left _ hs, hmem⟩
    · refine (h'.covered c hc).imp_right fun ⟨hle, s, hs, hmem⟩ => ?_
      exact ⟨hle, s, List.mem_append_right _ hs, hmem⟩
  carried s hs c hc hle := by
    rcases List.mem_append.mp hs with hs | hs
    · exact List.mem_append_left _ (h.carried s hs c hc hle)
    · exact List.mem_append_right _ (h'.carried s hs c hc hle)

theorem Carries.cons {l : List String} (hc : Printable c)
    (h : Carries text l) : Carries (c :: text) l :=
  (@Carries.of_printable [c] (by simpa [PrintableText] using hc)).append h

theorem Carries.snoc {l : List String} (h : Carries text l)
    (hc : Printable c) : Carries (text ++ [c]) l := by
  have := h.append (@Carries.of_printable [c] (by simpa [PrintableText] using hc))
  rwa [List.append_nil] at this

theorem carries_encodeString (s : String) : Carries (encodeString s) [s] := by
  refine .cons (by decide) (.snoc ⟨fun c hc => ?_, fun t ht c hc hle => ?_⟩ (by decide))
  · obtain ⟨d, hd, hc⟩ := List.mem_flatMap.mp hc
    refine (mem_escapeChar hc).imp_right fun ⟨hle, hcd⟩ => ?_
    exact ⟨hle, s, by simp, hcd ▸ hd⟩
  · obtain rfl := List.mem_singleton.mp ht
    exact List.mem_flatMap.mpr ⟨c, hc, by rw [escapeChar_of_le hle, List.mem_singleton]⟩

theorem isNumberChar_printable (h : isNumberChar c = true) : Printable c := by
  have hall : PrintableText
      ['+', '-', '.', 'e', 'E', '0', '1', '2', '3', '4', '5', '6', '7', '8', '9'] := by decide
  exact hall c (List.contains_iff_mem.mp h)

mutual

theorem carries_encode : ∀ v : Json, Carries v.encode v.strings
  | .null => .of_printable (by rw [encode]; decide)
  | .bool true => .of_printable (by rw [encode]; decide)
  | .bool false => .of_printable (by rw [encode]; decide)
  | .number n => .of_printable fun c hc => isNumberChar_printable (n.isNumberChar_text c hc)
  | .nonFinite => .of_printable (by rw [encode]; decide)
  | .string s => carries_encodeString s
  | .array elements => .cons (by decide) (.snoc (carries_encodeElements elements) (by decide))
  | .object members => .cons (by decide) (.snoc (carries_encodeMembers members) (by decide))

theorem carries_encodeElements :
    ∀ elements : List Json, Carries (encodeElements elements) (stringsElements elements)
  | [] => .of_printable (by rw [encodeElements]; decide)
  | [v] => by
    rw [stringsElements, stringsElements, List.append_nil]
    exact carries_encode v
  | v :: w :: elements =>
    (carries_encode v).append (.cons (by decide) (carries_encodeElements (w :: elements)))

theorem carries_encodeMembers :
    ∀ members : List (String × Json), Carries (encodeMembers members) (stringsMembers members)
  | [] => .of_printable (by rw [encodeMembers]; decide)
  | [(k, v)] => by
    rw [stringsMembers, stringsMembers, List.append_nil]
    exact (carries_encodeString k).append (.cons (by decide) (carries_encode v))
  | (k, v) :: m :: members =>
    ((carries_encodeString k).append (.cons (by decide) (carries_encode v))).append
      (.cons (by decide) (carries_encodeMembers (m :: members)))

end

end Json

end CyberControl
