import CyberControl.SseFrame
import CyberControl.Unicode

/-! # ASCII text

What Unicode says of the ASCII characters and of the line boundaries, as fields of `Standard`. -/

namespace CyberControl.Unicode

open Streaming (isLineBoundary)

def asciiSpaces : List ℕ := [0x09, 0x0a, 0x0b, 0x0c, 0x0d, 0x1c, 0x1d, 0x1e, 0x1f, 0x20]

/-- The double quote and the line feed. -/
def isDelimiter (c : Char) : Bool := c = '"' || c = '\n'

/-- A database of Unicode: ASCII characters are starters without a decomposition, no composite ends with
one, and none begins with a delimiter. -/
structure Standard extends Database where
  isSpace_ascii : ∀ c : Char, c.toNat < 128 → isSpace c = asciiSpaces.contains c.toNat
  casefold_ascii : ∀ c : Char, c.toNat < 128 → casefold c = [c.toLower]
  decomposition_ascii : ∀ c : Char, c.toNat < 128 → decomposition c = [c]
  combiningClass_ascii : ∀ c : Char, c.toNat < 128 → combiningClass c = 0
  composite_ascii : ∀ a b : Char, b.toNat < 128 → composite a b = none
  composite_delimiter : ∀ a b : Char, isDelimiter a → composite a b = none
  decomposition_unbroken : ∀ c, ∀ d ∈ decomposition c, isLineBoundary d → isLineBoundary c
  composite_unbroken : ∀ a b c, composite a b = some c → isLineBoundary c = false
  nfkc_nfkc : ∀ text, toDatabase.nfkc (toDatabase.nfkc text) = toDatabase.nfkc text

namespace Standard

/-! ### ASCII alone -/

/-- A database that knows the ASCII characters only. -/
def asciiOnly : Database where
  isSpace c := asciiSpaces.contains c.toNat
  isDecimal c := c.isDigit
  isAlnum c := c.isAlphanum
  casefold c := [c.toLower]
  decomposition c := [c]
  combiningClass _ := 0
  composite _ _ := none
  decomposition_nonspace c h := ⟨c, List.mem_singleton_self c, h⟩
  composite_nonspace _ _ _ h := by cases h

theorem composeFrom_asciiOnly (starter : Char) (cs : List Char) :
    asciiOnly.composeFrom starter [] cs = starter :: cs := by
  induction cs generalizing starter with
  | nil => rfl
  | cons c cs ih =>
    rw [Database.composeFrom.eq_def]
    simp only [asciiOnly, if_true]
    exact congrArg _ (ih c)

theorem nfkc_asciiOnly (text : List Char) : asciiOnly.nfkc text = text := by
  have hreorder : ∀ text, asciiOnly.reorder text = text := by
    intro text
    induction text with
    | nil => rfl
    | cons c cs ih =>
      unfold Database.reorder
      rw [if_pos (show asciiOnly.combiningClass c = 0 from rfl), ih]
  have hdecomposed : text.flatMap asciiOnly.decomposition = text := List.flatMap_singleton' text
  unfold Database.nfkc
  rw [hdecomposed, hreorder]
  cases text with
  | nil => rfl
  | cons c cs =>
    rw [Database.compose.eq_def]
    exact composeFrom_asciiOnly c cs

/-- The same as a `Standard`. -/
def ascii : Standard where
  toDatabase := asciiOnly
  isSpace_ascii _ _ := rfl
  casefold_ascii _ _ := rfl
  decomposition_ascii _ _ := rfl
  combiningClass_ascii _ _ := rfl
  composite_ascii _ _ _ := rfl
  composite_delimiter _ _ _ := rfl
  decomposition_unbroken c d hd hbroken := List.mem_singleton.mp hd ▸ hbroken
  composite_unbroken _ _ _ h := by cases h
  nfkc_nfkc text := by rw [nfkc_asciiOnly, nfkc_asciiOnly]

end Standard

/-! ### Lower case -/

/-- What `str.lower` takes from Unicode: the lower case of a character, and whether a capital sigma between
two texts, the first of them reversed, ends a word. -/
structure Lowering where
  lowerChar : Char → List Char
  finalSigma : List Char → List Char → Bool
  lowerChar_ascii : ∀ c : Char, c.toNat < 128 → lowerChar c = [c.toLower]

namespace Lowering
variable (lowering : Lowering)

def lowerFrom (before : List Char) : List Char → List Char
  | [] => []
  | c :: after =>
    (if c = 'Σ' then [if lowering.finalSigma before after then 'ς' else 'σ'] else lowering.lowerChar c)
      ++ lowerFrom (c :: before) after

/-- `str.lower`. -/
def lower (text : List Char) : List Char := lowering.lowerFrom [] text

/-- The lower case of a character away from the ends of words. -/
def plain (c : Char) : List Char := if c = 'Σ' then ['σ'] else lowering.lowerChar c

/-- The ASCII characters of a text, the others replaced by one of them. -/
def asciiMask (text : List Char) : List Char := text.map fun c => if c.toNat < 128 then c else 'σ'

theorem infix_asciiMask {token text : List Char} (htoken : ∀ c ∈ token, c.toNat < 128) :
    token <:+: asciiMask text ↔ token <:+: text := by
  have hmask : asciiMask token = token := by
    refine (List.map_congr_left fun c hc => ?_).trans (List.map_id token)
    rw [if_pos (htoken c hc), id]
  constructor
  · rintro ⟨before, after, h⟩
    obtain ⟨left, last, rfl, hleft, hlast⟩ := List.map_eq_append_iff.mp h.symm
    obtain ⟨first, middle, rfl, hfirst, hmiddle⟩ := List.map_eq_append_iff.mp hleft
    refine ⟨first, last, ?_⟩
    suffices middle = token by rw [this]
    rw [← hmiddle]
    refine (List.map_id middle).symm.trans (List.map_congr_left fun c hc => ?_)
    have himage : (if c.toNat < 128 then c else 'σ') ∈ token :=
      hmiddle ▸ List.mem_map_of_mem (f := fun c : Char => if c.toNat < 128 then c else 'σ') hc
    split_ifs at himage ⊢ with hc
    · rfl
    · exact absurd (htoken _ himage) (by decide)
  · rintro ⟨before, after, rfl⟩
    refine ⟨asciiMask before, asciiMask after, ?_⟩
    unfold asciiMask at hmask ⊢
    rw [List.map_append, List.map_append, hmask]

theorem asciiMask_lowerFrom (before text : List Char) :
    asciiMask (lowering.lowerFrom before text) = asciiMask (text.flatMap lowering.plain) := by
  induction text generalizing before with
  | nil => rfl
  | cons c after ih =>
    rw [lowerFrom, List.flatMap_cons]
    unfold asciiMask at ih ⊢
    rw [List.map_append, List.map_append, ih, plain]
    congr 1
    split_ifs
    · rfl
    · rfl
    · rfl

/-- **ASCII texts in lower case** are found where they are found character by character. -/
theorem infix_lower {token text : List Char} (htoken : ∀ c ∈ token, c.toNat < 128) :
    token <:+: lowering.lower text ↔ token <:+: text.flatMap lowering.plain := by
  rw [← infix_asciiMask htoken, lower, asciiMask_lowerFrom, infix_asciiMask htoken]

/-- Lower case of the ASCII characters only. -/
def ascii : Lowering where
  lowerChar c := [c.toLower]
  finalSigma _ _ := false
  lowerChar_ascii _ _ := rfl

end Lowering

end CyberControl.Unicode
