import Mathlib.Data.List.DropRight
import Mathlib.Data.List.Infix
import Mathlib.Data.List.Nodup

/-! # Base64 texts

Bytes as digits of six bits, with the URL-safe alphabet and without padding, and the lenient reader: it passes
over every character that is no digit, stops where the padding completes a group, and drops the bits that the
last digit has too many. -/

namespace CyberControl.Base64

/-! ### Digits -/

/-- The URL-safe alphabet. -/
def alphabet : List Char :=
  "ABCDEFGHIJKLMNOPQRSTUVWXYZabcdefghijklmnopqrstuvwxyz0123456789-_".toList

def digit (n : ℕ) : Char := alphabet.getD n 'A'

/-- The digits 62 and 63 of the other alphabet. -/
def urlSafe (c : Char) : Char := if c = '+' then '-' else if c = '/' then '_' else c

/-- The six bits of a digit of either alphabet. -/
def sextet (c : Char) : Option ℕ := alphabet.idxOf? (urlSafe c)

variable {n : ℕ}

theorem alphabet_eq : alphabet = ['A', 'B', 'C', 'D', 'E', 'F', 'G', 'H', 'I', 'J', 'K', 'L', 'M', 'N', 'O', 'P',
    'Q', 'R', 'S', 'T', 'U', 'V', 'W', 'X', 'Y', 'Z', 'a', 'b', 'c', 'd', 'e', 'f', 'g', 'h', 'i', 'j', 'k', 'l',
    'm', 'n', 'o', 'p', 'q', 'r', 's', 't', 'u', 'v', 'w', 'x', 'y', 'z', '0', '1', '2', '3', '4', '5', '6', '7',
    '8', '9', '-', '_'] := String.toList_ofList

def codes : List ℕ := List.range' 65 26 ++ List.range' 97 26 ++ List.range' 48 10 ++ [45, 95]

theorem map_toNat_alphabet : alphabet.map Char.toNat = codes := by
  rw [alphabet_eq]
  rfl

theorem length_alphabet : alphabet.length = 64 := by
  rw [alphabet_eq]
  rfl

theorem nodup_alphabet : alphabet.Nodup := by
  refine List.Nodup.of_map Char.toNat ?_
  rw [map_toNat_alphabet]
  decide

theorem digit_eq (h : n < alphabet.length) : digit n = alphabet[n] := by
  unfold digit
  rw [List.getD_eq_getElem?_getD, List.getElem?_eq_getElem h, Option.getD_some]

theorem digit_mem (h : n < 64) : digit n ∈ alphabet := by
  have hlength : n < alphabet.length := by rwa [length_alphabet]
  rw [digit_eq hlength]
  exact List.getElem_mem hlength

variable {c : Char}

theorem toNat_mem_codes (h : c ∈ alphabet) : c.toNat ∈ codes := by
  rw [← map_toNat_alphabet]
  exact List.mem_map_of_mem h

theorem urlSafe_of_mem (h : c ∈ alphabet) : urlSafe c = c := by
  have hcode := toNat_mem_codes h
  have hplus : c ≠ '+' := by
    rintro rfl
    exact absurd hcode (by decide)
  have hslash : c ≠ '/' := by
    rintro rfl
    exact absurd hcode (by decide)
  unfold urlSafe
  rw [if_neg hplus, if_neg hslash]

theorem sextet_digit (h : n < 64) : sextet (digit n) = some n := by
  have hlength : n < alphabet.length := by rwa [length_alphabet]
  unfold sextet
  rw [urlSafe_of_mem (digit_mem h), digit_eq hlength, List.idxOf?_eq_some_iff]
  refine ⟨hlength, rfl, fun j hj heq => ?_⟩
  have hsame := (List.Nodup.getElem_inj_iff nodup_alphabet).mp heq
  omega

theorem ne_pad_of_mem (h : c ∈ alphabet) : c ≠ '=' := by
  rintro rfl
  exact absurd (toNat_mem_codes h) (by decide)

theorem toNat_lt_of_mem (h : c ∈ alphabet) : c.toNat < 128 := by
  have hall : ∀ code ∈ codes, code < 128 := by decide
  exact hall c.toNat (toNat_mem_codes h)

theorem digit_of_mem (h : c ∈ alphabet) : ∃ n < 64, sextet c = some n ∧ digit n = c := by
  obtain ⟨n, hlength, rfl⟩ := List.getElem_of_mem h
  have hn : n < 64 := by rwa [length_alphabet] at hlength
  have hdigit := digit_eq hlength
  refine ⟨n, hn, ?_, hdigit⟩
  rw [← hdigit]
  exact sextet_digit hn

/-! ### Writing -/

/-- `base64.urlsafe_b64encode`. -/
def encode : List UInt8 → List Char
  | [] => []
  | [a] => [digit (a.toNat / 4), digit (a.toNat % 4 * 16), '=', '=']
  | [a, b] => [digit (a.toNat / 4), digit (a.toNat % 4 * 16 + b.toNat / 16), digit (b.toNat % 16 * 4), '=']
  | a :: b :: c :: rest =>
    digit (a.toNat / 4) :: digit (a.toNat % 4 * 16 + b.toNat / 16) ::
      digit (b.toNat % 16 * 4 + c.toNat / 64) :: digit (c.toNat % 64) :: encode rest

/-- `rstrip("=")`. -/
def stripPadding (text : List Char) : List Char := text.rdropWhile (· = '=')

/-- The text of some bytes, without padding. -/
def unpadded (bytes : List UInt8) : List Char := stripPadding (encode bytes)

/-- The padding that the length of the text asks for. -/
def padding (n : ℕ) : List Char := List.replicate ((4 - n % 4) % 4) '='

/-- `text + "=" * (-len(text) % 4)`. -/
def pad (text : List Char) : List Char := text ++ padding text.length

/-! ### Reading -/

/-- `binascii.a2b_base64` without `strict_mode`: the digits of the group read so far, the bits that wait for
the next one, and the padding seen since the last digit. -/
def scan (quadPos left pads : ℕ) : List Char → Option (List UInt8)
  | [] => if quadPos = 0 then some [] else none
  | c :: rest =>
    if c = '=' then
      if 2 ≤ quadPos then
        if 4 ≤ quadPos + (pads + 1) then some [] else scan quadPos left (pads + 1) rest
      else scan quadPos left pads rest
    else
      match sextet c with
      | none => scan quadPos left pads rest
      | some bits =>
        match quadPos with
        | 0 => scan 1 bits 0 rest
        | 1 => (scan 2 (bits % 16) 0 rest).map (UInt8.ofNat (left * 4 + bits / 16) :: ·)
        | 2 => (scan 3 (bits % 4) 0 rest).map (UInt8.ofNat (left * 16 + bits / 4) :: ·)
        | _ => (scan 0 0 0 rest).map (UInt8.ofNat (left * 64 + bits) :: ·)

/-- `base64.urlsafe_b64decode`. -/
def decode (text : List Char) : Option (List UInt8) := scan 0 0 0 text

section digits
variable {left pads bits : ℕ} {c : Char} {rest : List Char}

theorem scan_zero (hc : c ≠ '=') (h : sextet c = some bits) :
    scan 0 left pads (c :: rest) = scan 1 bits 0 rest := by
  rw [scan, if_neg hc, h]
  rfl

theorem scan_one (hc : c ≠ '=') (h : sextet c = some bits) : scan 1 left pads (c :: rest)
    = (scan 2 (bits % 16) 0 rest).map (UInt8.ofNat (left * 4 + bits / 16) :: ·) := by
  rw [scan, if_neg hc, h]
  rfl

theorem scan_two (hc : c ≠ '=') (h : sextet c = some bits) : scan 2 left pads (c :: rest)
    = (scan 3 (bits % 4) 0 rest).map (UInt8.ofNat (left * 16 + bits / 4) :: ·) := by
  rw [scan, if_neg hc, h]
  rfl

theorem scan_three (hc : c ≠ '=') (h : sextet c = some bits) : scan 3 left pads (c :: rest)
    = (scan 0 0 0 rest).map (UInt8.ofNat (left * 64 + bits) :: ·) := by
  rw [scan, if_neg hc, h]
  rfl

end digits

theorem scan_group {s t u v : ℕ} {rest : List Char} (hs : s < 64) (ht : t < 64) (hu : u < 64) (hv : v < 64) :
    scan 0 0 0 (digit s :: digit t :: digit u :: digit v :: rest) = (scan 0 0 0 rest).map
      ([UInt8.ofNat (s * 4 + t / 16), UInt8.ofNat (t % 16 * 16 + u / 4), UInt8.ofNat (u % 4 * 64 + v)]
        ++ ·) := by
  have hne (n : ℕ) (hn : n < 64) : digit n ≠ '=' := ne_pad_of_mem (digit_mem hn)
  rw [scan_zero (hne s hs) (sextet_digit hs), scan_one (hne t ht) (sextet_digit ht),
    scan_two (hne u hu) (sextet_digit hu), scan_three (hne v hv) (sextet_digit hv)]
  cases scan 0 0 0 rest <;> rfl

theorem scan_three_digits {s t u : ℕ} (hs : s < 64) (ht : t < 64) (hu : u < 64) :
    scan 0 0 0 [digit s, digit t, digit u, '=']
      = some [UInt8.ofNat (s * 4 + t / 16), UInt8.ofNat (t % 16 * 16 + u / 4)] := by
  have hne (n : ℕ) (hn : n < 64) : digit n ≠ '=' := ne_pad_of_mem (digit_mem hn)
  rw [scan_zero (hne s hs) (sextet_digit hs), scan_one (hne t ht) (sextet_digit ht),
    scan_two (hne u hu) (sextet_digit hu)]
  rfl

theorem scan_two_digits {s t : ℕ} (hs : s < 64) (ht : t < 64) :
    scan 0 0 0 [digit s, digit t, '=', '='] = some [UInt8.ofNat (s * 4 + t / 16)] := by
  have hne (n : ℕ) (hn : n < 64) : digit n ≠ '=' := ne_pad_of_mem (digit_mem hn)
  rw [scan_zero (hne s hs) (sextet_digit hs), scan_one (hne t ht) (sextet_digit ht)]
  rfl

theorem scan_encode : ∀ bytes : List UInt8, decode (encode bytes) = some bytes
  | [] => rfl
  | [a] => by
    have ha := a.toNat_lt
    rw [encode, decode, scan_two_digits (by omega) (by omega),
      show a.toNat / 4 * 4 + a.toNat % 4 * 16 / 16 = a.toNat by omega, UInt8.ofNat_toNat]
  | [a, b] => by
    have ha := a.toNat_lt
    have hb := b.toNat_lt
    rw [encode, decode, scan_three_digits (by omega) (by omega) (by omega),
      show a.toNat / 4 * 4 + (a.toNat % 4 * 16 + b.toNat / 16) / 16 = a.toNat by omega,
      show (a.toNat % 4 * 16 + b.toNat / 16) % 16 * 16 + b.toNat % 16 * 4 / 4 = b.toNat by omega,
      UInt8.ofNat_toNat, UInt8.ofNat_toNat]
  | a :: b :: c :: rest => by
    have ha := a.toNat_lt
    have hb := b.toNat_lt
    have hc := c.toNat_lt
    have hrest := scan_encode rest
    rw [decode] at hrest ⊢
    rw [encode, scan_group (by omega) (by omega) (by omega) (by omega), hrest,
      show a.toNat / 4 * 4 + (a.toNat % 4 * 16 + b.toNat / 16) / 16 = a.toNat by omega,
      show (a.toNat % 4 * 16 + b.toNat / 16) % 16 * 16 + (b.toNat % 16 * 4 + c.toNat / 64) / 4
        = b.toNat by omega,
      show (b.toNat % 16 * 4 + c.toNat / 64) % 4 * 64 + c.toNat % 64 = c.toNat by omega,
      UInt8.ofNat_toNat, UInt8.ofNat_toNat, UInt8.ofNat_toNat]
    rfl

/-! ### Canonical texts -/

/-- None of the lowest bits of the digit is set. -/
def spare (weight : ℕ) (c : Char) : Bool := (sextet c).any fun n => n % weight = 0

/-- Digits of the URL-safe alphabet only; the bits that the last one has too many are zero. -/
def canonical : List Char → Bool
  | [] => true
  | [_] => false
  | [s, t] => alphabet.contains s && alphabet.contains t && spare 16 t
  | [s, t, u] => alphabet.contains s && alphabet.contains t && alphabet.contains u && spare 4 u
  | s :: t :: u :: v :: rest =>
    alphabet.contains s && alphabet.contains t && alphabet.contains u && alphabet.contains v && canonical rest

theorem stripPadding_cons (h : c ∈ alphabet) (text : List Char) :
    stripPadding (c :: text) = c :: stripPadding text := by
  unfold stripPadding
  induction text using List.reverseRecOn with
  | nil => exact List.rdropWhile_concat_neg _ [] c (by simpa using ne_pad_of_mem h)
  | append_singleton text d ih =>
    rw [← List.cons_append]
    by_cases hd : d = '='
    · rw [List.rdropWhile_concat_pos _ _ _ (by simpa using hd), ih,
        List.rdropWhile_concat_pos _ _ _ (by simpa using hd)]
    · rw [List.rdropWhile_concat_neg _ _ _ (by simpa using hd),
        List.rdropWhile_concat_neg _ _ _ (by simpa using hd), List.cons_append]

theorem unpadded_one (a : UInt8) : unpadded [a] = [digit (a.toNat / 4), digit (a.toNat % 4 * 16)] := by
  have ha := a.toNat_lt
  rw [unpadded, encode, stripPadding_cons (digit_mem (by omega)), stripPadding_cons (digit_mem (by omega))]
  rfl

theorem unpadded_two (a b : UInt8) : unpadded [a, b]
    = [digit (a.toNat / 4), digit (a.toNat % 4 * 16 + b.toNat / 16), digit (b.toNat % 16 * 4)] := by
  have ha := a.toNat_lt
  have hb := b.toNat_lt
  rw [unpadded, encode, stripPadding_cons (digit_mem (by omega)), stripPadding_cons (digit_mem (by omega)),
    stripPadding_cons (digit_mem (by omega))]
  rfl

theorem unpadded_group (a b c : UInt8) (rest : List UInt8) : unpadded (a :: b :: c :: rest)
    = digit (a.toNat / 4) :: digit (a.toNat % 4 * 16 + b.toNat / 16) ::
        digit (b.toNat % 16 * 4 + c.toNat / 64) :: digit (c.toNat % 64) :: unpadded rest := by
  have ha := a.toNat_lt
  have hb := b.toNat_lt
  have hc := c.toNat_lt
  rw [unpadded, encode, stripPadding_cons (digit_mem (by omega)), stripPadding_cons (digit_mem (by omega)),
    stripPadding_cons (digit_mem (by omega)), stripPadding_cons (digit_mem (by omega))]
  rfl

theorem pad_group (s t u v : Char) (text : List Char) :
    pad (s :: t :: u :: v :: text) = s :: t :: u :: v :: pad text := by
  have hlength : (s :: t :: u :: v :: text).length % 4 = text.length % 4 := by
    rw [show (s :: t :: u :: v :: text).length = text.length + 4 from rfl]
    omega
  unfold pad padding
  rw [hlength]
  rfl

theorem pad_unpadded : ∀ bytes : List UInt8, pad (unpadded bytes) = encode bytes
  | [] => rfl
  | [a] => by
    rw [unpadded_one]
    rfl
  | [a, b] => by
    rw [unpadded_two]
    rfl
  | a :: b :: c :: rest => by
    rw [unpadded_group, pad_group, pad_unpadded rest]
    rfl

theorem decode_unpadded (bytes : List UInt8) : decode (pad (unpadded bytes)) = some bytes := by
  rw [pad_unpadded, scan_encode]

theorem mem_of_mem_unpadded : ∀ {bytes : List UInt8} {c : Char}, c ∈ unpadded bytes → c ∈ alphabet
  | [], c, h => absurd h (by simp [unpadded, encode, stripPadding])
  | [a], c, h => by
    have ha := a.toNat_lt
    rw [unpadded_one] at h
    simp only [List.mem_cons, List.not_mem_nil, or_false] at h
    rcases h with rfl | rfl <;> exact digit_mem (by omega)
  | [a, b], c, h => by
    have ha := a.toNat_lt
    have hb := b.toNat_lt
    rw [unpadded_two] at h
    simp only [List.mem_cons, List.not_mem_nil, or_false] at h
    rcases h with rfl | rfl | rfl <;> exact digit_mem (by omega)
  | a :: b :: d :: rest, c, h => by
    have ha := a.toNat_lt
    have hb := b.toNat_lt
    have hd := d.toNat_lt
    rw [unpadded_group] at h
    simp only [List.mem_cons] at h
    rcases h with rfl | rfl | rfl | rfl | h
    · exact digit_mem (by omega)
    · exact digit_mem (by omega)
    · exact digit_mem (by omega)
    · exact digit_mem (by omega)
    · exact mem_of_mem_unpadded h

theorem contains_digit (h : n < 64) : alphabet.contains (digit n) = true :=
  List.contains_iff_mem.mpr (digit_mem h)

theorem spare_digit {weight n : ℕ} (h : n < 64) : spare weight (digit n) = true ↔ n % weight = 0 := by
  unfold spare
  rw [sextet_digit h, Option.any_some, decide_eq_true_eq]

theorem canonical_unpadded : ∀ bytes : List UInt8, canonical (unpadded bytes) = true
  | [] => rfl
  | [a] => by
    have ha := a.toNat_lt
    rw [unpadded_one, canonical, contains_digit (by omega), contains_digit (by omega)]
    exact (spare_digit (by omega)).mpr (by omega)
  | [a, b] => by
    have ha := a.toNat_lt
    have hb := b.toNat_lt
    rw [unpadded_two, canonical, contains_digit (by omega), contains_digit (by omega),
      contains_digit (by omega)]
    exact (spare_digit (by omega)).mpr (by omega)
  | a :: b :: c :: rest => by
    have ha := a.toNat_lt
    have hb := b.toNat_lt
    have hc := c.toNat_lt
    rw [unpadded_group, canonical, contains_digit (by omega), contains_digit (by omega),
      contains_digit (by omega), contains_digit (by omega), canonical_unpadded rest]
    rfl

theorem exists_digit (h : alphabet.contains c = true) : ∃ n < 64, c = digit n := by
  obtain ⟨n, hn, -, hdigit⟩ := digit_of_mem (List.contains_iff_mem.mp h)
  exact ⟨n, hn, hdigit.symm⟩

theorem unpadded_of_canonical : ∀ {text : List Char} {bytes : List UInt8}, canonical text = true →
    decode (pad text) = some bytes → unpadded bytes = text
  | [], bytes, _, h => by
    cases h
    rfl
  | [s, t], bytes, hcanonical, h => by
    simp only [canonical, Bool.and_eq_true] at hcanonical
    obtain ⟨⟨hs, ht⟩, hspare⟩ := hcanonical
    obtain ⟨m, hm, rfl⟩ := exists_digit hs
    obtain ⟨n, hn, rfl⟩ := exists_digit ht
    rw [spare_digit hn] at hspare
    have hbytes := h.symm.trans (scan_two_digits hm hn)
    cases hbytes
    rw [unpadded_one, UInt8.toNat_ofNat_of_lt' (by show _ < 256; omega),
      show (m * 4 + n / 16) / 4 = m by omega,
      show (m * 4 + n / 16) % 4 * 16 = n by omega]
  | [s, t, u], bytes, hcanonical, h => by
    simp only [canonical, Bool.and_eq_true] at hcanonical
    obtain ⟨⟨⟨hs, ht⟩, hu⟩, hspare⟩ := hcanonical
    obtain ⟨m, hm, rfl⟩ := exists_digit hs
    obtain ⟨n, hn, rfl⟩ := exists_digit ht
    obtain ⟨o, ho, rfl⟩ := exists_digit hu
    rw [spare_digit ho] at hspare
    have hbytes := h.symm.trans (scan_three_digits hm hn ho)
    cases hbytes
    rw [unpadded_two, UInt8.toNat_ofNat_of_lt' (by show _ < 256; omega),
      UInt8.toNat_ofNat_of_lt' (by show _ < 256; omega), show (m * 4 + n / 16) / 4 = m by omega,
      show (m * 4 + n / 16) % 4 * 16 + (n % 16 * 16 + o / 4) / 16 = n by omega,
      show (n % 16 * 16 + o / 4) % 16 * 4 = o by omega]
  | s :: t :: u :: v :: rest, bytes, hcanonical, h => by
    simp only [canonical, Bool.and_eq_true] at hcanonical
    obtain ⟨⟨⟨⟨hs, ht⟩, hu⟩, hv⟩, hrest⟩ := hcanonical
    obtain ⟨m, hm, rfl⟩ := exists_digit hs
    obtain ⟨n, hn, rfl⟩ := exists_digit ht
    obtain ⟨o, ho, rfl⟩ := exists_digit hu
    obtain ⟨p, hp, rfl⟩ := exists_digit hv
    rw [pad_group, decode, scan_group hm hn ho hp, Option.map_eq_some_iff] at h
    obtain ⟨bytes, hbytes, rfl⟩ := h
    show unpadded (_ :: _ :: _ :: bytes) = _
    rw [unpadded_group, unpadded_of_canonical hrest hbytes, UInt8.toNat_ofNat_of_lt' (by show _ < 256; omega),
      UInt8.toNat_ofNat_of_lt' (by show _ < 256; omega), UInt8.toNat_ofNat_of_lt' (by show _ < 256; omega),
      show (m * 4 + n / 16) / 4 = m by omega,
      show (m * 4 + n / 16) % 4 * 16 + (n % 16 * 16 + o / 4) / 16 = n by omega,
      show (n % 16 * 16 + o / 4) % 16 * 4 + (o % 4 * 64 + p) / 64 = o by omega,
      show (o % 4 * 64 + p) % 64 = p by omega]

/-- **Canonical texts.** Of the texts read as some bytes, exactly the canonical one is their text. -/
theorem eq_unpadded_iff {text : List Char} {bytes : List UInt8} (h : decode (pad text) = some bytes) :
    text = unpadded bytes ↔ canonical text = true := by
  constructor
  · rintro rfl
    exact canonical_unpadded bytes
  · exact fun hcanonical => (unpadded_of_canonical hcanonical h).symm

end CyberControl.Base64
