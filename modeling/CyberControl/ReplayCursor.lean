import CyberControl.Base64
import CyberControl.Errors
import CyberControl.OrderedDict
import Mathlib.Data.Nat.Digits.Defs
import Mathlib.Data.String.Basic

/-! # Replay cursors

`ReplayCursorCodec` (`streaming/sse.py`): a tenant and a sequence with a keyed digest of the two, as URL-safe
base64 text without padding, and the cursors written last, kept by their tenant and sequence. -/

namespace CyberControl.Streaming

/-! ### Numbers as text -/

/-- What the codec calls: `hmac.new(key, payload, hashlib.sha256).digest()`, and white space and decimal digits
of Unicode. -/
structure CursorPlatform where
  hmacSha256 : List UInt8 → List UInt8 → List UInt8
  hmacSha256_length : ∀ key payload, (hmacSha256 key payload).length = 32
  isSpace : Char → Bool
  decimal : Char → Option ℕ

/-- `sys.get_int_max_str_digits()`. -/
def maxStrDigits : ℕ := 4300

/-- `str` of a number that is not negative; it raises for `none`. -/
def naturalText (n : ℕ) : Option (List Char) :=
  if (Nat.toDigits 10 n).length ≤ maxStrDigits then some (Nat.toDigits 10 n) else none

/-- White space and digits of Unicode as those of ASCII. -/
def toAscii (platform : CursorPlatform) (c : Char) : Char :=
  if c.toNat < 127 then c
  else if platform.isSpace c then ' '
  else
    match platform.decimal c with
    | some d => Char.ofNat (48 + d)
    | none => '?'

/-- `isspace` of C. -/
def isCSpace (c : Char) : Bool := [9, 10, 11, 12, 13, 32].contains c.toNat

/-- Digits, with single underscores between them; `afterDigit` tells what the character before was. -/
def underscored (afterDigit : Bool) : List Char → Option (List Char)
  | [] => if afterDigit then some [] else none
  | c :: cs =>
    if c.isDigit then (underscored true cs).map (c :: ·)
    else if c = '_' ∧ afterDigit then underscored false cs
    else none

def parseNatural (text : List Char) : Option ℕ := do
  let digits ← underscored false text
  if digits.length ≤ maxStrDigits then some (Nat.ofDigitChars 10 digits 0) else none

/-- `int(text)`; it raises for `none`. -/
def parseInt (platform : CursorPlatform) (text : List Char) : Option ℤ :=
  match ((text.map (toAscii platform)).dropWhile isCSpace).rdropWhile isCSpace with
  | '-' :: cs => (parseNatural cs).map fun n => -(n : ℤ)
  | '+' :: cs => (parseNatural cs).map fun n => (n : ℤ)
  | cs => (parseNatural cs).map fun n => (n : ℤ)

/-- `text.rsplit(":", 1)` in two; it raises for `none`. -/
def rsplit (text : List Char) : Option (List Char × List Char) :=
  match text.rdropWhile (· ≠ ':') with
  | [] => none
  | before => some (before.dropLast, text.rtakeWhile (· ≠ ':'))

/-! ### The codec -/

structure ReplayCursorCodec where
  secret : List UInt8
  cacheSize : ℕ
  secret_length : 32 ≤ secret.length
  cacheSize_bounds : 1 ≤ cacheSize ∧ cacheSize ≤ 100000

/-- `_encoded`, the cursor used last first. -/
abbrev CursorCache := AList fun _ : String × ℤ => String

def utf8 (text : List Char) : List UInt8 := (String.ofList text).toUTF8.data.toList

/-- `f"{tenant_id}:{sequence}".encode()`. -/
def cursorPayload (tenantId : String) (sequence : ℤ) : Option (List UInt8) :=
  (naturalText sequence.toNat).map fun digits => utf8 (tenantId.toList ++ ':' :: digits)

variable (platform : CursorPlatform) (codec : ReplayCursorCodec)

/-- `payload + b"." + signature`. -/
def signed (payload : List UInt8) : List UInt8 :=
  payload ++ 46 :: platform.hmacSha256 codec.secret payload

/-- The cursor that `encode` computes when none is kept. -/
def newCursor (tenantId : String) (sequence : ℤ) : Option String :=
  (cursorPayload tenantId sequence).map fun payload =>
    String.ofList (Base64.unpadded (signed platform codec payload))

def ReplayCursorCodec.encode (encoded : CursorCache) (tenantId : String) (sequence : ℤ) :
    Except Exn String × CursorCache :=
  if tenantId = "" ∨ sequence < 0 then
    (.error (.valueError "SSE cursor tenant and nonnegative sequence are required"), encoded)
  else
    match encoded.lookup (tenantId, sequence) with
    | some cursor => (.ok cursor, encoded.insert (tenantId, sequence) cursor)
    | none =>
      match newCursor platform codec tenantId sequence with
      | none =>
        (.error (.valueError "Exceeds the limit (4300 digits) for integer string conversion"), encoded)
      | some cursor =>
        (.ok cursor,
          OrderedDict.keepNewest codec.cacheSize (encoded.insert (tenantId, sequence) cursor))

def cursorInvalid : Exn :=
  .liyan
    { code := .SSE_REPLAY_CURSOR_INVALID
      safeMessage := "The SSE replay cursor is invalid."
      category := .MESSAGING
      statusCode := 400 }

def rawCursor (cursor : String) : Option (List UInt8) :=
  if cursor.toList.all (·.toNat < 128) then Base64.decode (Base64.pad cursor.toList) else none

/-- The payload, where the digest after it is the one of the payload. -/
def verifiedPayload (raw : List UInt8) : Option (List UInt8) :=
  if raw.length < 34 ∨ raw[raw.length - 33]? ≠ some 46 then none
  else if raw.drop (raw.length - 32) = platform.hmacSha256 codec.secret (raw.take (raw.length - 33)) then
    some (raw.take (raw.length - 33))
  else none

def payloadSequence (payload : List UInt8) (tenantId : String) : Option ℤ := do
  let text ← String.fromUTF8? ⟨payload.toArray⟩
  let (cursorTenant, sequence) ← rsplit text.toList
  if cursorTenant ≠ tenantId.toList then none
  else
    let decodedSequence ← parseInt platform sequence
    if decodedSequence < 0 then none else some decodedSequence

/-- `decode`: whatever is raised on the way, the error is the same. -/
def ReplayCursorCodec.decode (cursor tenantId : String) : Except Exn ℤ :=
  match ((rawCursor cursor).bind (verifiedPayload platform codec)).bind
    (payloadSequence platform · tenantId) with
  | some sequence => .ok sequence
  | none => .error cursorInvalid

/-! ### Numbers read back -/

variable {platform codec}

theorem underscored_digits {cs : List Char} {afterDigit : Bool} (h : ∀ c ∈ cs, c.isDigit = true)
    (hne : afterDigit = true ∨ cs ≠ []) : underscored afterDigit cs = some cs := by
  induction cs generalizing afterDigit with
  | nil =>
    rw [underscored, if_pos (hne.resolve_right fun hnil => hnil rfl)]
  | cons c cs ih =>
    rw [underscored, if_pos (h c List.mem_cons_self),
      ih (fun d hd => h d (List.mem_cons_of_mem c hd)) (.inl rfl)]
    rfl

variable {c : Char}

theorem toAscii_of_isDigit (h : c.isDigit = true) : toAscii platform c = c := by
  obtain ⟨-, hnine⟩ : 48 ≤ c.toNat ∧ c.toNat ≤ 57 := Char.isDigit_iff_toNat.mp h
  exact if_pos (by omega)

theorem digit_facts (h : c.isDigit = true) :
    isCSpace c = false ∧ c ≠ '-' ∧ c ≠ '+' ∧ c ≠ ':' := by
  obtain ⟨hzero, hnine⟩ : 48 ≤ c.toNat ∧ c.toNat ≤ 57 := Char.isDigit_iff_toNat.mp h
  refine ⟨?_, ?_, ?_, ?_⟩
  · unfold isCSpace
    rw [List.contains_eq_mem, decide_eq_false_iff_not]
    simp only [List.mem_cons, List.not_mem_nil, or_false]
    omega
  · rintro rfl
    exact absurd hzero (by decide)
  · rintro rfl
    exact absurd hzero (by decide)
  · rintro rfl
    exact absurd hnine (by decide)

theorem toDigits_ne_nil (n : ℕ) : Nat.toDigits 10 n ≠ [] := Nat.toDigits_ne_nil

variable {n : ℕ}

theorem isDigit_of_mem_toDigits (h : c ∈ Nat.toDigits 10 n) : c.isDigit = true :=
  Nat.isDigit_of_mem_toDigits (by decide) (by decide) h

theorem strip_digits {cs : List Char} (h : ∀ c ∈ cs, c.isDigit = true) :
    ((cs.map (toAscii platform)).dropWhile isCSpace).rdropWhile isCSpace = cs := by
  have hmap : cs.map (toAscii platform) = cs := by
    conv_rhs => rw [← List.map_id cs]
    exact List.map_congr_left fun c hc => toAscii_of_isDigit (h c hc)
  have hspace : ∀ c ∈ cs, ¬ isCSpace c = true := fun c hc => by
    rw [(digit_facts (h c hc)).1]
    exact Bool.false_ne_true
  rw [hmap, List.dropWhile_eq_self_iff.mpr, List.rdropWhile_eq_self_iff.mpr]
  · exact fun hne => hspace _ (List.getLast_mem hne)
  · exact fun hlength => hspace _ (List.getElem_mem hlength)

theorem parseInt_naturalText {text : List Char} (h : naturalText n = some text) :
    parseInt platform text = some (n : ℤ) := by
  unfold naturalText at h
  split_ifs at h with hlength
  cases h
  have hdigits : ∀ c ∈ Nat.toDigits 10 n, c.isDigit = true := fun c hc => isDigit_of_mem_toDigits hc
  have hnatural : parseNatural (Nat.toDigits 10 n) = some n := by
    unfold parseNatural
    rw [underscored_digits hdigits (.inr (toDigits_ne_nil n))]
    show (if _ then _ else none) = _
    rw [if_pos hlength, Nat.ofDigitChars_ten_toDigits]
  unfold parseInt
  rw [strip_digits hdigits]
  split
  · next cs heq => exact absurd rfl (digit_facts (hdigits _ (heq ▸ List.mem_cons_self))).2.1
  · next cs heq => exact absurd rfl (digit_facts (hdigits _ (heq ▸ List.mem_cons_self))).2.2.1
  · rw [hnatural]
    rfl

theorem rsplit_append {before after : List Char} (h : ':' ∉ after) :
    rsplit (before ++ ':' :: after) = some (before, after) := by
  have hafter : ∀ c ∈ after.reverse, decide (c ≠ ':') = true := fun c hc =>
    decide_eq_true fun heq => h (heq ▸ List.mem_reverse.mp hc)
  have hdrop : (before ++ ':' :: after).rdropWhile (fun c => decide (c ≠ ':')) = before ++ [':'] := by
    unfold List.rdropWhile
    rw [List.reverse_append, List.reverse_cons, List.append_assoc, List.dropWhile_append_of_pos hafter]
    simp
  have htake : (before ++ ':' :: after).rtakeWhile (fun c => decide (c ≠ ':')) = after := by
    unfold List.rtakeWhile
    rw [List.reverse_append, List.reverse_cons, List.append_assoc, List.takeWhile_append_of_pos hafter]
    simp
  unfold rsplit
  rw [hdrop, htake]
  split
  · next heq => exact absurd heq (by simp)
  · rw [List.dropLast_concat]

theorem fromUTF8_utf8 (text : List Char) :
    String.fromUTF8? ⟨(utf8 text).toArray⟩ = some (String.ofList text) := by
  show String.fromUTF8? (String.ofList text).toUTF8 = _
  have hvalid : (String.ofList text).toUTF8.IsValidUTF8 := (String.ofList text).isValidUTF8
  rw [String.fromUTF8?, dif_pos hvalid]
  rfl

theorem utf8_injective : Function.Injective utf8 := by
  intro text text' h
  have htext := fromUTF8_utf8 text
  rw [h, fromUTF8_utf8, Option.some_inj] at htext
  rw [← String.toList_ofList (l := text'), htext, String.toList_ofList]

variable {sequence : ℤ} {payload : List UInt8}

theorem cursorPayload_ne_nil {tenantId : String}
    (h : cursorPayload tenantId sequence = some payload) : payload ≠ [] := by
  obtain ⟨digits, -, rfl⟩ := Option.map_eq_some_iff.mp h
  intro hnil
  have hempty : utf8 [] = [] := rfl
  exact absurd (utf8_injective (hnil.trans hempty.symm)) (by simp)

theorem colon_notMem_naturalText {text : List Char} (h : naturalText n = some text) : ':' ∉ text := by
  unfold naturalText at h
  split_ifs at h
  cases h
  exact fun hc => (digit_facts (isDigit_of_mem_toDigits hc)).2.2.2 rfl

theorem payloadSequence_cursorPayload {tenantId : String}
    (hsequence : 0 ≤ sequence) (h : cursorPayload tenantId sequence = some payload) (tenantId' : String) :
    payloadSequence platform payload tenantId' = if tenantId = tenantId' then some sequence else none := by
  unfold cursorPayload at h
  obtain ⟨digits, hdigits, rfl⟩ := Option.map_eq_some_iff.mp h
  unfold payloadSequence
  rw [fromUTF8_utf8]
  show (do let (cursorTenant, sequence) ← rsplit (String.ofList _).toList; _) = _
  rw [String.toList_ofList, rsplit_append (colon_notMem_naturalText hdigits)]
  show (if tenantId.toList ≠ tenantId'.toList then none else _) = _
  by_cases htenant : tenantId = tenantId'
  · subst htenant
    rw [if_neg (fun hne => hne rfl), if_pos rfl, parseInt_naturalText hdigits, Int.toNat_of_nonneg hsequence]
    show (if sequence < 0 then none else some sequence) = some sequence
    rw [if_neg (by omega)]
  · rw [if_pos (fun heq => htenant (String.ext heq)), if_neg htenant]

/-! ### Cursors read back -/

theorem verifiedPayload_signed (hne : payload ≠ []) :
    verifiedPayload platform codec (signed platform codec payload) = some payload := by
  have hmac := platform.hmacSha256_length codec.secret payload
  have hlength : (signed platform codec payload).length = payload.length + 33 := by
    unfold signed
    rw [List.length_append, List.length_cons, hmac]
  have htake : (signed platform codec payload).take payload.length = payload := List.take_left' rfl
  have hdrop : (signed platform codec payload).drop (payload.length + 1)
      = platform.hmacSha256 codec.secret payload := by
    unfold signed
    rw [List.append_cons]
    exact List.drop_left' (by simp)
  have hdot : (signed platform codec payload)[payload.length]? = some 46 := by
    unfold signed
    rw [List.getElem?_append_right (le_refl _), Nat.sub_self]
    rfl
  have hgood : ¬ (payload.length + 33 < 34 ∨ (some 46 : Option UInt8) ≠ some 46) := by
    rintro (hshort | hdot)
    · have hpos := List.length_pos_iff.mpr hne
      omega
    · exact hdot rfl
  unfold verifiedPayload
  rw [hlength, show payload.length + 33 - 33 = payload.length by omega,
    show payload.length + 33 - 32 = payload.length + 1 by omega, hdot, htake, hdrop, if_neg hgood, if_pos rfl]

theorem signed_of_verifiedPayload {raw payload : List UInt8}
    (h : verifiedPayload platform codec raw = some payload) : raw = signed platform codec payload := by
  unfold verifiedPayload at h
  split_ifs at h with hbad hmac
  cases h
  rw [not_or, not_lt, not_not] at hbad
  obtain ⟨hlength, hdot⟩ := hbad
  obtain ⟨hlt, hdot⟩ := List.getElem?_eq_some_iff.mp hdot
  unfold signed
  rw [← hmac, ← hdot, show raw.length - 32 = raw.length - 33 + 1 by omega, List.getElem_cons_drop,
    List.take_append_drop]

variable {tenantId cursor : String}

theorem rawCursor_newCursor (h : newCursor platform codec tenantId sequence = some cursor) :
    ∃ payload, cursorPayload tenantId sequence = some payload ∧
      cursor = String.ofList (Base64.unpadded (signed platform codec payload)) ∧
      rawCursor cursor = some (signed platform codec payload) := by
  obtain ⟨payload, hpayload, rfl⟩ := Option.map_eq_some_iff.mp h
  refine ⟨payload, hpayload, rfl, ?_⟩
  unfold rawCursor
  rw [String.toList_ofList, if_pos, Base64.decode_unpadded]
  refine List.all_eq_true.mpr fun c hc => decide_eq_true ?_
  exact Base64.toNat_lt_of_mem (Base64.mem_of_mem_unpadded hc)

theorem decode_newCursor (hsequence : 0 ≤ sequence)
    (h : newCursor platform codec tenantId sequence = some cursor) (tenantId' : String) :
    codec.decode platform cursor tenantId'
      = if tenantId = tenantId' then .ok sequence else .error cursorInvalid := by
  obtain ⟨payload, hpayload, -, hraw⟩ := rawCursor_newCursor h
  unfold ReplayCursorCodec.decode
  rw [hraw, Option.bind_some, verifiedPayload_signed (cursorPayload_ne_nil hpayload), Option.bind_some,
    payloadSequence_cursorPayload hsequence hpayload]
  split_ifs <;> rfl

/-- The codec writes the cursor for a tenant and a sequence that it accepts. -/
def Written (platform : CursorPlatform) (codec : ReplayCursorCodec) (tenantId : String) (sequence : ℤ)
    (cursor : String) : Prop :=
  tenantId ≠ "" ∧ 0 ≤ sequence ∧ newCursor platform codec tenantId sequence = some cursor

theorem Written.injective {tenantId tenantId' cursor : String} {sequence sequence' : ℤ}
    (h : Written platform codec tenantId sequence cursor)
    (h' : Written platform codec tenantId' sequence' cursor) :
    tenantId = tenantId' ∧ sequence = sequence' := by
  obtain ⟨-, hsequence, hcursor⟩ := h
  obtain ⟨-, hsequence', hcursor'⟩ := h'
  have hdecode := decode_newCursor hsequence hcursor tenantId
  rw [if_pos rfl, decode_newCursor hsequence' hcursor'] at hdecode
  split_ifs at hdecode with htenant
  cases hdecode
  exact ⟨htenant.symm, rfl⟩

/-- Whoever holds the digest of a payload under the key has it from the codec. -/
def Unforged (platform : CursorPlatform) (codec : ReplayCursorCodec) (cursor : String) : Prop :=
  ∀ payload, rawCursor cursor = some (signed platform codec payload) →
    ∃ tenantId sequence, tenantId ≠ "" ∧ 0 ≤ sequence ∧ cursorPayload tenantId sequence = some payload

theorem signed_injective : Function.Injective (signed platform codec) := by
  intro payload payload' h
  have hlength (payload : List UInt8) : (46 :: platform.hmacSha256 codec.secret payload).length = 33 := by
    rw [List.length_cons, platform.hmacSha256_length]
  exact (List.append_inj' h ((hlength payload).trans (hlength payload').symm)).1

theorem unforged_of_raw
    (htenant : tenantId ≠ "") (hsequence : 0 ≤ sequence) (hpayload : cursorPayload tenantId sequence = some payload)
    (hraw : rawCursor cursor = some (signed platform codec payload)) : Unforged platform codec cursor := by
  intro payload' hraw'
  have hsame := signed_injective (Option.some_inj.mp (hraw.symm.trans hraw'))
  exact ⟨tenantId, sequence, htenant, hsequence, hsame ▸ hpayload⟩

theorem decode_ok {cursor tenantId : String}
    (h : codec.decode platform cursor tenantId = .ok sequence) :
    ∃ payload, rawCursor cursor = some (signed platform codec payload) ∧
      payloadSequence platform payload tenantId = some sequence := by
  unfold ReplayCursorCodec.decode at h
  split at h
  · next decoded hdecoded =>
      cases h
      obtain ⟨payload, hpayload, hsequence⟩ := Option.bind_eq_some_iff.mp hdecoded
      obtain ⟨raw, hraw, hverified⟩ := Option.bind_eq_some_iff.mp hpayload
      exact ⟨payload, signed_of_verifiedPayload hverified ▸ hraw, hsequence⟩
  · cases h

theorem written_iff_canonical {cursor tenantId : String}
    (hunforged : Unforged platform codec cursor)
    (h : codec.decode platform cursor tenantId = .ok sequence) :
    (∃ tenantId sequence, Written platform codec tenantId sequence cursor)
      ↔ Base64.canonical cursor.toList = true := by
  obtain ⟨payload, hraw, -⟩ := decode_ok h
  obtain ⟨tenantId', sequence', htenant, hsequence, hpayload⟩ := hunforged payload hraw
  have hdecode : Base64.decode (Base64.pad cursor.toList) = some (signed platform codec payload) := by
    unfold rawCursor at hraw
    split_ifs at hraw
    exact hraw
  constructor
  · rintro ⟨tenant, number, -, -, hcursor⟩
    obtain ⟨payload', -, rfl, -⟩ := rawCursor_newCursor hcursor
    rw [String.toList_ofList]
    exact Base64.canonical_unpadded _
  · intro hcanonical
    refine ⟨tenantId', sequence', htenant, hsequence, ?_⟩
    unfold newCursor
    rw [hpayload, Option.map_some, ← (Base64.eq_unpadded_iff hdecode).mpr hcanonical, String.ofList_toList]

/-! ### The kept cursors -/

/-- The cursors kept are those that the codec writes. -/
def Sound (platform : CursorPlatform) (codec : ReplayCursorCodec) (encoded : CursorCache) : Prop :=
  ∀ tenantId sequence cursor, encoded.lookup (tenantId, sequence) = some cursor →
    newCursor platform codec tenantId sequence = some cursor

inductive CursorCall where
  | encode (tenantId : String) (sequence : ℤ)
  | decode (cursor tenantId : String)

/-- What a call returns. -/
inductive CursorAnswer where
  | cursor (result : Except Exn String)
  | sequence (result : Except Exn ℤ)

def CursorCall.run (platform : CursorPlatform) (codec : ReplayCursorCodec) (encoded : CursorCache) :
    CursorCall → CursorAnswer × CursorCache
  | encode tenantId sequence =>
    let (result, encoded) := codec.encode platform encoded tenantId sequence
    (.cursor result, encoded)
  | decode cursor tenantId => (.sequence (codec.decode platform cursor tenantId), encoded)

/-- The cursors kept after some calls. -/
def cacheAfter (platform : CursorPlatform) (codec : ReplayCursorCodec) (calls : List CursorCall) :
    CursorCache :=
  calls.foldl (fun encoded call => (call.run platform codec encoded).2) ∅

theorem sound_empty : Sound platform codec ∅ := by
  intro tenantId sequence cursor h
  cases h

variable {encoded : CursorCache}

theorem Sound.insert (h : Sound platform codec encoded)
    (hcursor : newCursor platform codec tenantId sequence = some cursor) :
    Sound platform codec (encoded.insert (tenantId, sequence) cursor) := by
  intro tenantId' sequence' cursor' hlookup
  by_cases hkey : (tenantId', sequence') = (tenantId, sequence)
  · rw [hkey, AList.lookup_insert] at hlookup
    cases hkey
    cases hlookup
    exact hcursor
  · rw [AList.lookup_insert_ne hkey] at hlookup
    exact h tenantId' sequence' cursor' hlookup

theorem Sound.keepNewest (h : Sound platform codec encoded) (n : ℕ) :
    Sound platform codec (OrderedDict.keepNewest n encoded) := by
  intro tenantId sequence cursor hlookup
  exact h tenantId sequence cursor (OrderedDict.lookup_of_sublist (List.take_sublist n _) hlookup)

theorem Sound.encode (h : Sound platform codec encoded) (tenantId : String)
    (sequence : ℤ) :
    (codec.encode platform encoded tenantId sequence).1 = (codec.encode platform ∅ tenantId sequence).1 ∧
      Sound platform codec (codec.encode platform encoded tenantId sequence).2 := by
  unfold ReplayCursorCodec.encode
  rw [AList.lookup_empty]
  split_ifs with hrefused
  · exact ⟨rfl, h⟩
  · cases hlookup : encoded.lookup (tenantId, sequence) with
    | some cursor =>
      have hcursor := h tenantId sequence cursor hlookup
      rw [hcursor]
      exact ⟨rfl, h.insert hcursor⟩
    | none =>
      cases hcursor : newCursor platform codec tenantId sequence with
      | none => exact ⟨rfl, h⟩
      | some cursor => exact ⟨rfl, (h.insert hcursor).keepNewest codec.cacheSize⟩

theorem Sound.run (h : Sound platform codec encoded) (call : CursorCall) :
    (call.run platform codec encoded).1 = (call.run platform codec ∅).1 ∧
      Sound platform codec (call.run platform codec encoded).2 := by
  cases call with
  | encode tenantId sequence =>
    obtain ⟨hresult, hsound⟩ := h.encode tenantId sequence
    exact ⟨congrArg CursorAnswer.cursor hresult, hsound⟩
  | decode cursor tenantId => exact ⟨rfl, h⟩

theorem sound_cacheAfter (calls : List CursorCall) : Sound platform codec (cacheAfter platform codec calls) := by
  induction calls using List.reverseRecOn with
  | nil => exact sound_empty
  | append_singleton calls call ih =>
    unfold cacheAfter
    rw [List.foldl_append]
    exact (ih.run call).2

theorem encode_ok_iff (h : Sound platform codec encoded) :
    (codec.encode platform encoded tenantId sequence).1 = .ok cursor
      ↔ Written platform codec tenantId sequence cursor := by
  rw [(h.encode tenantId sequence).1]
  unfold ReplayCursorCodec.encode Written
  rw [AList.lookup_empty]
  split_ifs with hrefused
  · constructor
    · intro hok
      cases hok
    · rintro ⟨htenant, hsequence, -⟩
      exact absurd hrefused (not_or.mpr ⟨htenant, not_lt.mpr hsequence⟩)
  · obtain ⟨htenant, hsequence⟩ := not_or.mp hrefused
    cases hcursor : newCursor platform codec tenantId sequence with
    | none =>
      constructor
      · intro hok
        cases hok
      · rintro ⟨-, -, hsome⟩
        cases hsome
    | some written =>
      constructor
      · intro hok
        cases hok
        exact ⟨htenant, not_lt.mp hsequence, rfl⟩
      · rintro ⟨-, -, hsome⟩
        cases hsome
        rfl

/-- **Replay cursors.** After any calls, the cursor written for a tenant and a sequence gives the sequence to
the tenant and is refused for every other one; no two are written alike; every call answers as it would have
first.  A cursor read is one that is written exactly when its text is canonical. -/
theorem cursor_contract {cursor : String} (hunforged : Unforged platform codec cursor) (calls : List CursorCall) :
    (∀ tenantId sequence written,
      (codec.encode platform (cacheAfter platform codec calls) tenantId sequence).1 = .ok written →
        (∀ tenantId', codec.decode platform written tenantId'
          = if tenantId = tenantId' then .ok sequence else .error cursorInvalid) ∧
        ∀ tenantId' sequence',
          (codec.encode platform (cacheAfter platform codec calls) tenantId' sequence').1 = .ok written →
            tenantId = tenantId' ∧ sequence = sequence') ∧
    (∀ call : CursorCall,
      (call.run platform codec (cacheAfter platform codec calls)).1 = (call.run platform codec ∅).1) ∧
    ∀ tenantId sequence, codec.decode platform cursor tenantId = .ok sequence →
      ((∃ tenantId sequence,
        (codec.encode platform (cacheAfter platform codec calls) tenantId sequence).1 = .ok cursor)
          ↔ Base64.canonical cursor.toList = true) := by
  have hsound := @sound_cacheAfter platform codec calls
  refine ⟨fun tenantId sequence written hwritten => ?_, fun call => (hsound.run call).1, fun _ _ hdecode => ?_⟩
  · rw [encode_ok_iff hsound] at hwritten
    refine ⟨decode_newCursor hwritten.2.1 hwritten.2.2, fun tenantId' sequence' hwritten' => ?_⟩
    rw [encode_ok_iff hsound] at hwritten'
    exact hwritten.injective hwritten'
  · simp only [encode_ok_iff hsound]
    exact written_iff_canonical hunforged hdecode

/-! ### A cursor and a tampered one -/

/-- HMAC-SHA256 of `tenant-a:1` under the key of `sampleCodec`, for every payload. -/
def sampleCursorPlatform : CursorPlatform where
  hmacSha256 _ _ := [250, 234, 174, 109, 14, 172, 95, 87, 161, 124, 155, 93, 167, 255, 86, 196, 8, 227, 154, 156,
    141, 245, 78, 197, 13, 237, 176, 244, 78, 142, 72, 8]
  hmacSha256_length _ _ := rfl
  isSpace _ := false
  decimal _ := none

/-- `ReplayCursorCodec(b"x" * 32)`. -/
def sampleCodec : ReplayCursorCodec where
  secret := List.replicate 32 120
  cacheSize := 8192
  secret_length := by simp
  cacheSize_bounds := ⟨by omega, by omega⟩

/-- The cursor of `tenant-a` and 1. -/
def writtenCursor : String := "dGVuYW50LWE6MS766q5tDqxfV6F8m12n_1bECOOanI31TsUN7bD0To5ICA"

/-- The same with another last character. -/
def tamperedCursor : String := "dGVuYW50LWE6MS766q5tDqxfV6F8m12n_1bECOOanI31TsUN7bD0To5ICB"

def samplePayload : List UInt8 := [116, 101, 110, 97, 110, 116, 45, 97, 58, 49]

theorem cursorPayload_sample : cursorPayload "tenant-a" 1 = some samplePayload := by decide +kernel

theorem rawCursor_sample :
    rawCursor writtenCursor = some (signed sampleCursorPlatform sampleCodec samplePayload) ∧
    rawCursor tamperedCursor = some (signed sampleCursorPlatform sampleCodec samplePayload) := by decide +kernel

theorem cursor_contract_tenant :
    newCursor sampleCursorPlatform sampleCodec "tenant-a" 1 = some writtenCursor ∧
      ∀ tenantId sequence, sampleCodec.decode sampleCursorPlatform writtenCursor tenantId = .ok sequence →
        ((∃ tenantId sequence, (sampleCodec.encode sampleCursorPlatform
          (cacheAfter sampleCursorPlatform sampleCodec [.encode "tenant-b" 7]) tenantId sequence).1
            = .ok writtenCursor) ↔ Base64.canonical writtenCursor.toList = true) :=
  ⟨by decide +kernel, (cursor_contract (unforged_of_raw (by decide) (by decide) cursorPayload_sample
    rawCursor_sample.1) [.encode "tenant-b" 7]).2.2⟩

/-- **Tampered cursors are read.** The last character of a written cursor is replaced by one that the codec
never puts there, and the cursor still gives the sequence. -/
theorem tampered_cursor_read :
    Unforged sampleCursorPlatform sampleCodec tamperedCursor ∧
      sampleCodec.decode sampleCursorPlatform tamperedCursor "tenant-a" = .ok 1 ∧
      ∀ calls tenantId sequence, (sampleCodec.encode sampleCursorPlatform
        (cacheAfter sampleCursorPlatform sampleCodec calls) tenantId sequence).1 ≠ .ok tamperedCursor := by
  have hunforged := unforged_of_raw (by decide) (by decide) cursorPayload_sample rawCursor_sample.2
  have hdecode : sampleCodec.decode sampleCursorPlatform tamperedCursor "tenant-a" = .ok 1 := by
    unfold ReplayCursorCodec.decode
    rw [rawCursor_sample.2, Option.bind_some, verifiedPayload_signed (by decide), Option.bind_some,
      payloadSequence_cursorPayload (by decide) cursorPayload_sample]
    rfl
  refine ⟨hunforged, hdecode, fun calls tenantId sequence hwritten => ?_⟩
  rw [encode_ok_iff (sound_cacheAfter calls)] at hwritten
  have hcanonical := (written_iff_canonical hunforged hdecode).mp ⟨tenantId, sequence, hwritten⟩
  revert hcanonical
  decide +kernel

end CyberControl.Streaming
