import CyberControl.Division
import CyberControl.Errors
import Mathlib.Data.String.Basic

/-! # Chunks of a streamed text

`split_utf8_safely` and `make_text_chunks` (`streaming/sse.py`) and the contract `SSEChunkV1`
with its validators (`contracts-python/topic3.py`), under the model-wide configuration
`FROZEN_MODEL_CONFIG`, which strips white space from both ends of every string field before the
field is checked. -/

namespace CyberControl.Streaming

open Division

/-! ### Splitting -/

/-- What the chunk functions raise: a `ValueError`, or the contract's `ValidationError` with the
location and the kind (or text) of each error. -/
inductive ChunkExn where
  | valueError (text : String)
  | validationError (errors : List (String × String))
deriving DecidableEq

/-- `chunks`, `current` and `current_size` of the loop. -/
structure SplitState where
  chunks : List String := []
  current : List Char := []
  currentSize : ℕ := 0

/-- The body of the loop over the characters. -/
def splitStep (maxBytes : ℕ) (s : SplitState) (character : Char) : SplitState :=
  let encodedSize := character.utf8Size
  let s :=
    if s.current ≠ [] ∧ s.currentSize + encodedSize > maxBytes then
      { chunks := s.chunks ++ [String.ofList s.current] }
    else s
  { s with current := s.current ++ [character], currentSize := s.currentSize + encodedSize }

/-- The chunks after the loop. -/
def SplitState.finish (s : SplitState) : List String :=
  if s.current ≠ [] then s.chunks ++ [String.ofList s.current] else s.chunks

def splitUtf8Safely (text : String) (maxBytes : ℕ) : Except ChunkExn (List String) :=
  if maxBytes < 4 then .error (.valueError "max_bytes must be at least four")
  else if text = "" then .ok [""]
  else .ok (text.toList.foldl (splitStep maxBytes) {}).finish

/-! ### The contract -/

/-- A `UUID`, as its integer. -/
abbrev UUID := ℕ

def isHexDigit (c : Char) : Bool := "0123456789abcdef".toList.contains c

/-- What the chunk code takes from outside: the characters that `str_strip_whitespace` strips,
the SHA-256 digest of a text in UTF-8, and the identifiers and times of successive calls of
`uuid4` and `datetime.now`. -/
structure Runtime where
  isSpace : Char → Bool
  sha256Hex : String → String
  uuid4 : ℕ → UUID
  now : ℕ → ℕ
  isSpace_hexDigit : ∀ c, isHexDigit c → isSpace c = false
  sha256Hex_length : ∀ s, (sha256Hex s).length = 64
  sha256Hex_hexDigit : ∀ s, ∀ c ∈ (sha256Hex s).toList, isHexDigit c
  uuid4_injective : Function.Injective uuid4

inductive StreamFragmentType where
  | START
  | DELTA
  | END
  | SNAPSHOT
deriving DecidableEq, Repr

structure SSEChunkV1 where
  schemaVersion : String
  streamId : UUID
  fragmentId : UUID
  candidateId : UUID
  candidateVersion : ℤ
  blockId : Option String
  fragmentType : StreamFragmentType
  chunkIndex : ℕ
  isFinal : Bool
  dataEncoding : String
  data : String
  dataSha256 : String
  emittedAt : ℕ
deriving DecidableEq

variable (rt : Runtime)

/-- `str_strip_whitespace`, on one string. -/
def strip (s : String) : String := String.ofList (trim rt.isSpace s.toList)

/-- `str_strip_whitespace`, on the `str` fields of a chunk. -/
def SSEChunkV1.stripped (c : SSEChunkV1) : SSEChunkV1 :=
  { c with blockId := c.blockId.map (strip rt), data := strip rt c.data, dataSha256 := strip rt c.dataSha256 }

/-- The errors of `Sha256Hex`: the first constraint that fails. -/
def sha256HexErrors (location : String) (s : String) : List (String × String) :=
  if 64 < s.length then [(location, "string_too_long")]
  else if s.length < 64 then [(location, "string_too_short")]
  else if s.toList.all isHexDigit then []
  else [(location, "string_pattern_mismatch")]

def check (p : Prop) [Decidable p] (location kind : String) : List (String × String) :=
  if p then [] else [(location, kind)]

def SSEChunkV1.fieldErrors (c : SSEChunkV1) : List (String × String) :=
  check (c.schemaVersion = "topic3.sse-chunk.v1") "schema_version" "literal_error" ++
  check (1 ≤ c.candidateVersion) "candidate_version" "greater_than_equal" ++
  check (∀ b ∈ c.blockId, b.length ≤ 128) "block_id" "string_too_long" ++
  check (c.dataEncoding ∈ ["utf-8-json", "utf-8-text"]) "data_encoding" "literal_error" ++
  check (c.data.length ≤ 65536) "data" "string_too_long" ++
  sha256HexErrors "data_sha256" c.dataSha256

def SSEChunkV1.validateFragment (c : SSEChunkV1) : Except ChunkExn Unit :=
  let digest := rt.sha256Hex c.data
  if digest ≠ c.dataSha256 then
    .error (.validationError [("", "data_sha256 does not match the exact UTF-8 data bytes")])
  else if c.fragmentType = .START ∧ c.chunkIndex ≠ 0 then
    .error (.validationError [("", "START fragments must use chunk_index zero")])
  else if c.fragmentType = .END ∧ ¬ c.isFinal then
    .error (.validationError [("", "END fragments must be final")])
  else if c.isFinal ∧ c.fragmentType ∉ [.END, .SNAPSHOT] then
    .error (.validationError [("", "final fragments must be END or SNAPSHOT")])
  else .ok ()

/-- The constructor `SSEChunkV1(...)`: the string fields are stripped, then checked, then
`validate_fragment` runs. -/
def SSEChunkV1.construct (c : SSEChunkV1) : Except ChunkExn SSEChunkV1 :=
  let c := c.stripped rt
  if c.fieldErrors ≠ [] then .error (.validationError c.fieldErrors)
  else do
    c.validateFragment rt
    return c

/-! ### Making the chunks -/

/-- The arguments of `make_text_chunks` besides the text, as the contract of a candidate bounds
them: its version is positive, and a block identity is stripped and has at most 128 characters. -/
structure StreamIdentity where
  streamId : UUID
  candidateId : UUID
  candidateVersion : ℤ
  blockId : Option String
  version_pos : 1 ≤ candidateVersion
  blockId_stripped : ∀ b ∈ blockId, strip rt b = b
  blockId_length : ∀ b ∈ blockId, b.length ≤ 128

/-- The fragment type and finality at an index of so many fragments. -/
def fragmentPlace (index count : ℕ) : StreamFragmentType × Bool :=
  if count = 1 then (.SNAPSHOT, true)
  else if index = 0 then (.START, false)
  else if index = count - 1 then (.END, true)
  else (.DELTA, false)

variable {rt} (identity : StreamIdentity rt)

/-- The arguments given to `SSEChunkV1` for one fragment. -/
def chunkArguments (count : ℕ) (data : String) (index : ℕ) : SSEChunkV1 where
  schemaVersion := "topic3.sse-chunk.v1"
  streamId := identity.streamId
  fragmentId := rt.uuid4 index
  candidateId := identity.candidateId
  candidateVersion := identity.candidateVersion
  blockId := identity.blockId
  fragmentType := (fragmentPlace index count).1
  chunkIndex := index
  isFinal := (fragmentPlace index count).2
  dataEncoding := "utf-8-text"
  data := data
  dataSha256 := rt.sha256Hex data
  emittedAt := rt.now index

def makeTextChunks (text : String) (maxBytes : ℕ) : Except ChunkExn (List SSEChunkV1) := do
  let fragments ← splitUtf8Safely text maxBytes
  fragments.zipIdx.mapM fun (data, index) =>
    (chunkArguments identity fragments.length data index).construct rt

/-! ### The fragments are the greedy division -/

theorem total_utf8Size (l : List Char) : total Char.utf8Size l = (String.ofList l).utf8ByteSize := by
  induction l with
  | nil => rfl
  | cons c l ih =>
    rw [total_cons, ih]
    simp [String.ofList_cons]

variable {maxBytes : ℕ}

theorem splitStep_full {s : SplitState} {c : Char} (hne : s.current ≠ [])
    (hfull : maxBytes < s.currentSize + c.utf8Size) :
    splitStep maxBytes s c = ⟨s.chunks ++ [String.ofList s.current], [c], c.utf8Size⟩ := by
  simp [splitStep, hne, hfull]

theorem splitStep_fits {s : SplitState} {c : Char}
    (hfits : s.current = [] ∨ s.currentSize + c.utf8Size ≤ maxBytes) :
    splitStep maxBytes s c =
      ⟨s.chunks, s.current ++ [c], s.currentSize + c.utf8Size⟩ := by
  have h : ¬ (s.current ≠ [] ∧ s.currentSize + c.utf8Size > maxBytes) := by
    rintro ⟨hne, hgt⟩
    rcases hfits with hnil | hle
    · exact hne hnil
    · omega
  rw [splitStep, if_neg h]

/-- What the loop adds to `chunks` is the greedy division of what it has not yet put there. -/
theorem foldl_splitStep (hmin : 4 ≤ maxBytes) (text : List Char) (s : SplitState)
    (hne : s.current ≠ []) (hsize : s.currentSize = total Char.utf8Size s.current)
    (hle : s.currentSize ≤ maxBytes) :
    ∃ pieces, (text.foldl (splitStep maxBytes) s).finish = s.chunks ++ pieces.map String.ofList ∧
      Greedy Char.utf8Size maxBytes (s.current ++ text) pieces := by
  induction text generalizing s with
  | nil =>
    refine ⟨[s.current], by simp [SplitState.finish, hne], ?_⟩
    exact .cons hne (hsize ▸ hle) (by simp) .nil
  | cons c text ih =>
    have hc := c.utf8Size_le_four
    rw [List.foldl_cons]
    by_cases hfull : maxBytes < s.currentSize + c.utf8Size
    · rw [splitStep_full hne hfull]
      obtain ⟨pieces, hpieces, hgreedy⟩ :=
        ih ⟨s.chunks ++ [String.ofList s.current], [c], c.utf8Size⟩ (by simp) (by simp)
          (by simp only; omega)
      refine ⟨s.current :: pieces, ?_, .cons hne (hsize ▸ hle) ?_ hgreedy⟩
      · rw [hpieces]
        simp
      · simpa [← hsize] using hfull
    · rw [splitStep_fits (.inr (by omega))]
      obtain ⟨pieces, hpieces, hgreedy⟩ :=
        ih ⟨s.chunks, s.current ++ [c], s.currentSize + c.utf8Size⟩ (by simp) (by simp [hsize])
          (by simp only; omega)
      exact ⟨pieces, hpieces, by simpa using hgreedy⟩

/-- **The fragments of a nonempty text are its greedy division.** -/
theorem splitUtf8Safely_greedy {text : String} (hmin : 4 ≤ maxBytes)
    (hne : text ≠ "") :
    ∃ pieces, splitUtf8Safely text maxBytes = .ok (pieces.map String.ofList) ∧
      Greedy Char.utf8Size maxBytes text.toList pieces := by
  obtain ⟨c, rest, htext⟩ : ∃ c rest, text.toList = c :: rest := by
    refine List.exists_cons_of_ne_nil fun h => hne ?_
    rw [← String.ofList_toList (s := text), h]
  have hc := c.utf8Size_le_four
  have hfirst : splitStep maxBytes {} c = ⟨[], [c], c.utf8Size⟩ := by
    rw [splitStep_fits (.inl rfl)]
    simp
  obtain ⟨pieces, hpieces, hgreedy⟩ := foldl_splitStep hmin rest ⟨[], [c], c.utf8Size⟩
    (by simp) (by simp) (by simp only; omega)
  refine ⟨pieces, ?_, by simpa [htext] using hgreedy⟩
  rw [splitUtf8Safely, if_neg (by omega), if_neg hne, htext, List.foldl_cons, hfirst, hpieces]
  simp

/-- Neither the first nor the last character of a piece is white space. -/
def CleanEdges (isSpace : Char → Bool) (piece : List Char) : Prop :=
  (∀ c ∈ piece.head?, isSpace c = false) ∧ ∀ c ∈ piece.getLast?, isSpace c = false

/-- No piece of the division of the text into pieces of at most `maxBytes` bytes begins or ends
with white space. -/
def CleanDivision (isSpace : Char → Bool) (maxBytes : ℕ) (text : String) : Prop :=
  ∃ pieces, Greedy Char.utf8Size maxBytes text.toList pieces ∧ ∀ piece ∈ pieces, CleanEdges isSpace piece

theorem strip_eq_self {s : String} : strip rt s = s ↔ CleanEdges rt.isSpace s.toList := by
  rw [CleanEdges, ← trim_eq_self, strip, ← String.toList_inj, String.toList_ofList]

theorem length_strip_le (s : String) : (strip rt s).length ≤ s.length := by
  rw [strip, String.length_ofList, ← String.length_toList]
  exact trim_sublist.length_le

theorem strip_eq_self_of_length {s : String} (h : s.length ≤ (strip rt s).length) :
    strip rt s = s := by
  by_contra hne
  have htrim : trim rt.isSpace s.toList ≠ s.toList := fun h => hne (by rw [strip, h, String.ofList_toList])
  have := length_trim_lt htrim
  rw [strip, String.length_ofList, ← String.length_toList] at h
  omega

theorem strip_sha256Hex (s : String) : strip rt (rt.sha256Hex s) = rt.sha256Hex s := by
  have hspace : ∀ c ∈ (rt.sha256Hex s).toList, rt.isSpace c = false := fun c hc =>
    rt.isSpace_hexDigit c (rt.sha256Hex_hexDigit s c hc)
  exact strip_eq_self.mpr ⟨fun c hc => hspace c (List.mem_of_mem_head? hc),
    fun c hc => hspace c (List.mem_of_mem_getLast? hc)⟩

/-- What is used of the fragments of a text. -/
structure Fragments (rt : Runtime) (text : String) (maxBytes : ℕ) (fragments : List String) :
    Prop where
  ne_nil : fragments ≠ []
  join_eq : String.join fragments = text
  size_le : ∀ fragment ∈ fragments, fragment.utf8ByteSize ≤ maxBytes
  stripped_iff : (∀ fragment ∈ fragments, strip rt fragment = fragment) ↔
    CleanDivision rt.isSpace maxBytes text

theorem splitUtf8Safely_fragments (hmin : 4 ≤ maxBytes) (text : String) :
    ∃ fragments, splitUtf8Safely text maxBytes = .ok fragments ∧
      Fragments rt text maxBytes fragments := by
  by_cases htext : text = ""
  · subst htext
    refine ⟨[""], by rw [splitUtf8Safely, if_neg (by omega), if_pos rfl], ?_⟩
    refine ⟨by simp, rfl, by simp, ?_⟩
    have hstrip : strip rt "" = "" := strip_eq_self.mpr ⟨by simp, by simp⟩
    simp only [List.mem_singleton, forall_eq, hstrip, true_iff]
    exact ⟨[], .nil, by simp⟩
  · obtain ⟨pieces, hsplit, hgreedy⟩ := splitUtf8Safely_greedy hmin htext
    refine ⟨_, hsplit, ?_, ?_, ?_, ?_⟩
    · intro hnil
      have hflat := hgreedy.flatten_eq
      rw [List.map_eq_nil_iff.mp hnil] at hflat
      exact htext (String.toList_inj.mp (by simpa using hflat.symm))
    · rw [← String.toList_inj, String.toList_join, ← hgreedy.flatten_eq]
      simp [List.flatMap_map, List.flatMap_id']
    · simp only [List.mem_map]
      rintro _ ⟨piece, hp, rfl⟩
      rw [← total_utf8Size]
      exact hgreedy.total_le piece hp
    · simp only [List.forall_mem_map, strip_eq_self, String.toList_ofList]
      constructor
      · exact fun h => ⟨pieces, hgreedy, h⟩
      · rintro ⟨pieces', hgreedy', h⟩
        rwa [hgreedy.unique hgreedy']

/-! ### The chunks -/

theorem length_le_utf8ByteSize (s : String) : s.length ≤ s.utf8ByteSize := by
  rw [← String.ofList_toList (s := s), ← total_utf8Size, String.length_ofList]
  induction s.toList with
  | nil => exact Nat.le_refl 0
  | cons c l ih =>
    have := c.utf8Size_pos
    rw [List.length_cons, total_cons]
    omega

variable {data : String} {count : ℕ} {index : ℕ}

theorem fieldErrors_stripped (hdata : data.length ≤ 65536) :
    ((chunkArguments identity count data index).stripped rt).fieldErrors = [] := by
  have hdata' : (strip rt data).length ≤ 65536 := (length_strip_le data).trans hdata
  have hblock : ∀ b, identity.blockId = some b → (strip rt b).length ≤ 128 := by
    intro b hb
    rw [identity.blockId_stripped b hb]
    exact identity.blockId_length b hb
  have hsha : sha256HexErrors "data_sha256" (strip rt (rt.sha256Hex data)) = [] := by
    rw [strip_sha256Hex, sha256HexErrors, rt.sha256Hex_length]
    simpa using rt.sha256Hex_hexDigit data
  have hversion := identity.version_pos
  simpa [SSEChunkV1.fieldErrors, SSEChunkV1.stripped, chunkArguments, hsha, check, hdata', hversion]
    using hblock

def storedChunk (count : ℕ) (data : String) (index : ℕ) : SSEChunkV1 :=
  { chunkArguments identity count data index with data := strip rt data }

theorem stripped_chunkArguments :
    (chunkArguments identity count data index).stripped rt = storedChunk identity count data index := by
  have hblock : identity.blockId.map (strip rt) = identity.blockId := by
    cases hb : identity.blockId with
    | none => rfl
    | some b => exact congrArg some (identity.blockId_stripped b hb)
  simp only [SSEChunkV1.stripped, storedChunk, chunkArguments, hblock, strip_sha256Hex]

/-- The only validator that can fail on a fragment is the one of the digest. -/
theorem construct_chunkArguments (hdata : data.length ≤ 65536) :
    (chunkArguments identity count data index).construct rt =
      if rt.sha256Hex (strip rt data) = rt.sha256Hex data then
        .ok (storedChunk identity count data index)
      else .error (.validationError [("", "data_sha256 does not match the exact UTF-8 data bytes")]) := by
  rw [SSEChunkV1.construct, fieldErrors_stripped identity hdata, if_neg (by simp),
    stripped_chunkArguments]
  by_cases hsha : rt.sha256Hex (strip rt data) = rt.sha256Hex data
  · have hvalid : (storedChunk identity count data index).validateFragment rt = .ok () := by
      simp only [SSEChunkV1.validateFragment, storedChunk, chunkArguments, hsha, fragmentPlace]
      split_ifs <;> simp_all
    rw [if_pos hsha, hvalid]
    rfl
  · have hvalid : (storedChunk identity count data index).validateFragment rt =
        .error (.validationError [("", "data_sha256 does not match the exact UTF-8 data bytes")]) := by
      rw [SSEChunkV1.validateFragment]
      exact if_pos hsha
    rw [if_neg hsha, hvalid]
    rfl

/-- The chunks of some fragments, as the contract stores them. -/
def storedChunks (fragments : List String) : List SSEChunkV1 :=
  fragments.zipIdx.map fun (data, index) => storedChunk identity fragments.length data index

theorem Fragments.length_le {text : String} {fragments : List String}
    (h : Fragments rt text maxBytes fragments) (hmax : maxBytes ≤ 65536) :
    ∀ fragment ∈ fragments, fragment.length ≤ 65536 := fun fragment hf =>
  (length_le_utf8ByteSize fragment).trans ((h.size_le fragment hf).trans hmax)

section make
variable {text : String} {maxBytes : ℕ} {fragments : List String} (hmax : maxBytes ≤ 65536)
  (hsplit : splitUtf8Safely text maxBytes = .ok fragments)
  (hfragments : Fragments rt text maxBytes fragments)
include hmax hsplit hfragments

theorem makeTextChunks_ok {chunks : List SSEChunkV1}
    (h : makeTextChunks identity text maxBytes = .ok chunks) :
    chunks = storedChunks identity fragments := by
  rw [makeTextChunks, hsplit] at h
  refine mapM_ok (fun a ha b hb => ?_) h
  obtain ⟨data, index⟩ := a
  have hmem : data ∈ fragments := List.fst_mem_of_mem_zipIdx ha
  dsimp only at hb ⊢
  rw [construct_chunkArguments identity (hfragments.length_le hmax data hmem)] at hb
  split at hb <;> cases hb
  rfl

theorem makeTextChunks_of_stripped (h : ∀ fragment ∈ fragments, strip rt fragment = fragment) :
    makeTextChunks identity text maxBytes = .ok (storedChunks identity fragments) := by
  rw [makeTextChunks, hsplit]
  refine mapM_of_ok fun a ha => ?_
  obtain ⟨data, index⟩ := a
  have hmem : data ∈ fragments := List.fst_mem_of_mem_zipIdx ha
  dsimp only
  rw [construct_chunkArguments identity (hfragments.length_le hmax data hmem), h data hmem,
    if_pos rfl]

end make

end CyberControl.Streaming
