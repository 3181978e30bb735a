import CyberControl.StreamChunkAssembler

/-! # When a chunked text comes back

The contract strips white space from `data` before it compares the digest of the exact bytes, so
a fragment with white space at an edge is refused. -/

namespace CyberControl.Streaming

open Division

variable {rt : Runtime} (identity : StreamIdentity rt)

def StreamIdentity.streamKey : StreamKey :=
  (identity.streamId, identity.candidateId, identity.candidateVersion, identity.blockId)

/-- The text is divided into chunks of at most `maxBytes` bytes, and every sequence of these
chunks that contains each of them is accepted by an assembler that has room for the stream and
has not seen it, which then returns the text. -/
def RoundTrips (text : String) (maxBytes : ℕ) : Prop :=
  ∃ chunks, makeTextChunks identity text maxBytes = .ok chunks ∧
    (∀ c ∈ chunks, c.data.utf8ByteSize ≤ maxBytes) ∧
    ∀ (a : SSEChunkAssembler) (deliveries : List SSEChunkV1),
      a.states.lookup identity.streamKey = none → chunks.length ≤ a.maxGapBuffer →
      (∀ c ∈ deliveries, c ∈ chunks) → (∀ c ∈ chunks, c ∈ deliveries) →
      (∀ result ∈ (a.addAll deliveries).1, result.isOk = true) ∧
        (a.addAll deliveries).2.assembledText identity.streamKey = .ok text

/-! ### The chunks form a stream -/

variable {identity} {fragments : List String}

@[simp] theorem length_storedChunks : (storedChunks identity fragments).length = fragments.length := by
  simp [storedChunks]

theorem storedChunks_getElem? {i : ℕ} {c : SSEChunkV1}
    (h : (storedChunks identity fragments)[i]? = some c) :
    i < fragments.length ∧ ∃ data, c = storedChunk identity fragments.length data i := by
  have hi : i < (storedChunks identity fragments).length := (List.getElem?_eq_some_iff.mp h).1
  refine ⟨by simpa using hi, ?_⟩
  simp only [storedChunks, List.getElem?_map, List.getElem?_zipIdx, Option.map_map,
    Option.map_eq_some_iff, Function.comp_apply, Nat.zero_add] at h
  obtain ⟨data, -, rfl⟩ := h
  exact ⟨data, rfl⟩

theorem fragmentPlace_type {i count : ℕ} (hi : i < count) :
    (fragmentPlace i count).1 ∈ [StreamFragmentType.START, .SNAPSHOT] ↔ i = 0 := by
  unfold fragmentPlace
  split_ifs <;> simp <;> omega

theorem fragmentPlace_final {i count : ℕ} (hi : i < count) :
    (fragmentPlace i count).2 = true ↔ i + 1 = count := by
  unfold fragmentPlace
  split_ifs <;> simp <;> omega

theorem isStream_storedChunks (hne : fragments ≠ []) :
    IsStream identity.streamKey (storedChunks identity fragments) where
  ne_nil h := hne (by simpa [storedChunks] using h)
  streamKey c hc := by
    obtain ⟨i, hi⟩ := List.mem_iff_getElem?.mp hc
    obtain ⟨-, data, rfl⟩ := storedChunks_getElem? hi
    rfl
  chunkIndex i c hc := by
    obtain ⟨-, data, rfl⟩ := storedChunks_getElem? hc
    rfl
  fragmentId i j c d hc hd h := by
    obtain ⟨-, data, rfl⟩ := storedChunks_getElem? hc
    obtain ⟨-, data', rfl⟩ := storedChunks_getElem? hd
    exact rt.uuid4_injective h
  fragmentType i c hc := by
    obtain ⟨hi, data, rfl⟩ := storedChunks_getElem? hc
    exact fragmentPlace_type hi
  isFinal i c hc := by
    obtain ⟨hi, data, rfl⟩ := storedChunks_getElem? hc
    rw [length_storedChunks]
    exact fragmentPlace_final hi

theorem storedChunks_data :
    (storedChunks identity fragments).map SSEChunkV1.data = fragments.map (strip rt) := by
  rw [storedChunks, List.map_map]
  have hdata : (SSEChunkV1.data ∘ fun (x : String × ℕ) =>
      storedChunk identity fragments.length x.1 x.2) = strip rt ∘ Prod.fst := rfl
  show fragments.zipIdx.map (SSEChunkV1.data ∘ fun (x : String × ℕ) =>
    storedChunk identity fragments.length x.1 x.2) = _
  rw [hdata, ← List.map_map, List.zipIdx_map_fst]

/-! ### Stripping loses characters -/

theorem length_join_cons (s : String) (l : List String) :
    (String.join (s :: l)).length = s.length + (String.join l).length := by
  simp only [← String.length_toList, String.toList_join, List.flatMap_cons, List.length_append]

theorem length_join_strip_le (l : List String) :
    (String.join (l.map (strip rt))).length ≤ (String.join l).length := by
  induction l with
  | nil => exact Nat.le_refl _
  | cons s l ih =>
    have hs : (strip rt s).length ≤ s.length := length_strip_le s
    rw [List.map_cons, length_join_cons, length_join_cons]
    omega

theorem strip_eq_self_of_join {l : List String}
    (h : String.join (l.map (strip rt)) = String.join l) : ∀ s ∈ l, strip rt s = s := by
  have hlen := congrArg String.length h
  clear h
  induction l with
  | nil => simp
  | cons s l ih =>
    have hs : (strip rt s).length ≤ s.length := length_strip_le s
    have hl : (String.join (l.map (strip rt))).length ≤ (String.join l).length :=
      length_join_strip_le l
    rw [List.map_cons, length_join_cons, length_join_cons] at hlen
    intro x hx
    rcases List.mem_cons.mp hx with rfl | hx
    · exact strip_eq_self_of_length (by omega)
    · exact ih (by omega) x hx

/-! ### The round trip -/

/-- **A text comes back exactly when its division has no white space at the edges.** -/
theorem roundTrips_iff {text : String} {maxBytes : ℕ} (hmin : 4 ≤ maxBytes)
    (hmax : maxBytes ≤ 65536) :
    RoundTrips identity text maxBytes ↔ CleanDivision rt.isSpace maxBytes text := by
  obtain ⟨fragments, hsplit, hfragments⟩ : ∃ fragments, splitUtf8Safely text maxBytes = .ok fragments ∧
      Fragments rt text maxBytes fragments := splitUtf8Safely_fragments hmin text
  have hstream : IsStream identity.streamKey (storedChunks identity fragments) :=
    isStream_storedChunks hfragments.ne_nil
  rw [← hfragments.stripped_iff]
  constructor
  · rintro ⟨chunks, hmake, -, hdeliver⟩
    obtain rfl := makeTextChunks_ok identity hmax hsplit hfragments hmake
    have hpos : 1 ≤ (storedChunks identity fragments).length :=
      List.length_pos_iff.mpr hstream.ne_nil
    let a : SSEChunkAssembler := ⟨_, hpos, ∅⟩
    have htext := (hdeliver a (storedChunks identity fragments) rfl (le_refl _)
      (fun _ hc => hc) fun _ hc => hc).2
    have hdata := (SSEChunkAssembler.addAll_assembledText (a := a) hstream
      (fun _ hc => hc) (fun _ hc => hc) rfl (le_refl _)).2
    rw [htext, storedChunks_data, Except.ok.injEq] at hdata
    exact strip_eq_self_of_join (hdata.symm.trans hfragments.join_eq.symm)
  · intro hstrip
    have hdata : (storedChunks identity fragments).map SSEChunkV1.data = fragments := by
      rw [storedChunks_data]
      exact (List.map_congr_left hstrip).trans (List.map_id _)
    refine ⟨_, makeTextChunks_of_stripped identity hmax hsplit hfragments hstrip, ?_, ?_⟩
    · intro c hc
      exact hfragments.size_le _ (hdata ▸ List.mem_map_of_mem hc)
    · intro a deliveries hnew hgap honly hall
      have h := SSEChunkAssembler.addAll_assembledText hstream honly hall hnew hgap
      rwa [hdata, hfragments.join_eq] at h

/-! ### A runtime -/

/-- The characters with the Unicode property `White_Space`. -/
def whiteSpace (c : Char) : Bool :=
  (9 ≤ c.toNat ∧ c.toNat ≤ 13) ∨ (0x2000 ≤ c.toNat ∧ c.toNat ≤ 0x200a) ∨
    c.toNat ∈ [0x20, 0x85, 0xa0, 0x1680, 0x2028, 0x2029, 0x202f, 0x205f, 0x3000]

/-- SHA-256 digests of the texts used below. -/
def knownDigest (s : String) : String :=
  if s = "" then "e3b0c44298fc1c149afbf4c8996fb92427ae41e4649b934ca495991b7852b855"
  else if s = " " then "36a9e7f1c95b82ffb99743e0c5c4ce95d83c9a430aac59f84ef3cbfab6145068"
  else "fb8e20fc2e4c3f248c60c39bd652f3c1347298bb977b8b4d5903b85055620603"

/-- A runtime with `White_Space`, the digests above and consecutive identifiers and times. -/
def sampleRuntime : Runtime where
  isSpace := whiteSpace
  sha256Hex := knownDigest
  uuid4 := id
  now := id
  isSpace_hexDigit c hc := by
    have hall : ("0123456789abcdef".toList.all fun c => whiteSpace c = false) = true := by decide +kernel
    exact of_decide_eq_true (List.all_eq_true.mp hall c (List.contains_iff_mem.mp hc))
  sha256Hex_length s := by
    unfold knownDigest
    split_ifs <;> rfl
  sha256Hex_hexDigit s := by
    unfold knownDigest
    split_ifs <;> exact List.all_eq_true.mp (by decide +kernel)
  uuid4_injective := Function.injective_id

def sampleIdentity : StreamIdentity sampleRuntime where
  streamId := 1
  candidateId := 2
  candidateVersion := 1
  blockId := none
  version_pos := by decide
  blockId_stripped := by simp
  blockId_length := by simp

/-- "abcdef" comes back from two pieces. -/
theorem roundTrips_two_pieces : RoundTrips sampleIdentity "abcdef" 4 :=
  (roundTrips_iff (by decide) (by decide)).mpr
    ⟨[['a', 'b', 'c', 'd'], ['e', 'f']],
      @Greedy.cons _ _ _ ['a', 'b', 'c', 'd'] ['e', 'f'] _ (by simp) (by decide) (by simp; decide)
        (@Greedy.cons _ _ _ ['e', 'f'] [] [] (by simp) (by decide) (by simp) .nil), by
      simp only [List.forall_mem_cons, List.not_mem_nil, false_implies, implies_true, and_true]
      exact ⟨⟨fun c hc => by cases hc; decide, fun c hc => by cases hc; decide⟩,
        fun c hc => by cases hc; decide, fun c hc => by cases hc; decide⟩⟩

/-- `make_text_chunks` raises on a single blank. -/
theorem blank_text_refused :
    makeTextChunks sampleIdentity " " 16384 =
        .error (.validationError [("", "data_sha256 does not match the exact UTF-8 data bytes")]) ∧
      ¬ RoundTrips sampleIdentity " " 16384 := by
  have hmake : makeTextChunks sampleIdentity " " 16384 =
      .error (.validationError [("", "data_sha256 does not match the exact UTF-8 data bytes")]) := by
    decide +kernel
  refine ⟨hmake, ?_⟩
  rintro ⟨chunks, hok, -⟩
  rw [hmake] at hok
  cases hok

end CyberControl.Streaming
