import CyberControl.StreamChunk
import Mathlib.Data.List.AList
import Mathlib.Order.Interval.Finset.Nat

/-! # The chunk assembler

`SSEChunkAssembler` (`streaming/sse.py`): for each stream the chunks received ahead of the
expected index are kept in `pending`, the digests of everything received are kept by index and by
fragment identity, and the data of the chunks before the expected index are the parts of the text.

`Assembled chunks received state` is the invariant: `state` is what the assembler knows after
receiving the chunks of the stream at the indices `received`. -/

namespace CyberControl.Streaming

structure AssemblyState where
  expectedIndex : ℕ := 0
  pending : AList (fun _ : ℕ => SSEChunkV1) := ∅
  indexDigests : AList (fun _ : ℕ => String) := ∅
  fragmentDigests : AList (fun _ : UUID => String) := ∅
  parts : List String := []
  closed : Bool := false

def fragmentConflict (text : String) : Exn :=
  .liyan (MessageConflictError .SSE_FRAGMENT_CONFLICT text)

def streamClosed : Exn :=
  .liyan (MessageConflictError .SSE_STREAM_CLOSED
    "The stream already received its final fragment.")

def gapBufferFull : Exn :=
  .liyan
    { code := .MESSAGE_BUFFER_FULL
      safeMessage := "The SSE fragment gap buffer is full."
      category := .MESSAGING
      retriable := true
      statusCode := 503 }

def streamIncomplete : Exn :=
  .liyan
    { code := .MESSAGE_SEQUENCE_GAP
      safeMessage := "The SSE stream is not complete."
      category := .MESSAGING
      statusCode := 409 }

namespace AssemblyState

/-- `state.index_digests[...] = state.fragment_digests[...] = chunk.data_sha256`. -/
def record (s : AssemblyState) (chunk : SSEChunkV1) : AssemblyState :=
  { s with
    indexDigests := s.indexDigests.insert chunk.chunkIndex chunk.dataSha256
    fragmentDigests := s.fragmentDigests.insert chunk.fragmentId chunk.dataSha256 }

/-- `_accept`.  It raises before it has changed anything. -/
def accept (s : AssemblyState) (chunk : SSEChunkV1) (identifiersRecorded : Bool) :
    Except Exn AssemblyState :=
  if s.expectedIndex = 0 ∧ chunk.fragmentType ∉ [.START, .SNAPSHOT] then
    .error (fragmentConflict "The first fragment must be START or SNAPSHOT.")
  else if s.expectedIndex > 0 ∧ chunk.fragmentType ∈ [.START, .SNAPSHOT] then
    .error (fragmentConflict "START and SNAPSHOT are only valid at stream index zero.")
  else
    let s := if ¬ identifiersRecorded then s.record chunk else s
    .ok { s with
      parts := s.parts ++ [chunk.data]
      expectedIndex := s.expectedIndex + 1
      closed := chunk.isFinal }

/-- The loop that accepts what is pending at the expected index; each turn takes one chunk out of
`pending`, whose size bounds the number of turns. -/
def drain : ℕ → AssemblyState → Except Exn Unit × AssemblyState
  | 0, s => (.ok (), s)
  | fuel + 1, s =>
    if s.closed then (.ok (), s)
    else
      match s.pending.lookup s.expectedIndex with
      | none => (.ok (), s)
      | some next =>
        let s := { s with pending := s.pending.erase s.expectedIndex }
        match s.accept next true with
        | .error e => (.error e, s)
        | .ok s => drain fuel s

/-- `add`, on the state of the chunk's stream: the result and the state it leaves. -/
def add (maxGapBuffer : ℕ) (s : AssemblyState) (chunk : SSEChunkV1) :
    Except Exn Bool × AssemblyState :=
  match s.fragmentDigests.lookup chunk.fragmentId with
  | some existingFragment =>
    if existingFragment ≠ chunk.dataSha256 then
      (.error (fragmentConflict "The fragment identity was reused with different data."), s)
    else (.ok false, s)
  | none =>
    match s.indexDigests.lookup chunk.chunkIndex with
    | some existingIndex =>
      if existingIndex ≠ chunk.dataSha256 then
        (.error (fragmentConflict "The stream index was reused with different data."), s)
      else
        (.ok false, { s with fragmentDigests := s.fragmentDigests.insert chunk.fragmentId chunk.dataSha256 })
    | none =>
      if s.closed then (.error streamClosed, s)
      else if chunk.chunkIndex < s.expectedIndex then
        (.error (fragmentConflict "The fragment index is older than the assembled cursor."), s)
      else if chunk.chunkIndex > s.expectedIndex then
        if s.pending.keys.length ≥ maxGapBuffer then (.error gapBufferFull, s)
        else
          let s := { s with pending := s.pending.insert chunk.chunkIndex chunk }
          (.ok true, s.record chunk)
      else
        match s.accept chunk false with
        | .error e => (.error e, s)
        | .ok s =>
          match drain s.pending.keys.length s with
          | (.error e, s) => (.error e, s)
          | (.ok (), s) =>
            if s.closed ∧ s.pending.keys ≠ [] then
              (.error (fragmentConflict "Fragments exist beyond the final stream fragment."), s)
            else (.ok true, s)

end AssemblyState

/-- The key of `_states`. -/
abbrev StreamKey := UUID × UUID × ℤ × Option String

def SSEChunkV1.streamKey (c : SSEChunkV1) : StreamKey :=
  (c.streamId, c.candidateId, c.candidateVersion, c.blockId)

/-- `SSEChunkAssembler`; its constructor refuses a gap buffer below one. -/
structure SSEChunkAssembler where
  maxGapBuffer : ℕ
  maxGapBuffer_pos : 1 ≤ maxGapBuffer
  states : AList (fun _ : StreamKey => AssemblyState) := ∅

namespace SSEChunkAssembler

def add (a : SSEChunkAssembler) (chunk : SSEChunkV1) : Except Exn Bool × SSEChunkAssembler :=
  let state := (a.states.lookup chunk.streamKey).getD {}
  let (result, state) := state.add a.maxGapBuffer chunk
  (result, { a with states := a.states.insert chunk.streamKey state })

/-- `add` for each chunk of a delivery sequence, with the results; a raised exception does not
keep the later chunks from being added. -/
def addAll (a : SSEChunkAssembler) : List SSEChunkV1 → List (Except Exn Bool) × SSEChunkAssembler
  | [] => ([], a)
  | chunk :: deliveries =>
    let (result, a) := a.add chunk
    let (results, a) := a.addAll deliveries
    (result :: results, a)

def assembledText (a : SSEChunkAssembler) (key : StreamKey) : Except Exn String :=
  match a.states.lookup key with
  | none => .error streamIncomplete
  | some state => if ¬ state.closed then .error streamIncomplete else .ok (String.join state.parts)

end SSEChunkAssembler

/-! ### Streams -/

/-- The chunks of one stream, in order: what their producer promises. -/
structure IsStream (key : StreamKey) (chunks : List SSEChunkV1) : Prop where
  ne_nil : chunks ≠ []
  streamKey : ∀ c ∈ chunks, c.streamKey = key
  chunkIndex : ∀ (i : ℕ) c, chunks[i]? = some c → c.chunkIndex = i
  fragmentId : ∀ (i j : ℕ) c d, chunks[i]? = some c → chunks[j]? = some d →
    c.fragmentId = d.fragmentId → i = j
  fragmentType : ∀ (i : ℕ) c, chunks[i]? = some c →
    (c.fragmentType ∈ [StreamFragmentType.START, .SNAPSHOT] ↔ i = 0)
  isFinal : ∀ (i : ℕ) c, chunks[i]? = some c → (c.isFinal = true ↔ i + 1 = chunks.length)

variable {key : StreamKey} {chunks : List SSEChunkV1}

/-- What the state holds when the chunks at the indices `received` have been received and those
before `expectedIndex` assembled. -/
structure Holds (chunks : List SSEChunkV1) (received : Finset ℕ) (s : AssemblyState) : Prop where
  received_lt : ∀ i ∈ received, i < chunks.length
  expected_le : s.expectedIndex ≤ chunks.length
  assembled : ∀ i < s.expectedIndex, i ∈ received
  parts : s.parts = (chunks.take s.expectedIndex).map SSEChunkV1.data
  closed : s.closed = true ↔ s.expectedIndex = chunks.length
  pending : ∀ i, s.pending.lookup i = if i ∈ received ∧ s.expectedIndex ≤ i then chunks[i]? else none
  indexDigests : ∀ i, s.indexDigests.lookup i =
    if i ∈ received then chunks[i]?.map SSEChunkV1.dataSha256 else none
  fragmentDigests : ∀ i c, chunks[i]? = some c →
    s.fragmentDigests.lookup c.fragmentId = if i ∈ received then some c.dataSha256 else none

/-- The invariant between two calls of `add`: the chunk at the expected index is missing. -/
structure Assembled (chunks : List SSEChunkV1) (received : Finset ℕ) (s : AssemblyState) : Prop
    extends Holds chunks received s where
  expected_notMem : s.expectedIndex ∉ received

theorem Assembled.init (hne : chunks ≠ []) : Assembled chunks ∅ {} where
  received_lt := by simp
  expected_le := Nat.zero_le _
  assembled := by simp
  parts := by simp
  closed := by simpa using (List.length_pos_iff.mpr hne).ne'.symm
  pending := by simp
  indexDigests := by simp
  fragmentDigests := by simp
  expected_notMem := by simp

/-! ### One chunk -/

variable {i : ℕ}

section step
variable {received : Finset ℕ} {s : AssemblyState} {c : SSEChunkV1}

theorem IsStream.accept_eq (hs : IsStream key chunks) (hc : chunks[s.expectedIndex]? = some c)
    (recorded : Bool) :
    s.accept c recorded =
      let s := if ¬ recorded then s.record c else s
      .ok { s with parts := s.parts ++ [c.data], expectedIndex := s.expectedIndex + 1, closed := c.isFinal } := by
  have htype := hs.fragmentType _ _ hc
  rw [AssemblyState.accept, if_neg, if_neg]
  · rintro ⟨hpos, hin⟩
    have := htype.mp hin
    omega
  · rintro ⟨hzero, hnot⟩
    exact hnot (htype.mpr hzero)

theorem Assembled.buffer (hs : IsStream key chunks) (h : Assembled chunks received s)
    (hc : chunks[i]? = some c) (hnew : i ∉ received) (hi : s.expectedIndex ≤ i) :
    Holds chunks (insert i received) { s.record c with pending := s.pending.insert i c } where
  received_lt j hj := by
    rcases Finset.mem_insert.mp hj with rfl | hj
    · exact (List.getElem?_eq_some_iff.mp hc).1
    · exact h.received_lt j hj
  expected_le := h.expected_le
  assembled j hj := Finset.mem_insert_of_mem (h.assembled j hj)
  parts := h.parts
  closed := h.closed
  pending j := by
    show (s.pending.insert i c).lookup j = if j ∈ insert i received ∧ s.expectedIndex ≤ j then chunks[j]? else none
    by_cases hj : j = i
    · subst hj
      rw [AList.lookup_insert, if_pos ⟨Finset.mem_insert_self _ _, hi⟩, hc]
    · rw [AList.lookup_insert_ne hj, h.pending]
      simp [hj]
  indexDigests j := by
    show (s.indexDigests.insert c.chunkIndex c.dataSha256).lookup j = _
    rw [hs.chunkIndex i c hc]
    by_cases hj : j = i
    · subst hj
      rw [AList.lookup_insert, if_pos (Finset.mem_insert_self _ _), hc]
      rfl
    · rw [AList.lookup_insert_ne hj, h.indexDigests]
      simp [hj]
  fragmentDigests j d hd := by
    show (s.fragmentDigests.insert c.fragmentId c.dataSha256).lookup d.fragmentId = _
    by_cases hj : j = i
    · subst hj
      obtain rfl : d = c := Option.some.inj (hd.symm.trans hc)
      rw [AList.lookup_insert, if_pos (Finset.mem_insert_self _ _)]
    · have hne : d.fragmentId ≠ c.fragmentId := fun heq => hj (hs.fragmentId j i d c hd hc heq)
      rw [AList.lookup_insert_ne hne, h.fragmentDigests j d hd]
      simp [hj]

theorem Holds.assemble (hs : IsStream key chunks) (h : Holds chunks received s)
    (hc : chunks[s.expectedIndex]? = some c) (hmem : s.expectedIndex ∈ received)
    {pending : AList (fun _ : ℕ => SSEChunkV1)} (hnone : pending.lookup s.expectedIndex = none)
    (hrest : ∀ i ≠ s.expectedIndex, pending.lookup i = s.pending.lookup i) :
    Holds chunks received
      { s with
        pending := pending
        parts := s.parts ++ [c.data]
        expectedIndex := s.expectedIndex + 1
        closed := c.isFinal } where
  received_lt := h.received_lt
  expected_le := (List.getElem?_eq_some_iff.mp hc).1
  assembled i hi := by
    rcases Nat.lt_succ_iff_lt_or_eq.mp hi with hi | rfl
    · exact h.assembled i hi
    · exact hmem
  parts := by
    show s.parts ++ [c.data] = (chunks.take (s.expectedIndex + 1)).map SSEChunkV1.data
    rw [h.parts, List.take_add_one, hc]
    simp
  closed := hs.isFinal _ _ hc
  pending i := by
    show pending.lookup i = if i ∈ received ∧ s.expectedIndex + 1 ≤ i then chunks[i]? else none
    by_cases hi : i = s.expectedIndex
    · subst hi
      rw [hnone, if_neg (by omega)]
    · rw [hrest i hi, h.pending]
      have : s.expectedIndex ≤ i ↔ s.expectedIndex + 1 ≤ i := by omega
      simp only [this]
  indexDigests := h.indexDigests
  fragmentDigests := h.fragmentDigests

theorem Holds.pending_nil (h : Holds chunks received s) (hclosed : s.closed = true) :
    s.pending.keys = [] := by
  refine List.eq_nil_iff_forall_not_mem.mpr fun i hi => ?_
  have hnone : s.pending.lookup i = none := by
    rw [h.pending, if_neg]
    rintro ⟨hmem, hle⟩
    have := h.received_lt i hmem
    have := h.closed.mp hclosed
    omega
  exact AList.lookup_eq_none.mp hnone (AList.mem_keys.mpr hi)

theorem Assembled.pending_length_lt (h : Assembled chunks received s) (hc : s.expectedIndex < chunks.length) :
    s.pending.keys.length < chunks.length := by
  have hsub : s.pending.keys.toFinset ⊆ Finset.Ioo s.expectedIndex chunks.length := by
    intro i hi
    have hsome := AList.lookup_isSome.mpr (AList.mem_keys.mpr (List.mem_toFinset.mp hi))
    rw [h.pending] at hsome
    split at hsome
    · rename_i hmem
      have hlt := h.received_lt i hmem.1
      have hne : i ≠ s.expectedIndex := fun heq => h.expected_notMem (heq ▸ hmem.1)
      rw [Finset.mem_Ioo]
      omega
    · simp at hsome
  have hcard := Finset.card_le_card hsub
  rw [List.toFinset_card_of_nodup s.pending.keys_nodup, Nat.card_Ioo] at hcard
  omega

theorem Holds.expected_notMem (h : Holds chunks received s)
    (hnone : s.pending.lookup s.expectedIndex = none) : s.expectedIndex ∉ received := by
  intro hmem
  rw [h.pending, if_pos ⟨hmem, le_refl _⟩, List.getElem?_eq_none_iff] at hnone
  have := h.received_lt _ hmem
  omega

theorem Holds.drain (hs : IsStream key chunks) {fuel : ℕ} (h : Holds chunks received s)
    (hfuel : s.pending.keys.length ≤ fuel) :
    ∃ s', AssemblyState.drain fuel s = (.ok (), s') ∧ Assembled chunks received s' := by
  induction fuel generalizing s with
  | zero =>
    have hnil : s.pending.keys = [] := List.length_eq_zero_iff.mp (Nat.le_zero.mp hfuel)
    have hnone : s.pending.lookup s.expectedIndex = none :=
      AList.lookup_eq_none.mpr fun hmem => by simp [AList.mem_keys, hnil] at hmem
    exact ⟨s, rfl, h, h.expected_notMem hnone⟩
  | succ fuel ih =>
    rw [AssemblyState.drain]
    by_cases hclosed : s.closed = true
    · rw [if_pos hclosed]
      refine ⟨s, rfl, h, fun hmem => ?_⟩
      have := h.received_lt _ hmem
      have := h.closed.mp hclosed
      omega
    · rw [if_neg hclosed]
      cases hnext : s.pending.lookup s.expectedIndex with
      | none => exact ⟨s, rfl, h, h.expected_notMem hnext⟩
      | some next =>
        have hlookup := hnext
        rw [h.pending] at hlookup
        split at hlookup
        · rename_i hmem
          let s₁ := { s with pending := s.pending.erase s.expectedIndex }
          have hstep := h.assemble hs hlookup hmem.1 (AList.lookup_erase _ _)
            fun i hi => AList.lookup_erase_ne hi
          have haccept := hs.accept_eq (s := s₁) hlookup true
          have hlen : (s.pending.erase s.expectedIndex).keys.length ≤ fuel := by
            have hin : s.expectedIndex ∈ s.pending.keys :=
              AList.mem_keys.mp (AList.lookup_isSome.mp (by rw [hnext]; rfl))
            rw [AList.keys_erase, List.length_erase_of_mem hin]
            omega
          simp only [s₁] at haccept
          simp only [haccept]
          exact ih hstep hlen
        · cases hlookup

/-! ### Adding a chunk -/

/-- **A chunk of the stream, new or not, is accepted, and is then received.** -/
theorem Assembled.add (hs : IsStream key chunks) (h : Assembled chunks received s)
    (hc : chunks[i]? = some c) {maxGapBuffer : ℕ} (hgap : chunks.length ≤ maxGapBuffer) :
    ∃ accepted s', s.add maxGapBuffer c = (.ok accepted, s') ∧
      Assembled chunks (insert i received) s' := by
  have hlt : i < chunks.length := (List.getElem?_eq_some_iff.mp hc).1
  have hindex := hs.chunkIndex i c hc
  rw [AssemblyState.add, h.fragmentDigests i c hc]
  by_cases hmem : i ∈ received
  · rw [if_pos hmem]
    refine ⟨false, s, by simp, ?_⟩
    rwa [Finset.insert_eq_of_mem hmem]
  · have hle : s.expectedIndex ≤ i := by
      by_contra hlt'
      exact hmem (h.assembled i (by omega))
    have hopen : ¬ s.closed = true := fun hclosed => by
      have := h.closed.mp hclosed
      omega
    rw [if_neg hmem, hindex, h.indexDigests, if_neg hmem]
    simp only
    rw [if_neg hopen, if_neg (by omega)]
    have hbuffer := h.buffer hs hc hmem hle
    by_cases hahead : s.expectedIndex < i
    · have hroom := h.pending_length_lt (by omega)
      rw [if_pos hahead, if_neg (by omega)]
      refine ⟨true, _, rfl, hbuffer, ?_⟩
      show s.expectedIndex ∉ insert i received
      rw [Finset.mem_insert, not_or]
      exact ⟨by omega, h.expected_notMem⟩
    · obtain rfl : i = s.expectedIndex := by omega
      have hnone : s.pending.lookup s.expectedIndex = none := by
        rw [h.pending, if_neg fun hp => hmem hp.1]
      have hstep := hbuffer.assemble hs hc (Finset.mem_insert_self _ _) hnone
        fun j hj => (AList.lookup_insert_ne hj).symm
      obtain ⟨s', hdrain, hs'⟩ := hstep.drain hs (le_refl _)
      rw [if_neg (lt_irrefl _), hs.accept_eq hc]
      refine ⟨true, s', ?_, hs'⟩
      simp only [AssemblyState.record, Bool.false_eq_true, not_false_eq_true, if_true] at hdrain ⊢
      rw [hdrain]
      have hempty : ¬ (s'.closed = true ∧ s'.pending.keys ≠ []) := fun hp =>
        hp.2 (hs'.toHolds.pending_nil hp.1)
      simp only [if_neg hempty]

theorem Assembled.complete (h : Assembled chunks received s)
    (hall : ∀ i < chunks.length, i ∈ received) :
    s.closed = true ∧ s.parts = chunks.map SSEChunkV1.data := by
  have hend : s.expectedIndex = chunks.length := by
    by_contra hne
    have := h.expected_le
    exact h.expected_notMem (hall _ (by omega))
  exact ⟨h.closed.mpr hend, by rw [h.parts, hend, List.take_length]⟩

end step

/-! ### A delivery sequence -/

namespace SSEChunkAssembler

/-- The state of a stream; one the assembler has not heard of is empty. -/
def stateOf (a : SSEChunkAssembler) (key : StreamKey) : AssemblyState :=
  (a.states.lookup key).getD {}

variable {a : SSEChunkAssembler} {received : Finset ℕ}

theorem add_assembled (hs : IsStream key chunks) (h : Assembled chunks received (a.stateOf key))
    (hgap : chunks.length ≤ a.maxGapBuffer) {c : SSEChunkV1} (hc : chunks[i]? = some c) :
    (a.add c).1.isOk = true ∧ (a.add c).2.maxGapBuffer = a.maxGapBuffer ∧
      Assembled chunks (insert i received) ((a.add c).2.stateOf key) := by
  have hkey : c.streamKey = key := hs.streamKey c (List.mem_of_getElem? hc)
  obtain ⟨accepted, s', hadd, hs'⟩ := h.add hs hc hgap
  have hcall : a.add c =
      (.ok accepted, { a with states := a.states.insert key s' }) := by
    rw [SSEChunkAssembler.add, hkey]
    show (let (result, state) := (a.stateOf key).add a.maxGapBuffer c
      (result, { a with states := a.states.insert key state })) = _
    rw [hadd]
  rw [hcall]
  refine ⟨rfl, rfl, ?_⟩
  rwa [stateOf, AList.lookup_insert]

theorem addAll_assembled (hs : IsStream key chunks) {deliveries : List SSEChunkV1}
    (honly : ∀ c ∈ deliveries, c ∈ chunks) (h : Assembled chunks received (a.stateOf key))
    (hgap : chunks.length ≤ a.maxGapBuffer) :
    (∀ result ∈ (a.addAll deliveries).1, result.isOk = true) ∧
      ∃ received', received ⊆ received' ∧
        (∀ (i : ℕ) c, chunks[i]? = some c → c ∈ deliveries → i ∈ received') ∧
        Assembled chunks received' ((a.addAll deliveries).2.stateOf key) := by
  induction deliveries generalizing a received with
  | nil => exact ⟨by simp [addAll], received, subset_rfl, by simp, h⟩
  | cons d deliveries ih =>
    obtain ⟨j, hj⟩ := List.mem_iff_getElem?.mp (honly d (by simp))
    obtain ⟨hok, hmax, hstep⟩ := add_assembled hs h hgap hj
    obtain ⟨hoks, received', hsub, hmem, hfinal⟩ :=
      ih (fun c hc => honly c (by simp [hc])) hstep (hmax ▸ hgap)
    refine ⟨?_, received', (Finset.subset_insert _ _).trans hsub, ?_, hfinal⟩
    · intro result hr
      rcases List.mem_cons.mp hr with rfl | hr
      · exact hok
      · exact hoks result hr
    · intro i c hc hcd
      rcases List.mem_cons.mp hcd with rfl | hcd
      · have hij : i = j := (hs.chunkIndex i c hc).symm.trans (hs.chunkIndex j c hj)
        exact hsub (hij ▸ Finset.mem_insert_self _ _)
      · exact hmem i c hc hcd

/-- **Any sequence of a stream's chunks that contains each of them is accepted and assembles the
stream's data**, on an assembler that has not seen the stream and has room for it. -/
theorem addAll_assembledText (hs : IsStream key chunks) {deliveries : List SSEChunkV1}
    (honly : ∀ c ∈ deliveries, c ∈ chunks) (hall : ∀ c ∈ chunks, c ∈ deliveries)
    (hnew : a.states.lookup key = none) (hgap : chunks.length ≤ a.maxGapBuffer) :
    (∀ result ∈ (a.addAll deliveries).1, result.isOk = true) ∧
      (a.addAll deliveries).2.assembledText key =
        .ok (String.join (chunks.map SSEChunkV1.data)) := by
  have hinit : Assembled chunks ∅ (a.stateOf key) := by
    rw [stateOf, hnew]
    exact .init hs.ne_nil
  obtain ⟨hoks, received, -, hmem, hfinal⟩ := addAll_assembled hs honly hinit hgap
  refine ⟨hoks, ?_⟩
  have hreceived : ∀ i < chunks.length, i ∈ received := fun i hi =>
    hmem i chunks[i] (List.getElem?_eq_getElem hi) (hall _ (List.getElem_mem hi))
  obtain ⟨hclosed, hparts⟩ := hfinal.complete hreceived
  rw [assembledText]
  cases hl : (a.addAll deliveries).2.states.lookup key with
  | none =>
    rw [stateOf, hl] at hclosed
    cases hclosed
  | some s =>
    rw [stateOf, hl, Option.getD_some] at hclosed hparts
    simp only [hclosed, hparts, not_true_eq_false, if_false]

end SSEChunkAssembler

end CyberControl.Streaming
