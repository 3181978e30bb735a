import CyberControl.StreamChunkAssembler

/-! # A rejected chunk

When `SSEChunkAssembler.add` raises, does the stream stay as it was?  Every check before `_accept` leaves the
state alone; once the chunk is accepted, the loop over the buffered chunks may still raise. -/

namespace CyberControl.Streaming

open AssemblyState

/-! ### The loop over the buffered chunks -/

/-- The buffered chunks at the indices from `n` up to `m` are accepted, and none is final. -/
def Passes (pending : AList fun _ : ℕ => SSEChunkV1) (n m : ℕ) : Prop :=
  n ≤ m ∧ ∀ i, n ≤ i → i < m → ∃ c, pending.lookup i = some c ∧
    c.fragmentType ∉ [StreamFragmentType.START, .SNAPSHOT] ∧ c.isFinal = false

/-- The loop from index `n` gets to a chunk that may only begin a stream. -/
def OutOfPlace (pending : AList fun _ : ℕ => SSEChunkV1) (n : ℕ) : Prop :=
  ∃ m c, Passes pending n m ∧ pending.lookup m = some c ∧
    c.fragmentType ∈ [StreamFragmentType.START, .SNAPSHOT]

/-- The loop from index `n` gets to a final chunk, and it does not take every buffered chunk. -/
def BeyondFinal (pending : AList fun _ : ℕ => SSEChunkV1) (n : ℕ) : Prop :=
  ∃ m c, Passes pending n m ∧ pending.lookup m = some c ∧
    c.fragmentType ∉ [StreamFragmentType.START, .SNAPSHOT] ∧ c.isFinal = true ∧
    ∃ i ∈ pending.keys, ¬ (n ≤ i ∧ i ≤ m)

section loop
variable {pending : AList fun _ : ℕ => SSEChunkV1} {n m : ℕ} {c : SSEChunkV1}

theorem passes_refl : Passes pending n n := ⟨le_refl n, fun i hle hlt => absurd hle (by omega)⟩

theorem Passes.first (h : Passes pending n m) (hlt : n < m) : ∃ d, pending.lookup n = some d ∧
    d.fragmentType ∉ [StreamFragmentType.START, .SNAPSHOT] ∧ d.isFinal = false :=
  h.2 n (le_refl n) hlt

theorem mem_keys_erase {i : ℕ} : i ∈ (pending.erase n).keys ↔ i ≠ n ∧ i ∈ pending.keys := by
  rw [AList.keys_erase, pending.keys_nodup.mem_erase_iff]

section erase
variable (hc : pending.lookup n = some c) (hplace : c.fragmentType ∉ [StreamFragmentType.START, .SNAPSHOT])
  (hfinal : c.isFinal = false)
include hc hplace hfinal

theorem passes_succ_iff :
    Passes (pending.erase n) (n + 1) m ↔ n < m ∧ Passes pending n m := by
  constructor
  · rintro ⟨hle, hall⟩
    refine ⟨by omega, by omega, fun i hi him => ?_⟩
    by_cases hin : i = n
    · subst hin
      exact ⟨c, hc, hplace, hfinal⟩
    · obtain ⟨d, hd, hrest⟩ := hall i (by omega) him
      rw [AList.lookup_erase_ne hin] at hd
      exact ⟨d, hd, hrest⟩
  · rintro ⟨hlt, -, hall⟩
    refine ⟨hlt, fun i hi him => ?_⟩
    obtain ⟨d, hd, hrest⟩ := hall i (by omega) him
    rw [AList.lookup_erase_ne (by omega)]
    exact ⟨d, hd, hrest⟩

theorem reached_erase_iff {reached : ℕ → SSEChunkV1 → Prop} (hnot : ¬ reached n c) :
    (∃ m d, Passes (pending.erase n) (n + 1) m ∧ (pending.erase n).lookup m = some d ∧ reached m d) ↔
      ∃ m d, Passes pending n m ∧ pending.lookup m = some d ∧ reached m d := by
  constructor
  · rintro ⟨m, d, hpasses, hd, hreached⟩
    obtain ⟨hlt, hpasses⟩ := (passes_succ_iff hc hplace hfinal).mp hpasses
    rw [AList.lookup_erase_ne (by omega)] at hd
    exact ⟨m, d, hpasses, hd, hreached⟩
  · rintro ⟨m, d, hpasses, hd, hreached⟩
    have hne : m ≠ n := by
      rintro rfl
      obtain rfl : c = d := Option.some.inj (hc.symm.trans hd)
      exact hnot hreached
    have hle := hpasses.1
    refine ⟨m, d, (passes_succ_iff hc hplace hfinal).mpr ⟨by omega, hpasses⟩, ?_, hreached⟩
    rwa [AList.lookup_erase_ne hne]

theorem outOfPlace_erase_iff :
    OutOfPlace (pending.erase n) (n + 1) ↔ OutOfPlace pending n :=
  reached_erase_iff hc hplace hfinal hplace

theorem beyondFinal_erase_iff :
    BeyondFinal (pending.erase n) (n + 1) ↔ BeyondFinal pending n := by
  refine Iff.trans ?_ (reached_erase_iff hc hplace hfinal fun h => absurd (hfinal.symm.trans h.2.1) (by simp))
  refine exists_congr fun m => exists_congr fun d => and_congr_right fun hpasses => ?_
  refine and_congr_right fun _ => and_congr_right fun _ => and_congr_right fun _ => exists_congr fun i => ?_
  have hlt := hpasses.1
  rw [mem_keys_erase, and_assoc, and_left_comm]
  refine and_congr_right fun _ => ?_
  omega

end erase

variable {s : AssemblyState}

theorem accept_recorded (hpos : 0 < s.expectedIndex) :
    s.accept c true =
      if c.fragmentType ∈ [StreamFragmentType.START, .SNAPSHOT] then
        .error (fragmentConflict "START and SNAPSHOT are only valid at stream index zero.")
      else .ok { s with
        parts := s.parts ++ [c.data], expectedIndex := s.expectedIndex + 1, closed := c.isFinal } := by
  rw [AssemblyState.accept, if_neg (by omega)]
  by_cases hbad : c.fragmentType ∈ [StreamFragmentType.START, .SNAPSHOT]
  · rw [if_pos ⟨hpos, hbad⟩, if_pos hbad]
  · rw [if_neg fun h => hbad h.2, if_neg hbad]
    rfl

/-- How the loop ends on an open stream. -/
structure Drained (s : AssemblyState) (result : Except Exn Unit × AssemblyState) : Prop where
  advanced : s.expectedIndex ≤ result.2.expectedIndex
  error_iff : (∃ e, result.1 = .error e) ↔ OutOfPlace s.pending s.expectedIndex
  beyond_iff : result.1 = .ok () → (result.2.closed = true ∧ result.2.pending.keys ≠ [] ↔
    BeyondFinal s.pending s.expectedIndex)

theorem drained_none (hopen : s.closed = false)
    (hnone : s.pending.lookup s.expectedIndex = none) : Drained s (.ok (), s) := by
  have hstart : ∀ m, Passes s.pending s.expectedIndex m → ∀ d, s.pending.lookup m = some d → False := by
    intro m hpasses d hd
    have hle := hpasses.1
    by_cases hlt : s.expectedIndex < m
    · obtain ⟨e, he, -⟩ := hpasses.first hlt
      rw [hnone] at he
      cases he
    · obtain rfl : m = s.expectedIndex := by omega
      rw [hnone] at hd
      cases hd
  refine ⟨le_refl _, ⟨?_, ?_⟩, fun _ => ⟨?_, ?_⟩⟩
  · rintro ⟨e, he⟩
    cases he
  · rintro ⟨m, d, hpasses, hd, -⟩
    exact (hstart m hpasses d hd).elim
  · rintro ⟨hclosed, -⟩
    rw [hopen] at hclosed
    cases hclosed
  · rintro ⟨m, d, hpasses, hd, -⟩
    exact (hstart m hpasses d hd).elim

theorem drained_outOfPlace (hc : s.pending.lookup s.expectedIndex = some c)
    (hbad : c.fragmentType ∈ [StreamFragmentType.START, .SNAPSHOT]) (e : Exn) :
    Drained s (.error e, { s with pending := s.pending.erase s.expectedIndex }) where
  advanced := le_refl _
  error_iff := iff_of_true ⟨e, rfl⟩ ⟨s.expectedIndex, c, passes_refl, hc, hbad⟩
  beyond_iff h := nomatch h

theorem drained_final {s t : AssemblyState} (hc : s.pending.lookup s.expectedIndex = some c)
    (hplace : c.fragmentType ∉ [StreamFragmentType.START, .SNAPSHOT]) (hfinal : c.isFinal = true)
    (ht : t.pending = s.pending.erase s.expectedIndex) (hindex : t.expectedIndex = s.expectedIndex + 1)
    (hclosed : t.closed = true) : Drained s (.ok (), t) := by
  have honly : ∀ m d, Passes s.pending s.expectedIndex m → s.pending.lookup m = some d →
      m = s.expectedIndex ∧ d = c := by
    intro m d hpasses hd
    have hle := hpasses.1
    have hm : m = s.expectedIndex := by
      by_contra hne
      obtain ⟨e, he, -, hnot⟩ := hpasses.first (by omega)
      obtain rfl : c = e := Option.some.inj (hc.symm.trans he)
      rw [hfinal] at hnot
      cases hnot
    rw [hm] at hd
    exact ⟨hm, Option.some.inj (hd.symm.trans hc)⟩
  refine ⟨by rw [hindex]; omega, ⟨?_, ?_⟩, fun _ => ⟨?_, ?_⟩⟩
  · rintro ⟨e, he⟩
    cases he
  · rintro ⟨m, d, hpasses, hd, hbad⟩
    obtain ⟨-, rfl⟩ := honly m d hpasses hd
    exact absurd hbad hplace
  · rintro ⟨-, hrest⟩
    obtain ⟨i, hi⟩ := List.exists_mem_of_ne_nil _ hrest
    rw [ht, mem_keys_erase] at hi
    exact ⟨s.expectedIndex, c, passes_refl, hc, hplace, hfinal, i, hi.2, by omega⟩
  · rintro ⟨m, d, hpasses, hd, -, -, i, hi, hout⟩
    obtain ⟨rfl, -⟩ := honly m d hpasses hd
    refine ⟨hclosed, List.ne_nil_of_mem (a := i) ?_⟩
    rw [ht, mem_keys_erase]
    exact ⟨by omega, hi⟩

theorem drain_closed {fuel : ℕ} (h : s.closed = true) : drain fuel s = (.ok (), s) := by
  cases fuel with
  | zero => rfl
  | succ fuel => rw [drain, if_pos h]

/-- **How the loop ends.** -/
theorem drain_drained {fuel : ℕ} (hopen : s.closed = false) (hpos : 0 < s.expectedIndex)
    (hfuel : s.pending.keys.length ≤ fuel) : Drained s (drain fuel s) := by
  induction fuel generalizing s with
  | zero =>
    have hnil : s.pending.keys = [] := List.length_eq_zero_iff.mp (Nat.le_zero.mp hfuel)
    refine drained_none hopen (AList.lookup_eq_none.mpr fun hmem => ?_)
    rw [AList.mem_keys, hnil] at hmem
    cases hmem
  | succ fuel ih =>
    rw [drain, if_neg (by rw [hopen]; decide)]
    cases hnext : s.pending.lookup s.expectedIndex with
    | none => exact drained_none hopen hnext
    | some c =>
      have hlength : (s.pending.erase s.expectedIndex).keys.length ≤ fuel := by
        have hin : s.expectedIndex ∈ s.pending.keys :=
          AList.mem_keys.mp (AList.lookup_isSome.mp (by rw [hnext]; rfl))
        rw [AList.keys_erase, List.length_erase_of_mem hin]
        omega
      dsimp only
      rw [accept_recorded (s := { s with pending := s.pending.erase s.expectedIndex }) hpos]
      by_cases hbad : c.fragmentType ∈ [StreamFragmentType.START, .SNAPSHOT]
      · rw [if_pos hbad]
        exact drained_outOfPlace hnext hbad _
      · rw [if_neg hbad]
        cases hfinal : c.isFinal with
        | true =>
          dsimp only
          rw [drain_closed rfl]
          exact drained_final hnext hbad hfinal rfl rfl rfl
        | false =>
          have hrest := ih (s := { s with
            pending := s.pending.erase s.expectedIndex, parts := s.parts ++ [c.data],
            expectedIndex := s.expectedIndex + 1, closed := false }) rfl (Nat.succ_pos _) hlength
          exact {
            advanced := (Nat.le_succ _).trans hrest.advanced
            error_iff := hrest.error_iff.trans (outOfPlace_erase_iff hnext hbad hfinal)
            beyond_iff := fun hok =>
              (hrest.beyond_iff hok).trans (beyondFinal_erase_iff hnext hbad hfinal) }

end loop

/-! ### `add` -/

section add
variable {s : AssemblyState} {chunk : SSEChunkV1} {maxGapBuffer : ℕ}

/-- The chunk is new and accepted at the expected index of an open stream. -/
structure Accepts (s : AssemblyState) (chunk : SSEChunkV1) : Prop where
  newFragment : s.fragmentDigests.lookup chunk.fragmentId = none
  newIndex : s.indexDigests.lookup chunk.chunkIndex = none
  opened : s.closed = false
  atIndex : chunk.chunkIndex = s.expectedIndex
  place : s.expectedIndex = 0 ↔ chunk.fragmentType ∈ [StreamFragmentType.START, .SNAPSHOT]

/-- The buffered chunks continue the stream after a chunk: none that the loop gets to is out of place, and none
is beyond the final one. -/
def Continues (s : AssemblyState) (chunk : SSEChunkV1) : Prop :=
  (chunk.isFinal = true → s.pending.keys = []) ∧
    (chunk.isFinal = false →
      ¬ OutOfPlace s.pending (s.expectedIndex + 1) ∧ ¬ BeyondFinal s.pending (s.expectedIndex + 1))

/-- The stream after a chunk was accepted. -/
def accepted (s : AssemblyState) (chunk : SSEChunkV1) : AssemblyState :=
  { s.record chunk with
    parts := s.parts ++ [chunk.data], expectedIndex := s.expectedIndex + 1, closed := chunk.isFinal }

theorem add_drain (maxGapBuffer : ℕ) (h : Accepts s chunk) :
    (∀ e t, drain s.pending.keys.length (accepted s chunk) = (.error e, t) →
      s.add maxGapBuffer chunk = (.error e, t)) ∧
    ∀ t, drain s.pending.keys.length (accepted s chunk) = (.ok (), t) →
      s.add maxGapBuffer chunk = if t.closed ∧ t.pending.keys ≠ [] then
        (.error (fragmentConflict "Fragments exist beyond the final stream fragment."), t) else (.ok true, t) := by
  have haccept : s.accept chunk false = .ok (accepted s chunk) := by
    have hplace := h.place
    rw [AssemblyState.accept, if_neg fun hbad => hbad.2 (hplace.mp hbad.1),
      if_neg fun hbad => absurd (hplace.mpr hbad.2) (by omega)]
    rfl
  have hkeys : (accepted s chunk).pending.keys.length = s.pending.keys.length := rfl
  have hindex := h.atIndex
  constructor
  · intro e t hdrain
    rw [AssemblyState.add, h.newFragment]
    dsimp only
    rw [h.newIndex]
    dsimp only
    rw [if_neg (by rw [h.opened]; decide), if_neg (by omega), if_neg (by omega), haccept]
    dsimp only
    rw [hkeys, hdrain]
  · intro t hdrain
    rw [AssemblyState.add, h.newFragment]
    dsimp only
    rw [h.newIndex]
    dsimp only
    rw [if_neg (by rw [h.opened]; decide), if_neg (by omega), if_neg (by omega), haccept]
    dsimp only
    rw [hkeys, hdrain]

/-- **The end of an accepted chunk.** -/
theorem add_of_accepts (maxGapBuffer : ℕ) (h : Accepts s chunk) :
    (∃ b, (s.add maxGapBuffer chunk).1 = .ok b) ∧ Continues s chunk ∨
      (∃ e, (s.add maxGapBuffer chunk).1 = .error e) ∧ ¬ Continues s chunk ∧
        s.expectedIndex < (s.add maxGapBuffer chunk).2.expectedIndex := by
  obtain ⟨hadd_error, hadd_ok⟩ := add_drain maxGapBuffer h
  cases hfinal : chunk.isFinal with
  | true =>
    rw [hadd_ok _ (drain_closed (show (accepted s chunk).closed = true from hfinal))]
    by_cases hrest : s.pending.keys = []
    · rw [if_neg fun hbad => hbad.2 hrest]
      exact .inl ⟨⟨true, rfl⟩, fun _ => hrest, fun hopen => nomatch hfinal.symm.trans hopen⟩
    · rw [if_pos ⟨hfinal, hrest⟩]
      exact .inr ⟨⟨_, rfl⟩, fun hcontinues => hrest (hcontinues.1 hfinal), Nat.lt_succ_self _⟩
  | false =>
    have hdrained : Drained (accepted s chunk) (drain s.pending.keys.length (accepted s chunk)) :=
      drain_drained hfinal (Nat.succ_pos _) (le_refl _)
    have hcontinues : Continues s chunk ↔ ¬ OutOfPlace s.pending (s.expectedIndex + 1) ∧
        ¬ BeyondFinal s.pending (s.expectedIndex + 1) := by
      refine ⟨fun hall => hall.2 hfinal, fun hall => ⟨fun hclosed => ?_, fun _ => hall⟩⟩
      rw [hfinal] at hclosed
      cases hclosed
    rw [hcontinues]
    generalize drain s.pending.keys.length (accepted s chunk) = run at hdrained hadd_error hadd_ok
    obtain ⟨result, t⟩ := run
    have hadvanced : s.expectedIndex + 1 ≤ t.expectedIndex := hdrained.advanced
    have herror : (∃ e, result = .error e) ↔ OutOfPlace s.pending (s.expectedIndex + 1) := hdrained.error_iff
    have hbeyond : result = .ok () → (t.closed = true ∧ t.pending.keys ≠ [] ↔
      BeyondFinal s.pending (s.expectedIndex + 1)) := hdrained.beyond_iff
    cases result with
    | error e =>
      have hbad := herror.mp ⟨e, rfl⟩
      rw [hadd_error e t rfl]
      exact .inr ⟨⟨e, rfl⟩, fun hall => hall.1 hbad, by dsimp only; omega⟩
    | ok =>
      have hplace : ¬ OutOfPlace s.pending (s.expectedIndex + 1) := fun hbad => by
        obtain ⟨e, he⟩ := herror.mpr hbad
        cases he
      rw [hadd_ok t rfl]
      by_cases hrest : t.closed = true ∧ t.pending.keys ≠ []
      · rw [if_pos hrest]
        exact .inr ⟨⟨_, rfl⟩, fun hall => hall.2 ((hbeyond rfl).mp hrest), by dsimp only; omega⟩
      · rw [if_neg hrest]
        exact .inl ⟨⟨true, rfl⟩, hplace, fun hbad => hrest ((hbeyond rfl).mpr hbad)⟩

theorem accept_error (h : ¬ (s.expectedIndex = 0 ↔ chunk.fragmentType ∈ [StreamFragmentType.START, .SNAPSHOT])) :
    ∃ e, s.accept chunk false = .error e := by
  unfold AssemblyState.accept
  by_cases hzero : s.expectedIndex = 0
  · have hnot : chunk.fragmentType ∉ [StreamFragmentType.START, .SNAPSHOT] := fun hin =>
      h (iff_of_true hzero hin)
    exact ⟨_, if_pos ⟨hzero, hnot⟩⟩
  · have hin : chunk.fragmentType ∈ [StreamFragmentType.START, .SNAPSHOT] := by
      by_contra hnot
      exact h (iff_of_false hzero hnot)
    rw [if_neg fun hbad => hzero hbad.1]
    exact ⟨_, if_pos ⟨Nat.pos_of_ne_zero hzero, hin⟩⟩

/-- A chunk that is not accepted leaves the stream alone when it is refused. -/
theorem add_of_not_accepts (h : ¬ Accepts s chunk) {e : Exn} (he : (s.add maxGapBuffer chunk).1 = .error e) :
    (s.add maxGapBuffer chunk).2 = s := by
  unfold AssemblyState.add at he ⊢
  cases hfragment : s.fragmentDigests.lookup chunk.fragmentId with
  | some existing =>
    rw [hfragment] at he
    dsimp only at he ⊢
    split_ifs at he ⊢
    · rfl
  | none =>
    rw [hfragment] at he
    cases hindex : s.indexDigests.lookup chunk.chunkIndex with
    | some existing =>
      rw [hindex] at he
      dsimp only at he ⊢
      split_ifs at he ⊢
      · rfl
    | none =>
      rw [hindex] at he
      dsimp only at he ⊢
      split_ifs at he ⊢ with hclosed hstale hahead hfull
      · rfl
      · rfl
      · rfl
      · have hplace : ¬ (s.expectedIndex = 0 ↔
            chunk.fragmentType ∈ [StreamFragmentType.START, .SNAPSHOT]) := fun hplace =>
          h ⟨hfragment, hindex, by simpa using hclosed, by omega, hplace⟩
        obtain ⟨e', hrefused⟩ := accept_error hplace
        rw [hrefused]

/-- **An error leaves the stream as it was** exactly when the buffered chunks continue an accepted chunk. -/
theorem add_atomic : (∀ e, (s.add maxGapBuffer chunk).1 = .error e → (s.add maxGapBuffer chunk).2 = s) ↔
    (Accepts s chunk → Continues s chunk) := by
  by_cases haccepts : Accepts s chunk
  · rcases add_of_accepts maxGapBuffer haccepts with ⟨⟨b, hok⟩, hcontinues⟩ |
      ⟨⟨e, he⟩, hbroken, hlt⟩
    · refine iff_of_true (fun e he => ?_) fun _ => hcontinues
      rw [hok] at he
      cases he
    · refine iff_of_false (fun hatomic => ?_) fun hall => hbroken (hall haccepts)
      rw [hatomic e he] at hlt
      omega
  · exact iff_of_true (fun e he => add_of_not_accepts haccepts he) fun h => absurd h haccepts

end add

namespace SSEChunkAssembler

variable (a : SSEChunkAssembler) (chunk : SSEChunkV1)

theorem add_eq : (a.add chunk).1 = ((a.stateOf chunk.streamKey).add a.maxGapBuffer chunk).1 ∧
    (a.add chunk).2.stateOf chunk.streamKey = ((a.stateOf chunk.streamKey).add a.maxGapBuffer chunk).2 := by
  refine ⟨rfl, ?_⟩
  change ((a.states.insert chunk.streamKey _).lookup chunk.streamKey).getD {} = _
  rw [AList.lookup_insert]
  rfl

/-- **`add` is atomic on error** exactly when the chunks buffered for the stream continue an accepted chunk. -/
theorem add_atomic_iff :
    (∀ e, (a.add chunk).1 = .error e →
        (a.add chunk).2.stateOf chunk.streamKey = a.stateOf chunk.streamKey) ↔
      (Accepts (a.stateOf chunk.streamKey) chunk → Continues (a.stateOf chunk.streamKey) chunk) := by
  rw [(a.add_eq chunk).1, (a.add_eq chunk).2]
  exact add_atomic

section sample

/-- A chunk of a stream without text. -/
def emptyChunk (fragmentType : StreamFragmentType) (index : ℕ) (final : Bool) : SSEChunkV1 where
  schemaVersion := "topic3.sse-chunk.v1"
  streamId := 1
  fragmentId := 10 + index
  candidateId := 2
  candidateVersion := 1
  blockId := none
  fragmentType
  chunkIndex := index
  isFinal := final
  dataEncoding := "utf-8-text"
  data := ""
  dataSha256 := "e3b0c44298fc1c149afbf4c8996fb92427ae41e4649b934ca495991b7852b855"
  emittedAt := 0

def afterDeliveries (chunks : List SSEChunkV1) : SSEChunkAssembler :=
  (addAll ⟨128, by decide, ∅⟩ chunks).2

/-- **A rejected chunk moves the cursor or closes the stream**: a second snapshot waits at the next index, or a
chunk waits beyond the final one. -/
theorem rejected_chunk_advances :
    (let a := afterDeliveries [emptyChunk .SNAPSHOT 1 true]
      let chunk := emptyChunk .START 0 false
      (∃ e, (a.add chunk).1 = .error e) ∧ (a.stateOf chunk.streamKey).expectedIndex = 0 ∧
        ((a.add chunk).2.stateOf chunk.streamKey).expectedIndex = 1 ∧
        ((a.add chunk).2.stateOf chunk.streamKey).pending.lookup 1 = none) ∧
      let a := afterDeliveries [emptyChunk .DELTA 1 false]
      let chunk := emptyChunk .SNAPSHOT 0 true
      (∃ e, (a.add chunk).1 = .error e) ∧ (a.stateOf chunk.streamKey).closed = false ∧
        ((a.add chunk).2.stateOf chunk.streamKey).closed = true :=
  ⟨⟨⟨_, rfl⟩, rfl, rfl, rfl⟩, ⟨_, rfl⟩, rfl, rfl⟩

end sample

end SSEChunkAssembler

end CyberControl.Streaming
