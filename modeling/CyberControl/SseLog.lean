import CyberControl.SseBroker

/-! # Events of the durable log

* `FromLog log l`: every event of `l` is the one that the log stores under its sequence.
* `stream log prefixes k`: the matching events after sequence `k`, and `streamUpTo` those of them
  up to a given sequence. -/

namespace CyberControl.SseBroker

/-! ### Events of the log -/

/-- Every event of `l` is the event that the log stores under its sequence. -/
def FromLog (log l : List Event) : Prop := ∀ e ∈ l, log[e.sequence]? = some e

/-- The log stores its events under their sequences. -/
def Sequenced (log : List Event) : Prop := ∀ (i : ℕ) e, log[i]? = some e → e.sequence = i

theorem FromLog.append {log l l' : List Event} (h : FromLog log l) (h' : FromLog log l') :
    FromLog log (l ++ l') := by
  intro e he
  rcases List.mem_append.mp he with he | he
  · exact h e he
  · exact h' e he

theorem FromLog.mono {log l l' : List Event} (h : FromLog log l) (hsub : ∀ e ∈ l', e ∈ l) :
    FromLog log l' := fun e he => h e (hsub e he)

variable {log l : List Event}

theorem FromLog.append_log (h : FromLog log l) (x : List Event) :
    FromLog (log ++ x) l := by
  intro e he
  have hlt : e.sequence < log.length := (List.getElem?_eq_some_iff.mp (h e he)).1
  rw [List.getElem?_append_left hlt]
  exact h e he

theorem Sequenced.fromLog {log : List Event} (h : Sequenced log) {l : List Event}
    (hsub : ∀ e ∈ l, e ∈ log) : FromLog log l := by
  intro e he
  obtain ⟨i, hi⟩ := List.mem_iff_getElem?.mp (hsub e he)
  rwa [h i e hi]

/-- **Stored events without a sequence gap are a run of the log.** -/
theorem run_of_no_gap {p : ℕ} (hl : FromLog log l)
    (hgap : sequenceGapFrom ((p : ℤ) - 1) l = none) :
    l = (log.drop p).take l.length ∧
      tailSequence l (some ((p : ℤ) - 1)) = some ((p : ℤ) + l.length - 1) ∧
      (l ≠ [] → p + l.length ≤ log.length) := by
  induction l generalizing p with
  | nil => simp [tailSequence]
  | cons e l ih =>
    rw [sequenceGapFrom] at hgap
    split at hgap
    · cases hgap
    · rename_i hseq
      have hp : e.sequence = p := by omega
      have he : log[p]? = some e := hp ▸ hl e (by simp)
      have hlt : p < log.length := (List.getElem?_eq_some_iff.mp he).1
      have hcast : ((e.sequence : ℕ) : ℤ) = ((p + 1 : ℕ) : ℤ) - 1 := by omega
      rw [hcast] at hgap
      obtain ⟨hrun, htail, hle⟩ := ih (fun x hx => hl x (by simp [hx])) hgap
      refine ⟨?_, ?_, ?_⟩
      · have hdrop : log.drop p = e :: log.drop (p + 1) := by
          rw [List.drop_eq_getElem_cons hlt, (List.getElem?_eq_some_iff.mp he).2]
        rw [hdrop, List.length_cons, List.take_succ_cons, ← hrun]
      · have hlast : tailSequence (e :: l) (some ((p : ℤ) - 1)) =
            tailSequence l (some ((e.sequence : ℕ) : ℤ)) := by
          cases l with
          | nil => rfl
          | cons x l => simp only [tailSequence, List.getLast?_cons, Option.getD_some]
        rw [hlast, hcast, htail, List.length_cons]
        congr 1
        push_cast
        omega
      · intro _
        rw [List.length_cons]
        by_cases hnil : l = []
        · rw [hnil, List.length_nil]
          omega
        · have := hle hnil
          omega

theorem mem_insertBySequence {e x : Event} {l : List Event} (h : x ∈ insertBySequence e l) :
    x = e ∨ x ∈ l := by
  induction l with
  | nil => exact .inl (List.mem_singleton.mp h)
  | cons y l ih =>
    rw [insertBySequence] at h
    split_ifs at h
    · exact List.mem_cons.mp h
    · exact (List.mem_cons.mp h).imp_right fun hx => by simp [hx]
    · rcases List.mem_cons.mp h with rfl | hx
      · simp
      · exact (ih hx).imp_right fun hx => by simp [hx]

theorem mem_bySequence {x : Event} {events : List Event} (h : x ∈ bySequence events) :
    x ∈ events := by
  have hfold : ∀ (events l : List Event),
      x ∈ events.foldl (fun l e => insertBySequence e l) l → x ∈ events ∨ x ∈ l := by
    intro events
    induction events with
    | nil => exact fun l h => .inr h
    | cons e events ih =>
      intro l h
      rcases ih _ h with h | h
      · exact .inl (by simp [h])
      · exact (mem_insertBySequence h).imp (fun hx => by simp [hx]) id
  simpa using hfold events [] h

theorem FromLog.merge {log events merged : List Event} (h : FromLog log events)
    (hmerge : mergeReplayEvents events = .ok merged) : FromLog log merged := by
  unfold mergeReplayEvents at hmerge
  split at hmerge
  · cases hmerge
  · cases hmerge
    exact h.mono fun e he => mem_bySequence he

/-- What `firstSequenceGap` says of stored events after a cursor. -/
theorem run_of_firstSequenceGap {last : ℤ} (hlast : -1 ≤ last)
    (hl : FromLog log l) (hgap : firstSequenceGap l (some last) = none) :
    l = (log.drop (last + 1).toNat).take l.length ∧
      tailSequence l (some last) = some (last + l.length) ∧
      (l ≠ [] → last + l.length < log.length) := by
  have hcast : last = (((last + 1).toNat : ℕ) : ℤ) - 1 := by omega
  have hgap' : sequenceGapFrom ((((last + 1).toNat : ℕ) : ℤ) - 1) l = none := by
    cases l with
    | nil => rfl
    | cons e l =>
      rw [← hcast]
      exact hgap
  obtain ⟨hrun, htail, hle⟩ := run_of_no_gap hl hgap'
  refine ⟨hrun, ?_, fun hne => ?_⟩
  · rw [← hcast] at htail
    rw [htail]
    congr 1
    omega
  · have := hle hne
    omega

/-! ### The matching events up to a sequence -/

/-- The matching events of the log after sequence `k` and up to `last`. -/
def streamUpTo (log : List Event) (prefixes : List String) (k : ℕ) (last : ℤ) : List Event :=
  ((log.take (last + 1).toNat).drop (k + 1)).filter (matchesPrefixes prefixes)

/-- The matching events of the log after sequence `k`. -/
def stream (log : List Event) (prefixes : List String) (k : ℕ) : List Event :=
  (log.drop (k + 1)).filter (matchesPrefixes prefixes)

section stream
variable {log : List Event} {prefixes : List String} {k : ℕ} {last : ℤ}

theorem streamUpTo_isPrefix : streamUpTo log prefixes k last <+: stream log prefixes k := by
  have htake : (log.take (last + 1).toNat).drop (k + 1) <+: log.drop (k + 1) := by
    rw [List.drop_take]
    exact List.take_prefix _ _
  exact htake.filter _

theorem streamUpTo_self : streamUpTo log prefixes k k = [] := by
  have hnil : (log.take ((k : ℤ) + 1).toNat).drop (k + 1) = [] :=
    List.drop_eq_nil_of_le (by rw [List.length_take]; omega)
  rw [streamUpTo, hnil, List.filter_nil]

theorem stream_append_log (x : List Event) :
    stream log prefixes k <+: stream (log ++ x) prefixes k := by
  rw [stream, stream, List.drop_append, List.filter_append]
  exact List.prefix_append _ _

theorem streamUpTo_append_log (x : List Event) (h : last = k ∨ last < log.length) :
    streamUpTo (log ++ x) prefixes k last = streamUpTo log prefixes k last := by
  rcases h with rfl | h
  · rw [streamUpTo_self, streamUpTo_self]
  · rw [streamUpTo, List.take_append_of_le_length (by omega), ← streamUpTo]

variable (prefixes) in
theorem streamUpTo_extend {l : List Event} (hk : (k : ℤ) ≤ last)
    (hl : l = (log.drop (last + 1).toNat).take l.length) :
    streamUpTo log prefixes k (last + l.length) =
      streamUpTo log prefixes k last ++ l.filter (matchesPrefixes prefixes) := by
  have hn : (last + l.length + 1).toNat = (last + 1).toNat + l.length := by omega
  rw [streamUpTo, hn, List.take_add, ← hl, streamUpTo, ← List.filter_append]
  congr 1
  rw [List.drop_append]
  by_cases hlen : (last + 1).toNat ≤ log.length
  · have hzero : k + 1 - (log.take (last + 1).toNat).length = 0 := by
      rw [List.length_take]
      omega
    rw [hzero, List.drop_zero]
  · have hnil : l = [] := by
      rw [hl, List.drop_eq_nil_of_le (by omega), List.take_nil]
    rw [hnil, List.drop_nil]

/-- What is an initial part of the stream is the stream up to some length of the log. -/
theorem exists_take_of_isPrefix_filter {α : Type} {p : α → Bool} {l l' : List α}
    (h : l' <+: l.filter p) : ∃ n, l' = (l.take n).filter p := by
  induction l generalizing l' with
  | nil => exact ⟨0, by simpa using h⟩
  | cons a l ih =>
    by_cases ha : p a = true
    · rw [List.filter_cons_of_pos ha] at h
      cases l' with
      | nil => exact ⟨0, rfl⟩
      | cons b l' =>
        obtain ⟨rfl, htail⟩ := List.cons_prefix_cons.mp h
        obtain ⟨n, hn⟩ := ih htail
        exact ⟨n + 1, by rw [List.take_succ_cons, List.filter_cons_of_pos ha, hn]⟩
    · rw [List.filter_cons_of_neg ha] at h
      obtain ⟨n, hn⟩ := ih h
      exact ⟨n + 1, by rw [List.take_succ_cons, List.filter_cons_of_neg ha, hn]⟩

end stream

end CyberControl.SseBroker
