import CyberControl.SseReplayLog

/-! # When a replay shows no hole

The expiry of a row comes from a clock that `append` reads before it waits for the tenant's lock under
which the sequence is assigned, so a row that was appended later may expire earlier. -/

namespace CyberControl.SseReplayLog

open Streaming Scheduling Transition

variable {sha256Hex : List (String × Json) → String} {log : Settings}

/-! ### The property -/

/-- The events are those of the tenant from the cursor, when there is one, to the maximum. -/
structure ShowsNoHole (replay : Replay) (nextSequence : ℕ) (minimumRetained : Option ℕ)
    (events : List SSEEvent) : Prop where
  tenant : ∀ event ∈ events, event.tenantId = replay.tenantId
  consecutive : ∃ start ≤ nextSequence,
    events.map (·.sequence) = List.range' start (nextSequence - start) ∧
      ∀ after ∈ replay.afterSequence, (start : ℤ) = after + 1
  nonempty : replay.afterSequence = none → events = [] → minimumRetained = none

def Answer.NoHole (a : Answer) : Prop :=
  match a.result with
  | .error e => ∃ text, e = cursorInvalid text
  | .ok events => ShowsNoHole a.replay a.nextSequence a.minimumRetained events

/-- The step keeps the clocks in order: an append brings a clock that is not behind those of the
stored rows, a deletion breaks ties by the sequence, and neither of them takes a row away from a
replay between its statements: an appended row has not expired by the replay's clock, and a deleted
one after its cursor has. -/
def InOrder (log : Settings) (s : State) : Action → Prop
  | .append tenantId _ _ now _ =>
    (∀ row ∈ s.rows, row.tenantId = tenantId → row.emittedAt ≤ now) ∧
      ∀ r ∈ s.replays, r.tenantId = tenantId → r.afterSequence.isSome → r.now < now + log.retention
  | .deleteSelect tenantId _ _ eventIds =>
    ∀ row ∈ s.rows, row.tenantId = tenantId → row.eventId ∉ eventIds →
      ∀ first ∈ s.rows, first.eventId ∈ eventIds → first.expiresAt = row.expiresAt →
        first.sequence < row.sequence
  | .deleteCommit deletion =>
    ∀ eventIds ∈ s.deletions[deletion]?, ∀ row ∈ s.rows, row.eventId ∈ eventIds →
      ∀ r ∈ s.replays, r.tenantId = row.tenantId → (∃ after ∈ r.afterSequence, after < row.sequence) →
        row.expiresAt ≤ r.now
  | .replayBounds _ _ _ => True
  | .replayRows _ => True

instance (log : Settings) (s : State) : DecidablePred (InOrder log s)
  | .append _ _ _ _ _ => inferInstanceAs (Decidable (_ ∧ _))
  | .deleteSelect _ _ _ _ => inferInstanceAs (Decidable (∀ _ ∈ _, _))
  | .deleteCommit _ => inferInstanceAs (Decidable (∀ _ ∈ _, _))
  | .replayBounds _ _ _ => isTrue trivial
  | .replayRows _ => isTrue trivial

/-! ### Reading rows -/

theorem eq_range' {l : List ℕ} {start stop : ℕ} (hsorted : l.Pairwise (· < ·))
    (hmem : ∀ n, n ∈ l ↔ start ≤ n ∧ n < stop) : l = List.range' start (stop - start) := by
  have hrange : (List.range' start (stop - start)).Pairwise (· < ·) := List.pairwise_lt_range'
  have hperm : l.Perm (List.range' start (stop - start)) := by
    refine (List.perm_ext_iff_of_nodup (hsorted.imp ne_of_lt) (hrange.imp ne_of_lt)).mpr ?_
    intro n
    rw [hmem, List.mem_range'_1]
    omega
  refine hperm.eq_of_pairwise ?_ hsorted hrange
  intro a b _ _ hab hba
  omega

variable {row : Row}

theorem toEvent_ok {event : SSEEvent} (h : toEvent sha256Hex row = .ok event) :
    event.tenantId = row.tenantId ∧ event.sequence = row.sequence := by
  unfold toEvent at h
  split_ifs at h
  exact ⟨(make_ok h).1, (make_ok h).2.1⟩

variable {rows : List Row}

theorem mapM_toEvent (h : ∀ row ∈ rows, ∃ event, toEvent sha256Hex row = .ok event) :
    ∃ events, rows.mapM (toEvent sha256Hex) = .ok events ∧
      events.map (·.sequence) = rows.map (·.sequence) ∧
      ∀ event ∈ events, ∃ row ∈ rows, event.tenantId = row.tenantId := by
  induction rows with
  | nil => exact ⟨[], rfl, rfl, by simp⟩
  | cons row rows ih =>
    obtain ⟨event, hevent⟩ := h row List.mem_cons_self
    obtain ⟨events, hevents, hseq, htenant⟩ := ih fun r hr => h r (List.mem_cons_of_mem row hr)
    obtain ⟨ht, hs⟩ := toEvent_ok hevent
    refine ⟨event :: events, ?_, ?_, ?_⟩
    · rw [List.mapM_cons, hevent, hevents]
      rfl
    · rw [List.map_cons, List.map_cons, hseq, hs]
    · intro e he
      rcases List.mem_cons.mp he with rfl | he
      · exact ⟨row, List.mem_cons_self, ht⟩
      · obtain ⟨r, hr, hrt⟩ := htenant e he
        exact ⟨r, List.mem_cons_of_mem row hr, hrt⟩

variable {tenantId : String} {s : State}

theorem Numbered.sequence_nodup (h : Numbered s) {l : List Row}
    (hsub : l.Sublist s.rows) (ht : ∀ row ∈ l, row.tenantId = tenantId) :
    (l.map (·.sequence)).Nodup := by
  have hpairs : (l.map fun row => (row.tenantId, row.sequence)).Nodup :=
    ((hsub.trans h.sublist).map _).nodup h.assigned_nodup
  have heq : (l.map fun row => (row.tenantId, row.sequence)) =
      (l.map (·.sequence)).map fun n => (tenantId, n) := by
    rw [List.map_map]
    apply List.map_congr_left
    intro row hrow
    rw [ht row hrow]
    rfl
  exact List.Nodup.of_map _ (heq ▸ hpairs)

theorem Numbered.map_sortBy (h : Numbered s) {l : List Row}
    {start stop : ℕ} (hsub : l.Sublist s.rows) (ht : ∀ row ∈ l, row.tenantId = tenantId)
    (hmem : ∀ n, (∃ row ∈ l, row.sequence = n) ↔ start ≤ n ∧ n < stop) :
    (sortBy (·.sequence) l).map (·.sequence) = List.range' start (stop - start) := by
  have hsorted := pairwise_lt_sortBy (h.sequence_nodup hsub ht)
  refine eq_range' (List.pairwise_map.mpr hsorted) ?_
  intro n
  rw [← hmem n]
  simp

/-! ### The invariant -/

/-- The stored rows of a tenant run up to its maximum and expire in the order of their sequences, a
deletion in flight takes the first of them, and a replay in flight finds every row after its
cursor. -/
structure Contiguous (sha256Hex : List (String × Json) → String) (log : Settings) (s : State) : Prop where
  numbered : Numbered s
  readable : ∀ row ∈ s.rows, ∃ event, toEvent sha256Hex row = .ok event
  expiresAt_eq : ∀ row ∈ s.rows, row.expiresAt = row.emittedAt + log.retention
  monotone : ∀ x ∈ s.rows, ∀ y ∈ s.rows, x.tenantId = y.tenantId → x.sequence ≤ y.sequence →
    x.expiresAt ≤ y.expiresAt
  upward : ∀ x ∈ s.rows, ∀ n, x.sequence ≤ n → n < nextSequence x.tenantId s.rows →
    ∃ y ∈ s.rows, y.tenantId = x.tenantId ∧ y.sequence = n
  downward : ∀ eventIds ∈ s.deletions, ∀ x ∈ s.rows, x.eventId ∈ eventIds →
    ∀ y ∈ s.rows, y.tenantId = x.tenantId → y.sequence ≤ x.sequence → y.eventId ∈ eventIds
  pending : ∀ r ∈ s.replays, ∀ after ∈ r.afterSequence,
    (0 ≤ after + 1 ∧ after + 1 ≤ nextSequence r.tenantId s.rows) ∧
      ∀ n : ℕ, after < n → n < nextSequence r.tenantId s.rows →
        ∃ y ∈ s.rows, y.tenantId = r.tenantId ∧ y.sequence = n ∧ r.now < y.expiresAt
  answered : ∀ a ∈ s.answers, a.NoHole

theorem contiguous_init : Contiguous sha256Hex log {} := by
  constructor <;> simp [numbered_init]

theorem Contiguous.insert (h : Contiguous sha256Hex log s)
    {now eventId : ℕ} (hfresh : eventId ∉ s.inserted.map (·.eventId))
    (hrow : Inserts sha256Hex log s.rows tenantId now eventId row)
    (hnow : ∀ r ∈ s.rows, r.tenantId = tenantId → r.emittedAt ≤ now)
    (hreplays : ∀ r ∈ s.replays, r.tenantId = tenantId → r.afterSequence.isSome →
      r.now < now + log.retention) :
    Contiguous sha256Hex log (s.insert row) := by
  have hnext := nextSequence_append hrow.sequence_eq
  have hlast : ∀ t, row.tenantId ≠ t → nextSequence t (s.rows ++ [row]) = nextSequence t s.rows := by
    intro t ht
    rw [hnext t, if_neg ht]
  have hseq := hrow.sequence_eq
  have hexpires := hrow.expiresAt_eq
  have htenant := hrow.tenantId_eq
  constructor
  · exact h.numbered.insert hfresh hrow
  · intro r hr
    rcases List.mem_append.mp hr with hr | hr
    · exact h.readable r hr
    · exact List.mem_singleton.mp hr ▸ hrow.readable
  · intro r hr
    rcases List.mem_append.mp hr with hr | hr
    · exact h.expiresAt_eq r hr
    · rw [List.mem_singleton.mp hr, hexpires, hrow.emittedAt_eq]
  · intro x hx y hy ht hle
    rcases List.mem_append.mp hx with hxs | hxr
    · rcases List.mem_append.mp hy with hys | hyr
      · exact h.monotone x hxs y hys ht hle
      · obtain rfl := List.mem_singleton.mp hyr
        have := hnow x hxs (ht.trans htenant)
        have := h.expiresAt_eq x hxs
        omega
    · obtain rfl := List.mem_singleton.mp hxr
      rcases List.mem_append.mp hy with hys | hyr
      · have := lt_nextSequence hys
        rw [← ht] at this
        omega
      · rw [List.mem_singleton.mp hyr]
  · intro x hx n hle hlt
    have hkeep : ∀ t, row.tenantId = t → n = row.sequence →
        ∃ y ∈ (s.insert row).rows, y.tenantId = t ∧ y.sequence = n :=
      fun t ht hn => ⟨row, by simp [State.insert], ht, hn.symm⟩
    rcases List.mem_append.mp hx with hx | hx
    · have hold : n < nextSequence x.tenantId s.rows →
          ∃ y ∈ (s.insert row).rows, y.tenantId = x.tenantId ∧ y.sequence = n := by
        intro hn
        obtain ⟨y, hy, hyt, hys⟩ := h.upward x hx n hle hn
        exact ⟨y, List.mem_append_left _ hy, hyt, hys⟩
      by_cases ht : row.tenantId = x.tenantId
      · have hlt' : n < nextSequence x.tenantId (s.rows ++ [row]) := hlt
        rw [hnext, if_pos ht] at hlt'
        rw [ht] at hseq
        rcases Nat.lt_or_ge n row.sequence with hn | hn
        · exact hold (by omega)
        · exact hkeep x.tenantId ht (by omega)
      · exact hold (by rwa [← hlast x.tenantId ht])
    · obtain rfl := List.mem_singleton.mp hx
      have hlt' : n < nextSequence x.tenantId (s.rows ++ [x]) := hlt
      rw [hnext, if_pos rfl] at hlt'
      exact hkeep x.tenantId rfl (by omega)
  · intro ids hids x hx hid y hy ht hle
    have hold : row.eventId ∉ ids := by
      intro hmem
      rw [hrow.eventId_eq] at hmem
      exact hfresh (h.numbered.known ids hids eventId hmem)
    rcases List.mem_append.mp hx with hxs | hxr
    · rcases List.mem_append.mp hy with hys | hyr
      · exact h.downward ids hids x hxs hid y hys ht hle
      · obtain rfl := List.mem_singleton.mp hyr
        have := lt_nextSequence hxs
        rw [← ht] at this
        omega
    · exact absurd (List.mem_singleton.mp hxr ▸ hid) hold
  · intro r hr after hafter
    obtain ⟨⟨hnonneg, hbound⟩, hfound⟩ := h.pending r hr after hafter
    have hold : ∀ n : ℕ, after < n → n < nextSequence r.tenantId s.rows →
        ∃ y ∈ (s.insert row).rows, y.tenantId = r.tenantId ∧ y.sequence = n ∧ r.now < y.expiresAt := by
      intro n hn hlt
      obtain ⟨y, hy, hyt, hys, hyn⟩ := hfound n hn hlt
      exact ⟨y, List.mem_append_left _ hy, hyt, hys, hyn⟩
    by_cases ht : row.tenantId = r.tenantId
    · have heq : nextSequence r.tenantId (s.insert row).rows = row.sequence + 1 := by
        rw [State.insert, hnext, if_pos ht]
      rw [ht] at hseq
      rw [heq]
      refine ⟨⟨hnonneg, by omega⟩, ?_⟩
      intro n hn hlt
      rcases Nat.lt_or_ge n row.sequence with hless | hge
      · exact hold n hn (by omega)
      · have hsome : r.afterSequence.isSome := Option.isSome_of_mem hafter
        have := hreplays r hr (ht.symm.trans htenant) hsome
        exact ⟨row, by simp [State.insert], ht, by omega, by omega⟩
    · have heq : nextSequence r.tenantId (s.insert row).rows = nextSequence r.tenantId s.rows :=
        hlast r.tenantId ht
      rw [heq]
      exact ⟨⟨hnonneg, hbound⟩, hold⟩
  · exact h.answered

theorem Contiguous.delete (h : Contiguous sha256Hex log s) {deletion : ℕ}
    {eventIds : List ℕ} (hids : s.deletions[deletion]? = some eventIds)
    (hexpired : ∀ row ∈ s.rows, row.eventId ∈ eventIds → ∀ r ∈ s.replays, r.tenantId = row.tenantId →
      (∃ after ∈ r.afterSequence, after < row.sequence) → row.expiresAt ≤ r.now) :
    Contiguous sha256Hex log (s.delete deletion eventIds) := by
  have hnext := nextSequence_delete h.numbered hids
  have hmem : eventIds ∈ s.deletions := List.mem_of_getElem? hids
  have hrows : ∀ {row}, row ∈ (s.delete deletion eventIds).rows ↔ row ∈ s.rows ∧ row.eventId ∉ eventIds := by
    intro row
    simp [State.delete]
  constructor
  · exact h.numbered.delete hids
  · exact fun row hrow => h.readable row (hrows.mp hrow).1
  · exact fun row hrow => h.expiresAt_eq row (hrows.mp hrow).1
  · exact fun x hx y hy => h.monotone x (hrows.mp hx).1 y (hrows.mp hy).1
  · intro x hx n hle hlt
    obtain ⟨hx, hkept⟩ := hrows.mp hx
    rw [hnext] at hlt
    obtain ⟨y, hy, ht, hseq⟩ := h.upward x hx n hle hlt
    refine ⟨y, hrows.mpr ⟨hy, ?_⟩, ht, hseq⟩
    intro hdeleted
    exact hkept (h.downward eventIds hmem y hy hdeleted x hx ht.symm (by omega))
  · intro ids hother x hx hid y hy
    exact h.downward ids (List.mem_of_mem_eraseIdx hother) x (hrows.mp hx).1 hid y (hrows.mp hy).1
  · intro r hr after hafter
    obtain ⟨hbounds, hfound⟩ := h.pending r hr after hafter
    rw [hnext]
    refine ⟨hbounds, ?_⟩
    intro n hn hlt
    obtain ⟨y, hy, ht, hseq, hnow⟩ := hfound n hn hlt
    refine ⟨y, hrows.mpr ⟨hy, ?_⟩, ht, hseq, hnow⟩
    intro hdeleted
    have := hexpired y hy hdeleted r hr ht.symm ⟨after, hafter, by omega⟩
    omega
  · exact h.answered

theorem Contiguous.select (h : Contiguous sha256Hex log s)
    {limit now : ℕ} {eventIds : List ℕ} (hselects : Selects s.rows tenantId limit now eventIds)
    (hties : ∀ row ∈ s.rows, row.tenantId = tenantId → row.eventId ∉ eventIds →
      ∀ first ∈ s.rows, first.eventId ∈ eventIds → first.expiresAt = row.expiresAt →
        first.sequence < row.sequence) :
    Contiguous sha256Hex log { s with deletions := s.deletions ++ [eventIds] } := by
  refine ⟨h.numbered.select hselects, h.readable, h.expiresAt_eq, h.monotone, h.upward, ?_, h.pending,
    h.answered⟩
  intro ids hids x hx hid y hy ht hle
  rcases List.mem_append.mp hids with hids | hids
  · exact h.downward ids hids x hx hid y hy ht hle
  · rw [List.mem_singleton.mp hids] at hid ⊢
    by_contra hleft
    have hxe := mem_expired_of_selected h.numbered hselects hx hid
    obtain ⟨⟨_, hxt⟩, hxnow, hxlt⟩ := mem_expired.mp hxe
    have hbefore := h.monotone y hy x hx ht hle
    have hye : y ∈ expired tenantId now s.rows :=
      mem_expired.mpr ⟨⟨hy, ht.trans hxt⟩, by omega, by omega⟩
    -- what is left behind does not expire before what is selected, so the two tie
    have hafter := hselects.2.2.2 y hye hleft x hxe hid
    have := hties y hy (ht.trans hxt) hleft x hx hid (by omega)
    omega

/-! ### Replays -/

theorem validateCursor_error {afterSequence : Option ℤ} {minimum maximum : Option ℕ} {e : Exn}
    (h : validateCursor afterSequence minimum maximum = .error e) : ∃ text, e = cursorInvalid text := by
  unfold validateCursor at h
  split at h
  · cases h
  · split at h
    · cases h
      exact ⟨_, rfl⟩
    · split_ifs at h <;> (cases h; exact ⟨_, rfl⟩)

theorem validateCursor_ok {after : ℤ} {minimumRetained maximumSeen : Option ℕ}
    (h : validateCursor (some after) minimumRetained maximumSeen = .ok ()) :
    ∃ maximum, maximumSeen = some maximum ∧ after ≤ maximum ∧
      (∀ minimum ∈ minimumRetained, (minimum : ℤ) - 1 ≤ after) ∧
      (minimumRetained = none → (maximum : ℤ) ≤ after) := by
  cases maximumSeen with
  | none => cases h
  | some maximum =>
    simp only [validateCursor] at h
    split_ifs at h with hle hstale
    refine ⟨maximum, rfl, by omega, ?_, ?_⟩
    · intro minimum hmin
      rw [Option.mem_def.mp hmin] at hstale
      simp only [cursorIsStale, decide_eq_true_eq] at hstale
      omega
    · intro hnone
      rw [hnone] at hstale
      simp only [cursorIsStale, decide_eq_true_eq] at hstale
      omega

variable {now : ℕ}

theorem minimumRetained_eq_none :
    minimumRetained tenantId now rows = none ↔ retained tenantId now rows = [] := by
  rw [minimumRetained, List.min?_eq_none_iff, List.map_eq_nil_iff]

theorem minimumRetained_eq_some {now minimum : ℕ}
    (h : minimumRetained tenantId now rows = some minimum) :
    (∃ row ∈ retained tenantId now rows, row.sequence = minimum) ∧
      ∀ row ∈ retained tenantId now rows, minimum ≤ row.sequence := by
  obtain ⟨hmem, hle⟩ := List.min?_eq_some_iff.mp h
  exact ⟨by simpa using List.mem_map.mp hmem, fun row hrow => hle _ (List.mem_map_of_mem hrow)⟩

theorem Contiguous.exists_retained (h : Contiguous sha256Hex log s)
    (hrow : row ∈ retained tenantId now s.rows) {n : ℕ} (hle : row.sequence ≤ n)
    (hlt : n < nextSequence tenantId s.rows) :
    ∃ y ∈ s.rows, y.tenantId = tenantId ∧ y.sequence = n ∧ now < y.expiresAt := by
  obtain ⟨⟨hmem, rfl⟩, hnow⟩ := mem_retained.mp hrow
  obtain ⟨y, hy, ht, hseq⟩ := h.upward row hmem n hle hlt
  have := h.monotone row hmem y hy ht.symm (by omega)
  exact ⟨y, hy, ht, hseq, by omega⟩

theorem Contiguous.pass (h : Contiguous sha256Hex log s)
    {afterSequence : Option ℤ}
    (hvalid : replayBounds s.rows tenantId afterSequence now = .ok ()) :
    Contiguous sha256Hex log { s with replays := s.replays ++ [{ tenantId, afterSequence, now }] } := by
  refine ⟨h.numbered.of_eq rfl rfl rfl, h.readable, h.expiresAt_eq, h.monotone, h.upward, h.downward,
    ?_, h.answered⟩
  intro r hr after hafter
  rcases List.mem_append.mp hr with hr | hr
  · exact h.pending r hr after hafter
  · obtain rfl := List.mem_singleton.mp hr
    obtain rfl := Option.mem_def.mp hafter
    obtain ⟨maximum, hmax, hle, hsome, hnone⟩ := validateCursor_ok hvalid
    have hnext : nextSequence tenantId s.rows = maximum + 1 := by
      rw [nextSequence, hmax]
    cases hmin : minimumRetained tenantId now s.rows with
    | none =>
      have := hnone hmin
      simp only [hnext]
      refine ⟨⟨by omega, by omega⟩, ?_⟩
      intro n hn hlt
      omega
    | some minimum =>
      have := hsome minimum hmin
      obtain ⟨⟨row, hrow, hseq⟩, _⟩ := minimumRetained_eq_some hmin
      refine ⟨⟨by omega, by simp only [hnext]; omega⟩, ?_⟩
      intro n hn hlt
      exact h.exists_retained hrow (by omega) hlt

theorem Contiguous.answer (h : Contiguous sha256Hex log s) {a : Answer} (ha : a.NoHole) :
    Contiguous sha256Hex log (s.answered a) := by
  refine ⟨h.numbered.of_eq rfl rfl rfl, h.readable, h.expiresAt_eq, h.monotone, h.upward, h.downward,
    h.pending, ?_⟩
  intro b hb
  rcases List.mem_append.mp hb with hb | hb
  · exact h.answered b hb
  · exact List.mem_singleton.mp hb ▸ ha

variable {r : Replay}

theorem noHole_cursorInvalid {e : Exn} (h : ∃ text, e = cursorInvalid text) :
    (SseReplayLog.answer rows r (.error e)).NoHole := h

theorem Contiguous.showsNoHole (h : Contiguous sha256Hex log s)
    {page : List Row} (start : ℕ) (hpage : ∀ row ∈ page, row ∈ s.rows ∧ row.tenantId = r.tenantId)
    (hle : start ≤ nextSequence r.tenantId s.rows)
    (hseq : page.map (·.sequence) = List.range' start (nextSequence r.tenantId s.rows - start))
    (hafter : ∀ after ∈ r.afterSequence, (start : ℤ) = after + 1)
    (hnonempty : r.afterSequence = none → page = [] → minimumRetained r.tenantId r.now s.rows = none) :
    (SseReplayLog.answer s.rows r (page.mapM (toEvent sha256Hex))).NoHole := by
  obtain ⟨events, hevents, hsequences, htenant⟩ :=
    mapM_toEvent fun row hrow => h.readable row (hpage row hrow).1
  rw [hevents]
  refine ⟨?_, ⟨start, hle, hsequences.trans hseq, hafter⟩, ?_⟩
  · intro event hevent
    obtain ⟨row, hrow, ht⟩ := htenant event hevent
    exact ht.trans (hpage row hrow).2
  · intro hnone hnil
    rw [hnil, List.map_nil] at hsequences
    exact hnonempty hnone (List.map_eq_nil_iff.mp hsequences.symm)

theorem Contiguous.readAfter (h : Contiguous sha256Hex log s) {after : ℤ}
    (hr : r ∈ s.replays) (hafter : r.afterSequence = some after) :
    (SseReplayLog.answer s.rows r
      (replayRows sha256Hex log s.rows r.tenantId r.afterSequence r.now)).NoHole := by
  obtain ⟨⟨hnonneg, hbound⟩, hfound⟩ := h.pending r hr after hafter
  unfold replayRows
  simp only [hafter, Option.isSome_some, true_and]
  split_ifs with hbudget
  · exact noHole_cursorInvalid ⟨_, rfl⟩
  · have hsub : ((retained r.tenantId r.now s.rows).filter (after < ·.sequence)).Sublist s.rows :=
      (List.filter_sublist.trans List.filter_sublist).trans List.filter_sublist
    have hmem : ∀ row ∈ (retained r.tenantId r.now s.rows).filter (after < ·.sequence),
        (row ∈ s.rows ∧ row.tenantId = r.tenantId) ∧ after < row.sequence := by
      intro row hrow
      obtain ⟨hrow, hlt⟩ := List.mem_filter.mp hrow
      exact ⟨(mem_retained.mp hrow).1, by simpa using hlt⟩
    have hpage : replayPage log s.rows r.tenantId (some after) r.now =
        sortBy (·.sequence) ((retained r.tenantId r.now s.rows).filter (after < ·.sequence)) := by
      apply List.take_of_length_le
      simp only [replayPage, List.length_take] at hbudget
      omega
    rw [hpage]
    refine h.showsNoHole (after + 1).toNat ?_ (by omega) ?_ ?_ ?_
    · intro row hrow
      exact (hmem row (mem_sortBy.mp hrow)).1
    · refine h.numbered.map_sortBy hsub (fun row hrow => (hmem row hrow).1.2) ?_
      intro n
      constructor
      · rintro ⟨row, hrow, rfl⟩
        obtain ⟨⟨hrow, ht⟩, hlt⟩ := hmem row hrow
        have := lt_nextSequence hrow
        rw [ht] at this
        omega
      · rintro ⟨hge, hlt⟩
        obtain ⟨y, hy, ht, hseq, hnow⟩ := hfound n (by omega) hlt
        refine ⟨y, List.mem_filter.mpr ⟨mem_retained.mpr ⟨⟨hy, ht⟩, hnow⟩, ?_⟩, hseq⟩
        simpa [hseq] using (by omega : after < n)
    · rw [hafter]
      rintro _ ⟨⟩
      omega
    · intro hnone
      rw [hafter] at hnone
      cases hnone

theorem Contiguous.map_retained (h : Contiguous sha256Hex log s) (tenantId : String)
    (now : ℕ) : ∃ start ≤ nextSequence tenantId s.rows,
      (sortBy (·.sequence) (retained tenantId now s.rows)).map (·.sequence) =
        List.range' start (nextSequence tenantId s.rows - start) := by
  have hsub : (retained tenantId now s.rows).Sublist s.rows :=
    List.filter_sublist.trans List.filter_sublist
  cases hmin : minimumRetained tenantId now s.rows with
  | none =>
    refine ⟨nextSequence tenantId s.rows, le_refl _, ?_⟩
    rw [minimumRetained_eq_none.mp hmin, Nat.sub_self]
    rfl
  | some minimum =>
    obtain ⟨⟨row, hrow, hseq⟩, hle⟩ := minimumRetained_eq_some hmin
    have hlt : ∀ x ∈ retained tenantId now s.rows, x.sequence < nextSequence tenantId s.rows := by
      intro x hx
      obtain ⟨⟨hmem, rfl⟩, _⟩ := mem_retained.mp hx
      exact lt_nextSequence hmem
    refine ⟨minimum, by have := hlt row hrow; omega, ?_⟩
    refine h.numbered.map_sortBy hsub (fun x hx => (mem_retained.mp hx).1.2) ?_
    intro n
    constructor
    · rintro ⟨x, hx, rfl⟩
      exact ⟨hle x hx, hlt x hx⟩
    · rintro ⟨hge, hn⟩
      obtain ⟨y, hy, ht, hys, hnow⟩ := h.exists_retained hrow (by omega) hn
      exact ⟨y, mem_retained.mpr ⟨⟨hy, ht⟩, hnow⟩, hys⟩

theorem Contiguous.readLatest (h : Contiguous sha256Hex log s)
    (hafter : r.afterSequence = none) :
    (SseReplayLog.answer s.rows r
      (replayRows sha256Hex log s.rows r.tenantId r.afterSequence r.now)).NoHole := by
  obtain ⟨start, hle, hseq⟩ := h.map_retained r.tenantId r.now
  have hlen := congrArg List.length hseq
  rw [List.length_map, List.length_range'] at hlen
  unfold replayRows
  simp only [hafter, Option.isSome_none, Bool.false_eq_true, false_and, if_false, replayPage,
    List.take_reverse, List.reverse_reverse]
  generalize hrows : sortBy (·.sequence) (retained r.tenantId r.now s.rows) = rows at hseq hlen
  have hskip : rows.length - log.maxReplayEvents ≤ rows.length := Nat.sub_le _ _
  refine h.showsNoHole (start + (rows.length - log.maxReplayEvents)) ?_ (by omega) ?_ ?_ ?_
  · intro row hrow
    have hmem := List.mem_of_mem_drop hrow
    rw [← hrows] at hmem
    exact (mem_retained.mp (mem_sortBy.mp hmem)).1
  · rw [List.map_drop, hseq, List.drop_range']
    congr 1
    · omega
    · omega
  · rw [hafter]
    simp
  · intro _ hnil
    have hmax := log.maxReplayEvents_bounds.1
    have hzero := List.drop_eq_nil_iff.mp hnil
    have hrows' : rows = [] := List.length_eq_zero_iff.mp (by omega)
    rw [minimumRetained_eq_none, List.eq_nil_iff_forall_not_mem]
    intro row hrow
    have : row ∈ rows := hrows ▸ mem_sortBy.mpr hrow
    rw [hrows'] at this
    cases this

theorem Contiguous.read (h : Contiguous sha256Hex log s) {replay : ℕ}
    (hr : s.replays[replay]? = some r) :
    Contiguous sha256Hex log
      ({ s with replays := s.replays.eraseIdx replay }.answered
        (SseReplayLog.answer s.rows r
          (replayRows sha256Hex log s.rows r.tenantId r.afterSequence r.now))) := by
  have herase : Contiguous sha256Hex log { s with replays := s.replays.eraseIdx replay } :=
    ⟨h.numbered.of_eq rfl rfl rfl, h.readable, h.expiresAt_eq, h.monotone, h.upward, h.downward,
      fun x hx => h.pending x (List.mem_of_mem_eraseIdx hx), h.answered⟩
  refine herase.answer ?_
  cases hafter : r.afterSequence with
  | none => exact hafter ▸ h.readLatest hafter
  | some after => exact hafter ▸ h.readAfter (List.mem_of_getElem? hr) hafter

theorem Contiguous.step {s s' : State} {a : Action} (h : Contiguous sha256Hex log s)
    (ha : InOrder log s a) (hstep : step sha256Hex log s a = some s') : Contiguous sha256Hex log s' := by
  cases step_effect hstep with
  | refuse => exact h
  | insert fresh inserts => exact h.insert fresh inserts ha.1 ha.2
  | select selects => exact h.select selects ha
  | delete selected => exact h.delete selected (ha _ selected)
  | reject invalid => exact h.answer (noHole_cursorInvalid (validateCursor_error invalid))
  | pass valid => exact h.pass valid
  | read pending => exact h.read pending

/-- The sequences that a replay returned. -/
def Answer.sequences (a : Answer) : Option (List ℕ) :=
  match a.result with
  | .error _ => none
  | .ok events => some (events.map (·.sequence))

theorem Answer.NoHole.sequences {a : Answer} (h : a.NoHole) {l : List ℕ} (hl : a.sequences = some l) :
    ∃ start ≤ a.nextSequence, l = List.range' start (a.nextSequence - start) ∧
      ∀ after ∈ a.replay.afterSequence, (start : ℤ) = after + 1 := by
  unfold Answer.sequences at hl
  unfold Answer.NoHole at h
  cases hresult : a.result with
  | error e =>
    rw [hresult] at hl
    cases hl
  | ok events =>
    rw [hresult] at hl h
    cases hl
    exact h.consecutive

/-- A log that keeps an event for ten units of time. -/
def sampleLog : Settings where
  retention := 10
  maxEventBytes := 100
  maxReplayEvents := 10
  retention_pos := by decide
  maxEventBytes_pos := by decide
  maxReplayEvents_bounds := by decide

/-- Three events, a deletion that commits while a replay is between its statements, a fourth event,
and a replay without a cursor. -/
def orderedActions : List Action :=
  [.append "t" "a" [] 1 0, .append "t" "a" [] 2 1, .append "t" "a" [] 3 2,
    .deleteSelect "t" 1 11 [0], .replayBounds "t" (some 0) 11, .deleteCommit 0,
    .append "t" "a" [] 12 3, .replayRows 0, .replayBounds "t" none 12, .replayRows 0]

/-- Three events; the second append waited for the lock with a clock that is behind. -/
def lateClockActions : List Action :=
  [.append "t" "a" [] 10 0, .append "t" "a" [] 2 1, .append "t" "a" [] 10 2,
    .replayBounds "t" (some (-1)) 13, .replayRows 0]

end CyberControl.SseReplayLog
