import CyberControl.Scheduling
import CyberControl.SseFrame
import CyberControl.Transition

/-! # The durable replay log

`PostgresSSEReplayLog` (`streaming/postgres_replay.py`) on the table `sse_events`.  The transactions
run under READ COMMITTED, so each statement sees what has committed before it:

* an `append` holds the tenant's advisory lock from the reading of the maximum to its commit;
* a `delete_expired` selects its rows in one statement and takes effect when it commits;
* a `replay` reads its clock, then the bounds, then the rows, in two statements between which
  others may commit. -/

namespace CyberControl.SseReplayLog

open Streaming Scheduling Transition

/-! ### The table -/

/-- `SSEEventModel`. -/
structure Row where
  eventId : ℕ
  tenantId : String
  sequence : ℕ
  eventType : String
  dataDocument : List (String × Json)
  dataSha256 : String
  emittedAt : ℕ
  expiresAt : ℕ

/-- What the constructor is given and checks. -/
structure Settings where
  retention : ℕ
  maxEventBytes : ℕ
  maxReplayEvents : ℕ
  retention_pos : 0 < retention
  maxEventBytes_pos : 1 ≤ maxEventBytes
  maxReplayEvents_bounds : 1 ≤ maxReplayEvents ∧ maxReplayEvents ≤ 10000

variable (sha256Hex : List (String × Json) → String) (log : Settings)

def rowsOf (tenantId : String) (rows : List Row) : List Row := rows.filter (·.tenantId = tenantId)

/-- The rows of a tenant that have not expired. -/
def retained (tenantId : String) (now : ℕ) (rows : List Row) : List Row :=
  (rowsOf tenantId rows).filter (now < ·.expiresAt)

/-- `select(func.max(SSEEventModel.sequence))` of a tenant. -/
def maximumSequence (tenantId : String) (rows : List Row) : Option ℕ :=
  ((rowsOf tenantId rows).map (·.sequence)).max?

/-- `func.min(SSEEventModel.sequence).filter(SSEEventModel.expires_at > now)` of a tenant. -/
def minimumRetained (tenantId : String) (now : ℕ) (rows : List Row) : Option ℕ :=
  ((retained tenantId now rows).map (·.sequence)).min?

/-- The sequence that an append assigns. -/
def nextSequence (tenantId : String) (rows : List Row) : ℕ :=
  match maximumSequence tenantId rows with
  | none => 0
  | some maximum => maximum + 1

/-! ### The operations -/

/-- The transaction of `append`: the event and the row that it inserts. -/
def append (rows : List Row) (tenantId eventType : String) (data : List (String × Json))
    (now eventId : ℕ) : Except Exn (SSEEvent × Row) := do
  validateSseEvent eventType data log.maxEventBytes
  let sequence := nextSequence tenantId rows
  let event ← SSEEvent.make tenantId sequence eventType data now
  return (event,
    { eventId, tenantId, sequence, eventType
      dataDocument := event.data
      dataSha256 := sha256Hex event.data
      emittedAt := now
      expiresAt := now + log.retention })

def cursorInvalid (text : String) : Exn :=
  .liyan { code := .SSE_REPLAY_CURSOR_INVALID, safeMessage := text, category := .MESSAGING, statusCode := 409 }

def cursorIsStale (afterSequence : ℤ) (minimumRetained : Option ℕ) (maximumSeen : ℕ) : Bool :=
  match minimumRetained with
  | some minimum => decide (afterSequence < minimum - 1)
  | none => decide (afterSequence < maximumSeen)

def validateCursor (afterSequence : Option ℤ) (minimumRetained maximumSeen : Option ℕ) :
    Except Exn Unit :=
  match afterSequence with
  | none => .ok ()
  | some after =>
    match maximumSeen with
    | none => .error (cursorInvalid "The SSE replay cursor is outside the known stream range.")
    | some maximum =>
      if after > maximum then
        .error (cursorInvalid "The SSE replay cursor is outside the known stream range.")
      else if cursorIsStale after minimumRetained maximum then
        .error (cursorInvalid "The SSE replay cursor is older than the retained event window.")
      else .ok ()

/-- The first statement of `replay`, and the check of the cursor. -/
def replayBounds (rows : List Row) (tenantId : String) (afterSequence : Option ℤ) (now : ℕ) :
    Except Exn Unit :=
  validateCursor afterSequence (minimumRetained tenantId now rows) (maximumSequence tenantId rows)

def toEvent (row : Row) : Except Exn SSEEvent :=
  if sha256Hex row.dataDocument ≠ row.dataSha256 then
    .error <| .liyan
      { code := .SSE_EVENT_INTEGRITY_FAILED
        safeMessage := "The persisted SSE event failed its integrity check."
        category := .DATABASE
        statusCode := 500 }
  else SSEEvent.make row.tenantId row.sequence row.eventType row.dataDocument row.emittedAt

/-- The rows that the second statement of `replay` fetches, in the order of their sequences. -/
def replayPage (rows : List Row) (tenantId : String) (afterSequence : Option ℤ) (now : ℕ) : List Row :=
  match afterSequence with
  | some after =>
    (sortBy (·.sequence) ((retained tenantId now rows).filter (after < ·.sequence))).take
      (log.maxReplayEvents + 1)
  | none =>
    ((sortBy (·.sequence) (retained tenantId now rows)).reverse.take log.maxReplayEvents).reverse

/-- The second statement of `replay`, and what the call makes of it. -/
def replayRows (rows : List Row) (tenantId : String) (afterSequence : Option ℤ) (now : ℕ) :
    Except Exn (List SSEEvent) :=
  let page := replayPage log rows tenantId afterSequence now
  if afterSequence.isSome ∧ page.length > log.maxReplayEvents then
    .error (cursorInvalid "The SSE replay gap exceeds the per-connection event budget.")
  else page.mapM (toEvent sha256Hex)

/-- The rows that `delete_expired` may delete. -/
def expired (tenantId : String) (now : ℕ) (rows : List Row) : List Row :=
  (rowsOf tenantId rows).filter fun row =>
    row.expiresAt ≤ now ∧ ∃ maximum ∈ maximumSequence tenantId rows, row.sequence < maximum

/-- `eventIds` is what the subquery of `delete_expired` may select: rows that expire first, at most
`limit` of them, in any order among those that expire at the same time. -/
def Selects (rows : List Row) (tenantId : String) (limit now : ℕ) (eventIds : List ℕ) : Prop :=
  eventIds.Nodup ∧ (∀ eventId ∈ eventIds, eventId ∈ (expired tenantId now rows).map (·.eventId)) ∧
    eventIds.length = min limit (expired tenantId now rows).length ∧
    ∀ row ∈ expired tenantId now rows, row.eventId ∉ eventIds →
      ∀ first ∈ expired tenantId now rows, first.eventId ∈ eventIds → first.expiresAt ≤ row.expiresAt

instance (rows : List Row) (tenantId : String) (limit now : ℕ) (eventIds : List ℕ) :
    Decidable (Selects rows tenantId limit now eventIds) :=
  inferInstanceAs (Decidable (_ ∧ _))

/-! ### Runs -/

/-- A `replay` between its two statements. -/
structure Replay where
  tenantId : String
  afterSequence : Option ℤ
  now : ℕ

/-- What a `replay` gave, with the next sequence of the tenant and the least retained one at the time
of its last statement. -/
structure Answer where
  replay : Replay
  result : Except Exn (List SSEEvent)
  nextSequence : ℕ
  minimumRetained : Option ℕ

/-- The table, the calls in flight, and for the record every row ever inserted and every answer. -/
structure State where
  rows : List Row := []
  deletions : List (List ℕ) := []
  replays : List Replay := []
  inserted : List Row := []
  answers : List Answer := []

inductive Action where
  | append (tenantId eventType : String) (data : List (String × Json)) (now eventId : ℕ)
  | deleteSelect (tenantId : String) (limit now : ℕ) (eventIds : List ℕ)
  | deleteCommit (deletion : ℕ)
  | replayBounds (tenantId : String) (afterSequence : Option ℤ) (now : ℕ)
  | replayRows (replay : ℕ)

/-- The record of an answer that is given now. -/
def answer (rows : List Row) (replay : Replay) (result : Except Exn (List SSEEvent)) : Answer where
  replay
  result
  nextSequence := nextSequence replay.tenantId rows
  minimumRetained := minimumRetained replay.tenantId replay.now rows

def State.insert (s : State) (row : Row) : State :=
  { s with rows := s.rows ++ [row], inserted := s.inserted ++ [row] }

/-- The commit of a deletion. -/
def State.delete (s : State) (deletion : ℕ) (eventIds : List ℕ) : State :=
  { s with
    rows := s.rows.filter (·.eventId ∉ eventIds)
    deletions := s.deletions.eraseIdx deletion }

def State.answered (s : State) (a : Answer) : State := { s with answers := s.answers ++ [a] }

def step (s : State) : Action → Option State
  | .append tenantId eventType data now eventId =>
    -- `uuid4` gives an identifier that no row has had
    if eventId ∈ s.inserted.map (·.eventId) then none
    else
      match append sha256Hex log s.rows tenantId eventType data now eventId with
      | .error _ => some s
      | .ok (_, row) => some (s.insert row)
  | .deleteSelect tenantId limit now eventIds =>
    if 1 ≤ limit ∧ limit ≤ 10000 ∧ Selects s.rows tenantId limit now eventIds then
      some { s with deletions := s.deletions ++ [eventIds] }
    else none
  | .deleteCommit deletion => do
    let eventIds ← s.deletions[deletion]?
    some (s.delete deletion eventIds)
  | .replayBounds tenantId afterSequence now =>
    match replayBounds s.rows tenantId afterSequence now with
    | .error e => some (s.answered (answer s.rows { tenantId, afterSequence, now } (.error e)))
    | .ok () => some { s with replays := s.replays ++ [{ tenantId, afterSequence, now }] }
  | .replayRows replay => do
    let r ← s.replays[replay]?
    let result := replayRows sha256Hex log s.rows r.tenantId r.afterSequence r.now
    some ({ s with replays := s.replays.eraseIdx replay }.answered (answer s.rows r result))

/-! ### Maximum and next sequence -/

variable {tenantId : String} {rows : List Row} {row : Row}

@[simp] theorem mem_rowsOf :
    row ∈ rowsOf tenantId rows ↔ row ∈ rows ∧ row.tenantId = tenantId := by
  simp [rowsOf]

@[simp] theorem mem_retained {now : ℕ} :
    row ∈ retained tenantId now rows ↔
      (row ∈ rows ∧ row.tenantId = tenantId) ∧ now < row.expiresAt := by
  simp [retained]

theorem maximumSequence_eq_none :
    maximumSequence tenantId rows = none ↔ ∀ row ∈ rows, row.tenantId ≠ tenantId := by
  rw [maximumSequence, List.max?_eq_none_iff, List.map_eq_nil_iff, List.eq_nil_iff_forall_not_mem]
  simp

theorem maximumSequence_eq_some {maximum : ℕ} :
    maximumSequence tenantId rows = some maximum ↔
      (∃ row ∈ rows, row.tenantId = tenantId ∧ row.sequence = maximum) ∧
        ∀ row ∈ rows, row.tenantId = tenantId → row.sequence ≤ maximum := by
  rw [maximumSequence, List.max?_eq_some_iff]
  simp only [List.mem_map, mem_rowsOf]
  constructor
  · rintro ⟨⟨row, ⟨hrow, ht⟩, hseq⟩, hle⟩
    exact ⟨⟨row, hrow, ht, hseq⟩, fun r hr hrt => hle _ ⟨r, ⟨hr, hrt⟩, rfl⟩⟩
  · rintro ⟨⟨row, hrow, ht, hseq⟩, hle⟩
    refine ⟨⟨row, ⟨hrow, ht⟩, hseq⟩, ?_⟩
    rintro _ ⟨r, ⟨hr, hrt⟩, rfl⟩
    exact hle r hr hrt

theorem lt_nextSequence (h : row ∈ rows) :
    row.sequence < nextSequence row.tenantId rows := by
  unfold nextSequence
  split
  · rename_i hnone
    exact absurd rfl (maximumSequence_eq_none.mp hnone row h)
  · rename_i maximum hmax
    have := (maximumSequence_eq_some.mp hmax).2 row h rfl
    omega

theorem exists_last (h : 0 < nextSequence tenantId rows) :
    ∃ row ∈ rows, row.tenantId = tenantId ∧ row.sequence + 1 = nextSequence tenantId rows := by
  unfold nextSequence at h ⊢
  split at h
  · omega
  · rename_i maximum hmax
    obtain ⟨⟨row, hrow, ht, hseq⟩, _⟩ := maximumSequence_eq_some.mp hmax
    exact ⟨row, hrow, ht, by omega⟩

theorem nextSequence_eq {n : ℕ}
    (hlt : ∀ row ∈ rows, row.tenantId = tenantId → row.sequence < n)
    (hlast : 0 < n → ∃ row ∈ rows, row.tenantId = tenantId ∧ row.sequence + 1 = n) :
    nextSequence tenantId rows = n := by
  apply le_antisymm
  · by_contra hn
    have hpos : 0 < nextSequence tenantId rows := by omega
    obtain ⟨row, hrow, ht, hseq⟩ := exists_last hpos
    have := hlt row hrow ht
    omega
  · by_contra hn
    obtain ⟨row, hrow, ht, hseq⟩ := hlast (by omega)
    have := lt_nextSequence hrow
    rw [ht] at this
    omega

theorem nextSequence_append (h : row.sequence = nextSequence row.tenantId rows) (tenantId : String) :
    nextSequence tenantId (rows ++ [row]) =
      if row.tenantId = tenantId then row.sequence + 1 else nextSequence tenantId rows := by
  have hlt : ∀ r ∈ rows, r.tenantId = tenantId → r.sequence < nextSequence tenantId rows := by
    rintro r hr rfl
    exact lt_nextSequence hr
  split_ifs with ht
  · subst ht
    refine nextSequence_eq ?_ fun _ => ⟨row, by simp, rfl, rfl⟩
    intro r hr hrt
    rcases List.mem_append.mp hr with hr | hr
    · have := hlt r hr hrt
      omega
    · rw [List.mem_singleton.mp hr]
      omega
  · refine nextSequence_eq ?_ ?_
    · intro r hr hrt
      rcases List.mem_append.mp hr with hr | hr
      · exact hlt r hr hrt
      · exact absurd (List.mem_singleton.mp hr ▸ hrt) ht
    · intro hpos
      obtain ⟨r, hr, hrt, hseq⟩ := exists_last hpos
      exact ⟨r, List.mem_append_left _ hr, hrt, hseq⟩

theorem nextSequence_filter {p : Row → Bool}
    (h : ∀ row ∈ rows, p row = false → row.sequence + 1 < nextSequence row.tenantId rows)
    (tenantId : String) : nextSequence tenantId (rows.filter p) = nextSequence tenantId rows := by
  refine nextSequence_eq ?_ ?_
  · rintro row hrow rfl
    exact lt_nextSequence (List.mem_of_mem_filter hrow)
  · intro hpos
    obtain ⟨row, hrow, ht, hseq⟩ := exists_last hpos
    refine ⟨row, List.mem_filter.mpr ⟨hrow, ?_⟩, ht, hseq⟩
    by_contra hp
    have := h row hrow (by simpa using hp)
    rw [ht] at this
    omega

/-! ### What each operation does -/

variable {sha256Hex : List (String × Json) → String} {log : Settings}

theorem make_ok {sequence : ℕ} {eventType : String} {data : List (String × Json)}
    {emittedAt : ℕ} {event : SSEEvent}
    (h : SSEEvent.make tenantId sequence eventType data emittedAt = .ok event) :
    event.tenantId = tenantId ∧ event.sequence = sequence ∧ event.data = data := by
  obtain ⟨encoded, _, he⟩ := bind_eq_ok.mp h
  cases he
  exact ⟨rfl, rfl, rfl⟩

/-- The row that an append inserts: it has the next sequence and can be read back. -/
structure Inserts (sha256Hex : List (String × Json) → String) (log : Settings) (rows : List Row)
    (tenantId : String) (now eventId : ℕ) (row : Row) : Prop where
  eventId_eq : row.eventId = eventId
  tenantId_eq : row.tenantId = tenantId
  sequence_eq : row.sequence = nextSequence row.tenantId rows
  emittedAt_eq : row.emittedAt = now
  expiresAt_eq : row.expiresAt = now + log.retention
  readable : ∃ event, toEvent sha256Hex row = .ok event

theorem append_ok {tenantId eventType : String} {data : List (String × Json)}
    {now eventId : ℕ} {event : SSEEvent}
    (h : append sha256Hex log rows tenantId eventType data now eventId = .ok (event, row)) :
    Inserts sha256Hex log rows tenantId now eventId row := by
  obtain ⟨_, _, h⟩ := bind_eq_ok.mp h
  obtain ⟨made, hmade, h⟩ := bind_eq_ok.mp h
  have hdata := (make_ok hmade).2.2
  cases h
  refine ⟨rfl, rfl, rfl, rfl, rfl, event, ?_⟩
  rw [toEvent, if_neg (by simp), hdata]
  exact hmade

/-- What a step does. -/
inductive Effect (sha256Hex : List (String × Json) → String) (log : Settings) (s : State) :
    Action → State → Prop where
  | refuse {tenantId eventType : String} {data : List (String × Json)} {now eventId : ℕ} :
      Effect sha256Hex log s (.append tenantId eventType data now eventId) s
  | insert {tenantId eventType : String} {data : List (String × Json)} {now eventId : ℕ} {row : Row}
      (fresh : eventId ∉ s.inserted.map (·.eventId))
      (inserts : Inserts sha256Hex log s.rows tenantId now eventId row) :
      Effect sha256Hex log s (.append tenantId eventType data now eventId) (s.insert row)
  | select {tenantId : String} {limit now : ℕ} {eventIds : List ℕ}
      (selects : Selects s.rows tenantId limit now eventIds) :
      Effect sha256Hex log s (.deleteSelect tenantId limit now eventIds)
        { s with deletions := s.deletions ++ [eventIds] }
  | delete {deletion : ℕ} {eventIds : List ℕ} (selected : s.deletions[deletion]? = some eventIds) :
      Effect sha256Hex log s (.deleteCommit deletion) (s.delete deletion eventIds)
  | reject {tenantId : String} {afterSequence : Option ℤ} {now : ℕ} {e : Exn}
      (invalid : replayBounds s.rows tenantId afterSequence now = .error e) :
      Effect sha256Hex log s (.replayBounds tenantId afterSequence now)
        (s.answered (answer s.rows { tenantId, afterSequence, now } (.error e)))
  | pass {tenantId : String} {afterSequence : Option ℤ} {now : ℕ}
      (valid : replayBounds s.rows tenantId afterSequence now = .ok ()) :
      Effect sha256Hex log s (.replayBounds tenantId afterSequence now)
        { s with replays := s.replays ++ [{ tenantId, afterSequence, now }] }
  | read {replay : ℕ} {r : Replay} (pending : s.replays[replay]? = some r) :
      Effect sha256Hex log s (.replayRows replay)
        ({ s with replays := s.replays.eraseIdx replay }.answered
          (answer s.rows r (replayRows sha256Hex log s.rows r.tenantId r.afterSequence r.now)))

theorem step_effect {s s' : State} {a : Action} (h : step sha256Hex log s a = some s') :
    Effect sha256Hex log s a s' := by
  cases a with
  | append tenantId eventType data now eventId =>
    rw [step] at h
    split_ifs at h with hfresh
    split at h
    · cases h
      exact .refuse
    · rename_i happend
      cases h
      exact .insert hfresh (append_ok happend)
  | deleteSelect tenantId limit now eventIds =>
    rw [step] at h
    split_ifs at h with hselect
    cases h
    exact .select hselect.2.2
  | deleteCommit deletion =>
    obtain ⟨eventIds, hids, h⟩ := Option.bind_eq_some_iff.mp h
    cases h
    exact .delete hids
  | replayBounds tenantId afterSequence now =>
    rw [step] at h
    split at h
    · rename_i hbounds
      cases h
      exact .reject hbounds
    · rename_i hbounds
      cases h
      exact .pass hbounds
  | replayRows replay =>
    obtain ⟨r, hr, h⟩ := Option.bind_eq_some_iff.mp h
    cases h
    exact .read hr

/-! ### Sequence numbers -/

/-- The numbers assigned so far are distinct and below the next one, and no deletion in flight has
the row with the maximum. -/
structure Numbered (s : State) : Prop where
  sublist : s.rows.Sublist s.inserted
  sequence_lt : ∀ row ∈ s.inserted, row.sequence < nextSequence row.tenantId s.rows
  known : ∀ eventIds ∈ s.deletions, ∀ eventId ∈ eventIds, eventId ∈ s.inserted.map (·.eventId)
  deletable : ∀ eventIds ∈ s.deletions, ∀ row ∈ s.rows, row.eventId ∈ eventIds →
    row.sequence + 1 < nextSequence row.tenantId s.rows
  eventId_nodup : (s.inserted.map (·.eventId)).Nodup
  assigned_nodup : (s.inserted.map fun row => (row.tenantId, row.sequence)).Nodup

variable {s : State}

theorem Numbered.subset (h : Numbered s) (hrow : row ∈ s.rows) :
    row ∈ s.inserted := h.sublist.subset hrow

theorem numbered_init : Numbered {} := by
  constructor <;> simp

theorem Numbered.of_eq {s s' : State} (h : Numbered s) (hrows : s'.rows = s.rows)
    (hinserted : s'.inserted = s.inserted) (hdeletions : s'.deletions = s.deletions) : Numbered s' := by
  obtain ⟨h₁, h₂, h₃, h₄, h₅, h₆⟩ := h
  constructor <;> simp only [hrows, hinserted, hdeletions] <;> assumption

theorem Numbered.insert (h : Numbered s) {now eventId : ℕ}
    (hfresh : eventId ∉ s.inserted.map (·.eventId))
    (hrow : Inserts sha256Hex log s.rows tenantId now eventId row) : Numbered (s.insert row) := by
  have hnext := nextSequence_append hrow.sequence_eq
  have hgrow : ∀ t, nextSequence t s.rows ≤ nextSequence t (s.rows ++ [row]) := by
    intro t
    rw [hnext t]
    split_ifs with ht
    · rw [hrow.sequence_eq, ht]
      omega
    · exact le_refl _
  constructor
  · exact h.sublist.append (List.Sublist.refl _)
  · intro r hr
    rcases List.mem_append.mp hr with hr | hr
    · exact (h.sequence_lt r hr).trans_le (hgrow _)
    · rw [List.mem_singleton.mp hr]
      exact lt_nextSequence (by simp [State.insert])
  · intro ids hids id hid
    have := h.known ids hids id hid
    simp only [State.insert, List.map_append, List.mem_append]
    exact .inl this
  · intro ids hids r hr hid
    rcases List.mem_append.mp hr with hr | hr
    · exact (h.deletable ids hids r hr hid).trans_le (hgrow _)
    · rw [List.mem_singleton.mp hr, hrow.eventId_eq] at hid
      exact absurd (h.known ids hids eventId hid) hfresh
  · simp only [State.insert, List.map_append, List.map_cons, List.map_nil]
    refine List.nodup_append.mpr ⟨h.eventId_nodup, List.nodup_singleton _, ?_⟩
    rintro id hid _ hid' rfl
    rw [List.mem_singleton, hrow.eventId_eq] at hid'
    exact hfresh (hid' ▸ hid)
  · simp only [State.insert, List.map_append, List.map_cons, List.map_nil]
    refine List.nodup_append.mpr ⟨h.assigned_nodup, List.nodup_singleton _, ?_⟩
    rintro pair hpair _ hpair' rfl
    obtain ⟨r, hr, rfl⟩ := List.mem_map.mp hpair
    have hlt := h.sequence_lt r hr
    obtain ⟨ht, hseq⟩ := Prod.mk.inj (List.mem_singleton.mp hpair')
    rw [ht, hseq, hrow.sequence_eq] at hlt
    exact lt_irrefl _ hlt

variable {eventIds : List ℕ}

theorem nextSequence_delete (h : Numbered s) {deletion : ℕ}
    (hids : s.deletions[deletion]? = some eventIds) (tenantId : String) :
    nextSequence tenantId (s.delete deletion eventIds).rows = nextSequence tenantId s.rows := by
  refine nextSequence_filter ?_ tenantId
  intro row hrow hp
  exact h.deletable eventIds (List.mem_of_getElem? hids) row hrow (by simpa using hp)

theorem Numbered.delete (h : Numbered s) {deletion : ℕ}
    (hids : s.deletions[deletion]? = some eventIds) : Numbered (s.delete deletion eventIds) := by
  have hnext := nextSequence_delete h hids
  constructor
  · exact List.filter_sublist.trans h.sublist
  · intro r hr
    rw [hnext]
    exact h.sequence_lt r hr
  · intro ids hmem
    exact h.known ids (List.mem_of_mem_eraseIdx hmem)
  · intro ids hmem r hr hid
    rw [hnext]
    exact h.deletable ids (List.mem_of_mem_eraseIdx hmem) r (List.mem_of_mem_filter hr) hid
  · exact h.eventId_nodup
  · exact h.assigned_nodup

theorem mem_expired {now : ℕ} :
    row ∈ expired tenantId now rows ↔ (row ∈ rows ∧ row.tenantId = tenantId) ∧ row.expiresAt ≤ now ∧
      row.sequence + 1 < nextSequence tenantId rows := by
  rw [expired, List.mem_filter, mem_rowsOf]
  unfold nextSequence
  cases hmax : maximumSequence tenantId rows with
  | none => simp
  | some maximum => simp

theorem mem_expired_of_selected (h : Numbered s) {limit now : ℕ}
    (hselects : Selects s.rows tenantId limit now eventIds)
    (hrow : row ∈ s.rows) (hid : row.eventId ∈ eventIds) : row ∈ expired tenantId now s.rows := by
  obtain ⟨r, hr, hreq⟩ := List.mem_map.mp (hselects.2.1 _ hid)
  have hmem := h.subset (mem_expired.mp hr).1.1
  have heq := List.inj_on_of_nodup_map h.eventId_nodup hmem (h.subset hrow) hreq
  exact heq ▸ hr

theorem Numbered.select (h : Numbered s) {limit now : ℕ}
    (hselects : Selects s.rows tenantId limit now eventIds) :
    Numbered { s with deletions := s.deletions ++ [eventIds] } := by
  constructor
  · exact h.sublist
  · exact h.sequence_lt
  · intro ids hids id hid
    rcases List.mem_append.mp hids with hids | hids
    · exact h.known ids hids id hid
    · obtain ⟨r, hr, rfl⟩ := List.mem_map.mp (hselects.2.1 id (List.mem_singleton.mp hids ▸ hid))
      exact List.mem_map_of_mem (h.subset (mem_expired.mp hr).1.1)
  · intro ids hids r hr hid
    rcases List.mem_append.mp hids with hids | hids
    · exact h.deletable ids hids r hr hid
    · rw [List.mem_singleton.mp hids] at hid
      obtain ⟨⟨_, ht⟩, _, hlt⟩ := mem_expired.mp (mem_expired_of_selected h hselects hr hid)
      exact ht ▸ hlt
  · exact h.eventId_nodup
  · exact h.assigned_nodup

theorem Numbered.step {s s' : State} {a : Action} (h : Numbered s)
    (hstep : step sha256Hex log s a = some s') : Numbered s' := by
  cases step_effect hstep with
  | refuse => exact h
  | insert fresh inserts => exact h.insert fresh inserts
  | select selects => exact h.select selects
  | delete selected => exact h.delete selected
  | reject invalid => exact h.of_eq rfl rfl rfl
  | pass valid => exact h.of_eq rfl rfl rfl
  | read pending => exact h.of_eq rfl rfl rfl

/-- **No sequence number is assigned to two events of a tenant.** -/
theorem assigned_nodup {as : List Action}
    (h : run (step sha256Hex log) {} as = some s) :
    (s.inserted.map fun row => (row.tenantId, row.sequence)).Nodup := by
  have hnumbered : Numbered s :=
    run_invariant (fun _ _ _ hs hstep => Numbered.step hs hstep) numbered_init h
  exact hnumbered.assigned_nodup

end CyberControl.SseReplayLog
