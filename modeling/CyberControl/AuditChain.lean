import CyberControl.JsonNumbers
import CyberControl.PythonValues
import Mathlib.Data.List.Induction

/-! # The audit chain

`AuditRecord.to_document`, `build_audit_record`, `verify_audit_chain` and `InMemoryAuditStore`
(`infrastructure/observability/audit.py`).  Every record of a tenant holds the hash of the record
before it, and its own hash is that of its other fields. -/

namespace CyberControl.Audit

open Python

/-- `hashlib`, `uuid`, `datetime` and the numbers of Python: the hexadecimal SHA-256 digest of a
text, and the texts of identifiers and times with their readers. -/
structure Platform (Uuid Time : Type) where
  sha256 : String → String
  numberValue : NumberText → ℚ
  uuidText : Uuid → String
  parseUuid : String → Option Uuid
  isAware : Time → Bool
  astimezoneUtc : Time → Except Exn Time
  isoformat : Time → String
  fromisoformat : String → Option Time
  numberValue_intText : ∀ k : ℤ, numberValue (Json.intText k) = k
  parseUuid_uuidText : ∀ id, parseUuid (uuidText id) = some id
  fromisoformat_isoformat : ∀ t, fromisoformat (isoformat t) = some t

def GENESIS_HASH : String := String.ofList (List.replicate 64 '0')

/-- The metadata is a dict, no two keys of which are equal. -/
structure AuditDraft {Uuid Time : Type} (py : Platform Uuid Time) where
  tenantId : String
  category : String
  action : String
  outcome : String
  actorRef : String
  targetRef : Option String
  traceId : Option String
  envelopeId : Option String
  metadata : List (Key × Value)
  occurredAt : Time
  distinct : (Value.dict metadata).distinct py.numberValue = true

structure AuditRecord (Uuid Time : Type) where
  eventId : Uuid
  tenantId : String
  sequence : ℤ
  category : String
  action : String
  outcome : String
  actorRef : String
  targetRef : Option String
  traceId : Option String
  envelopeId : Option String
  metadata : List (Key × Value)
  occurredAt : Time
  previousHash : String
  eventHash : String

variable {Uuid Time : Type} (py : Platform Uuid Time)

/-! ### Documents -/

/-- A string or `None`. -/
def optional : Option String → Value
  | some s => .str s
  | none => .none

/-- The integer as a value. -/
def int (k : ℤ) : Value := .number (Json.intText k)

mutual

/-- The copy of a value that `dataclasses.asdict` makes. -/
def asdictInner : Value → Value
  | .list elements => .list (asdictElements elements)
  | .tuple elements => .tuple (asdictElements elements)
  | .dict members => .dict (asdictMembers members)
  | v => v

def asdictElements : List Value → List Value
  | [] => []
  | v :: elements => asdictInner v :: asdictElements elements

def asdictMembers : List (Key × Value) → List (Key × Value)
  | [] => []
  | (k, v) :: members => (k, asdictInner v) :: asdictMembers members

end

def AuditRecord.toDocument (r : AuditRecord Uuid Time) : List (Key × Value) :=
  [(.str "event_id", .str (py.uuidText r.eventId)),
    (.str "tenant_id", .str r.tenantId),
    (.str "sequence", int r.sequence),
    (.str "category", .str r.category),
    (.str "action", .str r.action),
    (.str "outcome", .str r.outcome),
    (.str "actor_ref", .str r.actorRef),
    (.str "target_ref", optional r.targetRef),
    (.str "trace_id", optional r.traceId),
    (.str "envelope_id", optional r.envelopeId),
    (.str "metadata", .dict (asdictMembers r.metadata)),
    (.str "occurred_at", .str (py.isoformat r.occurredAt)),
    (.str "previous_hash", .str r.previousHash),
    (.str "event_hash", .str r.eventHash)]

def recordHash (document : List (Key × Value)) : Except Exn String :=
  match (Value.dict document).canonical py.numberValue with
  | some d => .ok (py.sha256 (String.ofList d.encode))
  | none => .error (.other "json.dumps")

/-- `build_audit_record`, where `uuid4()` returns `eventId`. -/
def buildAuditRecord (draft : AuditDraft py) (eventId : Uuid) (sequence : ℤ)
    (previousHash : String) : Except Exn (AuditRecord Uuid Time) := do
  ensure (py.isAware draft.occurredAt) (.valueError "audit occurred_at must be timezone-aware")
  let occurredAt ← py.astimezoneUtc draft.occurredAt
  let material : List (Key × Value) :=
    [(.str "event_id", .str (py.uuidText eventId)),
      (.str "tenant_id", .str draft.tenantId),
      (.str "sequence", int sequence),
      (.str "category", .str draft.category),
      (.str "action", .str draft.action),
      (.str "outcome", .str draft.outcome),
      (.str "actor_ref", .str draft.actorRef),
      (.str "target_ref", optional draft.targetRef),
      (.str "trace_id", optional draft.traceId),
      (.str "envelope_id", optional draft.envelopeId),
      (.str "metadata", .dict draft.metadata),
      (.str "occurred_at", .str (py.isoformat occurredAt)),
      (.str "previous_hash", .str previousHash)]
  let eventHash ← recordHash py material
  return {
    eventId := eventId
    tenantId := draft.tenantId
    sequence := sequence
    category := draft.category
    action := draft.action
    outcome := draft.outcome
    actorRef := draft.actorRef
    targetRef := draft.targetRef
    traceId := draft.traceId
    envelopeId := draft.envelopeId
    metadata := draft.metadata
    occurredAt := occurredAt
    previousHash := previousHash
    eventHash := eventHash }

/-- The document that `verify_audit_chain` hashes: `document.pop("event_hash")`. -/
def AuditRecord.hashed (r : AuditRecord Uuid Time) : List (Key × Value) :=
  (r.toDocument py).filter fun m => m.1 ≠ .str "event_hash"

/-- The loop of `verify_audit_chain`. -/
def verifyFrom (expectedSequence : ℕ) (previousHash : String) :
    List (AuditRecord Uuid Time) → Except Exn Bool
  | [] => .ok true
  | r :: records =>
    if r.sequence ≠ expectedSequence ∨ r.previousHash ≠ previousHash then .ok false
    else
      match recordHash py (r.hashed py) with
      | .error e => .error e
      | .ok eventHash =>
        if eventHash ≠ r.eventHash then .ok false
        else verifyFrom (expectedSequence + 1) r.eventHash records

def verifyAuditChain (records : List (AuditRecord Uuid Time)) : Except Exn Bool :=
  verifyFrom py 0 GENESIS_HASH records

/-! ### The store in memory -/

/-- `_records`, with no records for a tenant that has no entry. -/
abbrev Records (Uuid Time : Type) := String → List (AuditRecord Uuid Time)

/-- `tenant_records[-1].event_hash if tenant_records else GENESIS_HASH`. -/
def lastHash (records : List (AuditRecord Uuid Time)) : String :=
  match records.getLast? with
  | some r => r.eventHash
  | none => GENESIS_HASH

/-- `InMemoryAuditStore.append`: what it returns and the records behind it. -/
def append (records : Records Uuid Time) (draft : AuditDraft py) (eventId : Uuid) :
    Except Exn (AuditRecord Uuid Time) × Records Uuid Time :=
  let tenantRecords := records draft.tenantId
  match buildAuditRecord py draft eventId tenantRecords.length (lastHash tenantRecords) with
  | .error e => (.error e, records)
  | .ok record =>
    (.ok record, Function.update records draft.tenantId (tenantRecords ++ [record]))

/-- The records behind a sequence of calls, each with the identifier that `uuid4()` returns in it. -/
def appends (records : Records Uuid Time) (calls : List (AuditDraft py × Uuid)) :
    Records Uuid Time :=
  calls.foldl (fun records call => (append py records call.1 call.2).2) records

mutual

theorem asdictInner_eq : ∀ v : Value, asdictInner v = v
  | .none | .bool _ | .number _ | .nonFinite | .str _ => rfl
  | .list elements => by rw [asdictInner, asdictElements_eq elements]
  | .tuple elements => by rw [asdictInner, asdictElements_eq elements]
  | .dict members => by rw [asdictInner, asdictMembers_eq members]

theorem asdictElements_eq : ∀ elements : List Value, asdictElements elements = elements
  | [] => rfl
  | v :: elements => by rw [asdictElements, asdictInner_eq v, asdictElements_eq elements]

theorem asdictMembers_eq : ∀ members : List (Key × Value), asdictMembers members = members
  | [] => rfl
  | (k, v) :: members => by rw [asdictMembers, asdictInner_eq v, asdictMembers_eq members]

end

variable {py}

/-! ### Chains -/

/-- The record has its place in a chain, and its hash is that of its other fields. -/
def Sealed (py : Platform Uuid Time) (sequence : ℕ) (previousHash : String)
    (r : AuditRecord Uuid Time) : Prop :=
  r.sequence = sequence ∧ r.previousHash = previousHash ∧
    recordHash py (r.hashed py) = .ok r.eventHash

variable {r : AuditRecord Uuid Time} {records : List (AuditRecord Uuid Time)} {previousHash : String}
  {n : ℕ}

theorem verifyFrom_cons :
    verifyFrom py n previousHash (r :: records) = .ok true ↔
      Sealed py n previousHash r ∧ verifyFrom py (n + 1) r.eventHash records = .ok true := by
  unfold Sealed
  rw [verifyFrom]
  by_cases hplace : r.sequence ≠ n ∨ r.previousHash ≠ previousHash
  · rw [if_pos hplace]
    constructor
    · intro h
      cases h
    · rintro ⟨⟨hsequence, hprevious, -⟩, -⟩
      rcases hplace with h | h
      · exact absurd hsequence h
      · exact absurd hprevious h
  · rw [if_neg hplace]
    obtain ⟨hsequence, hprevious⟩ := not_or.mp hplace
    rw [not_not] at hsequence hprevious
    cases hhash : recordHash py (r.hashed py) with
    | error e => simp
    | ok eventHash =>
      by_cases heq : eventHash = r.eventHash
      · simp [hsequence, hprevious, heq]
      · simp [heq]

/-- The hash that the next record of a chain holds. -/
def hashAfter (previousHash : String) (records : List (AuditRecord Uuid Time)) : String :=
  (records.getLast?.map (·.eventHash)).getD previousHash

theorem hashAfter_cons (previousHash : String) (r : AuditRecord Uuid Time)
    (records : List (AuditRecord Uuid Time)) :
    hashAfter previousHash (r :: records) = hashAfter r.eventHash records := by
  cases records with
  | nil => rfl
  | cons s records => simp [hashAfter, List.getLast?_cons]

theorem lastHash_eq (records : List (AuditRecord Uuid Time)) :
    lastHash records = hashAfter GENESIS_HASH records := by
  unfold lastHash hashAfter
  cases records.getLast? <;> rfl

theorem verifyFrom_concat :
    verifyFrom py n previousHash (records ++ [r]) = .ok true ↔
      verifyFrom py n previousHash records = .ok true ∧
        Sealed py (n + records.length) (hashAfter previousHash records) r := by
  induction records generalizing n previousHash with
  | nil =>
    rw [List.nil_append, verifyFrom_cons, verifyFrom, verifyFrom]
    exact and_comm
  | cons s records ih =>
    rw [List.cons_append, verifyFrom_cons, verifyFrom_cons, ih, hashAfter_cons, List.length_cons,
      and_assoc, Nat.add_assoc, Nat.add_comm 1]

theorem verify_concat :
    verifyAuditChain py (records ++ [r]) = .ok true ↔
      verifyAuditChain py records = .ok true ∧ Sealed py records.length (lastHash records) r := by
  unfold verifyAuditChain
  rw [verifyFrom_concat, lastHash_eq, Nat.zero_add]

/-! ### Appending -/

theorem hashed_eq (r : AuditRecord Uuid Time) :
    r.hashed py =
      [(.str "event_id", .str (py.uuidText r.eventId)),
        (.str "tenant_id", .str r.tenantId),
        (.str "sequence", int r.sequence),
        (.str "category", .str r.category),
        (.str "action", .str r.action),
        (.str "outcome", .str r.outcome),
        (.str "actor_ref", .str r.actorRef),
        (.str "target_ref", optional r.targetRef),
        (.str "trace_id", optional r.traceId),
        (.str "envelope_id", optional r.envelopeId),
        (.str "metadata", .dict r.metadata),
        (.str "occurred_at", .str (py.isoformat r.occurredAt)),
        (.str "previous_hash", .str r.previousHash)] := by
  rw [AuditRecord.hashed, AuditRecord.toDocument, asdictMembers_eq]
  rfl

theorem hashed_names (r : AuditRecord Uuid Time) :
    (r.hashed py).map (·.1.name) =
      ["event_id", "tenant_id", "sequence", "category", "action", "outcome", "actor_ref", "target_ref",
        "trace_id", "envelope_id", "metadata", "occurred_at", "previous_hash"] := by
  rw [hashed_eq]
  rfl

theorem buildAuditRecord_eq_ok {draft : AuditDraft py} {eventId : Uuid}
    (h : buildAuditRecord py draft eventId n previousHash = .ok r) :
    Sealed py n previousHash r ∧ ∃ occurredAt eventHash,
      r = ⟨eventId, draft.tenantId, n, draft.category, draft.action, draft.outcome, draft.actorRef,
        draft.targetRef, draft.traceId, draft.envelopeId, draft.metadata, occurredAt, previousHash,
        eventHash⟩ := by
  simp only [buildAuditRecord, bind_eq_ok, pure, Except.pure, Except.ok.injEq] at h
  obtain ⟨_, -, occurredAt, -, eventHash, hhash, rfl⟩ := h
  refine ⟨⟨rfl, rfl, ?_⟩, occurredAt, eventHash, rfl⟩
  rw [hashed_eq]
  exact hhash

/-- A call appends the record that it returns to the records of its tenant, and chains that verify still do. -/
def Extends (py : Platform Uuid Time) (before after : Records Uuid Time)
    (result : Except Exn (AuditRecord Uuid Time)) : Prop :=
  ∀ tenantId, after tenantId
      = before tenantId ++ result.toOption.toList.filter (·.tenantId = tenantId) ∧
    (verifyAuditChain py (before tenantId) = .ok true → verifyAuditChain py (after tenantId) = .ok true)

theorem append_extends (records : Records Uuid Time) (draft : AuditDraft py) (eventId : Uuid) :
    Extends py records (append py records draft eventId).2 (append py records draft eventId).1 := by
  intro tenantId
  unfold append
  dsimp only
  split
  · exact ⟨(List.append_nil _).symm, id⟩
  · rename_i record hbuild
    obtain ⟨hsealed, _, _, rfl⟩ := buildAuditRecord_eq_ok hbuild
    dsimp only
    by_cases heq : tenantId = draft.tenantId
    · rw [heq, Function.update_self, verify_concat]
      exact ⟨by simp [Except.toOption], fun h => ⟨h, hsealed⟩⟩
    · rw [Function.update_of_ne heq]
      exact ⟨by simp [Except.toOption, Ne.symm heq], id⟩

/-- The records of a tenant that a sequence of calls returned. -/
def answers {S C : Type} (append : S → C → Except Exn (AuditRecord Uuid Time) × S) (tenantId : String) :
    S → List C → List (AuditRecord Uuid Time)
  | _, [] => []
  | s, call :: calls => (append s call).1.toOption.toList.filter (·.tenantId = tenantId) ++
      answers append tenantId (append s call).2 calls

/-- **A store whose chains verify keeps them so.** -/
theorem foldl_extends {S C : Type} {append : S → C → Except Exn (AuditRecord Uuid Time) × S}
    {view : S → Records Uuid Time}
    (h : ∀ s call, Extends py (view s) (view (append s call).2) (append s call).1) (s : S) (calls : List C)
    (tenantId : String) :
    view (calls.foldl (fun s call => (append s call).2) s) tenantId
        = view s tenantId ++ answers append tenantId s calls ∧
      (verifyAuditChain py (view s tenantId) = .ok true →
        verifyAuditChain py (view (calls.foldl (fun s call => (append s call).2) s) tenantId) = .ok true) := by
  induction calls generalizing s with
  | nil => exact ⟨(List.append_nil _).symm, id⟩
  | cons call calls ih =>
    obtain ⟨hrecords, hverify⟩ := h s call tenantId
    obtain ⟨hrest, hkept⟩ := ih (append s call).2
    rw [List.foldl_cons]
    exact ⟨by rw [hrest, hrecords, List.append_assoc, answers], hkept ∘ hverify⟩

/-! ### Tampering -/

/-- The record hash is injective on canonical documents. -/
def CollisionFree (py : Platform Uuid Time) : Prop :=
  ∀ d d' : Json, d.finite = true → d'.finite = true →
    py.sha256 (String.ofList d.encode) = py.sha256 (String.ofList d'.encode) → d = d'

/-- The hashed fields of two records are equal.  The metadata is hashed as a canonical text, which is
the same for a tuple and a list and for a key and its name; plain metadata is equal but for the order of
members. -/
structure SameFields (py : Platform Uuid Time) (r r' : AuditRecord Uuid Time) : Prop where
  eventId : r.eventId = r'.eventId
  tenantId : r.tenantId = r'.tenantId
  sequence : r.sequence = r'.sequence
  category : r.category = r'.category
  action : r.action = r'.action
  outcome : r.outcome = r'.outcome
  actorRef : r.actorRef = r'.actorRef
  targetRef : r.targetRef = r'.targetRef
  traceId : r.traceId = r'.traceId
  envelopeId : r.envelopeId = r'.envelopeId
  metadata : (Value.dict r.metadata).canonical py.numberValue =
    (Value.dict r'.metadata).canonical py.numberValue
  plainMetadata : (Value.dict r.metadata).plain = true → (Value.dict r'.metadata).plain = true →
    (Value.dict r.metadata).sorted py.numberValue = (Value.dict r'.metadata).sorted py.numberValue
  occurredAt : r.occurredAt = r'.occurredAt
  previousHash : r.previousHash = r'.previousHash
  eventHash : r.eventHash = r'.eventHash

theorem uuidText_inj {id id' : Uuid} (h : py.uuidText id = py.uuidText id') : id = id' := by
  have := py.parseUuid_uuidText id
  rw [h, py.parseUuid_uuidText] at this
  exact (Option.some.inj this).symm

theorem isoformat_inj {t t' : Time} (h : py.isoformat t = py.isoformat t') : t = t' := by
  have := py.fromisoformat_isoformat t
  rw [h, py.fromisoformat_isoformat] at this
  exact (Option.some.inj this).symm

variable {numberValue : NumberText → ℚ}

theorem str_inj {s s' : String}
    (h : ∃ d, (Value.str s).canonical numberValue = some d ∧
      (Value.str s').canonical numberValue = some d) : s = s' := by
  obtain ⟨d, hd, hd'⟩ := h
  rw [Value.canonical_str, Option.some.injEq] at hd hd'
  exact Json.string.inj (hd.trans hd'.symm)

theorem int_inj {k k' : ℤ}
    (h : ∃ d, (int k).canonical numberValue = some d ∧ (int k').canonical numberValue = some d) :
    k = k' := by
  obtain ⟨d, hd, hd'⟩ := h
  rw [int, Value.canonical_number, Option.some.injEq] at hd hd'
  rw [← Json.integerPart_intText k, Json.number.inj (hd.trans hd'.symm), Json.integerPart_intText]

theorem optional_inj {s s' : Option String}
    (h : ∃ d, (optional s).canonical numberValue = some d ∧
      (optional s').canonical numberValue = some d) : s = s' := by
  obtain ⟨d, hd, hd'⟩ := h
  rw [← hd'] at hd
  cases s with
  | none =>
    cases s' with
    | none => rfl
    | some s' => cases hd
  | some s =>
    cases s' with
    | none => cases hd
    | some s' => exact congrArg some (str_inj ⟨_, hd, rfl⟩)

theorem recordHash_eq_ok {document : List (Key × Value)} {eventHash : String}
    (h : recordHash py document = .ok eventHash) :
    ∃ d, (Value.dict document).canonical py.numberValue = some d ∧
      py.sha256 (String.ofList d.encode) = eventHash := by
  unfold recordHash at h
  split at h
  · rename_i d hd
    exact ⟨d, hd, Except.ok.inj h⟩
  · cases h

theorem Sealed.same {n n' : ℕ} {previousHash previousHash' : String}
    {r r' : AuditRecord Uuid Time} (hfree : CollisionFree py) (h : Sealed py n previousHash r)
    (h' : Sealed py n' previousHash' r') (heq : r.eventHash = r'.eventHash) : SameFields py r r' := by
  obtain ⟨d, hd, hhash⟩ := recordHash_eq_ok h.2.2
  obtain ⟨d', hd', hhash'⟩ := recordHash_eq_ok h'.2.2
  have hdocument : d = d' :=
    hfree d d' (Value.finite_of_canonical hd).2 (Value.finite_of_canonical hd').2
      (hhash.trans (heq.trans hhash'.symm))
  rw [← hdocument] at hd'
  have hall := Value.canonical_dict_inj ((hashed_names r).trans (hashed_names r').symm)
    (by rw [hashed_names]; decide) hd hd'
  simp only [hashed_eq, List.forall₂_cons, List.forall₂_nil_left_iff, and_true] at hall
  obtain ⟨heventId, htenantId, hsequence, hcategory, haction, houtcome, hactorRef, htargetRef,
    htraceId, henvelopeId, ⟨m, hmetadata, hmetadata'⟩, hoccurredAt, hprevious⟩ := hall
  exact
    { eventId := uuidText_inj (str_inj heventId)
      tenantId := str_inj htenantId
      sequence := int_inj hsequence
      category := str_inj hcategory
      action := str_inj haction
      outcome := str_inj houtcome
      actorRef := str_inj hactorRef
      targetRef := optional_inj htargetRef
      traceId := optional_inj htraceId
      envelopeId := optional_inj henvelopeId
      metadata := hmetadata.trans hmetadata'.symm
      plainMetadata := fun hplain hplain' =>
        Value.sorted_eq_of_canonical hplain hplain' hmetadata hmetadata'
      occurredAt := isoformat_inj (str_inj hoccurredAt)
      previousHash := str_inj hprevious
      eventHash := heq }

/-- **Two chains of one length that verify and end in one hash are the same.** -/
theorem same_of_last_hash (hfree : CollisionFree py) {l l' : List (AuditRecord Uuid Time)}
    (hlength : l.length = l'.length) (h : verifyAuditChain py l = .ok true)
    (h' : verifyAuditChain py l' = .ok true) (hlast : lastHash l = lastHash l') :
    List.Forall₂ (SameFields py) l l' := by
  induction l using List.reverseRecOn generalizing l' with
  | nil =>
    rw [List.length_nil, eq_comm, List.length_eq_zero_iff] at hlength
    rw [hlength]
    exact .nil
  | append_singleton l r ih =>
    cases l' using List.reverseRecOn with
    | nil => simp at hlength
    | append_singleton l' r' =>
      rw [verify_concat] at h h'
      rw [List.length_append, List.length_append, List.length_singleton,
        List.length_singleton] at hlength
      have heq : r.eventHash = r'.eventHash := by
        simpa [lastHash] using hlast
      have hsame := h.2.same hfree h'.2 heq
      -- the last records hold the last hashes of the chains before them
      have hbefore : lastHash l = lastHash l' := by
        rw [← h.2.2.1, ← h'.2.2.1]
        exact hsame.previousHash
      refine List.rel_append (ih (by omega) h.1 h'.1 hbefore) ?_
      exact .cons hsame .nil

end CyberControl.Audit
