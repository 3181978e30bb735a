import CyberControl.AuditChain
import CyberControl.JsonCut
import CyberControl.SseFrame
import CyberControl.Transition

/-! # The audit journal

`JsonlAuditStore` (`infrastructure/observability/audit.py`): every record is appended to a file as
one line of JSON, and a store that is opened on the file reads the lines back and verifies the
chain of every tenant.

The file is cut with `str.splitlines`, which cuts at U+0085, U+2028 and U+2029 too, and the JSON
text of a record has these characters as they are. -/

namespace CyberControl.Audit

open Python Streaming

/-- A string of ASCII characters. -/
def IsAscii (s : String) : Prop := ∀ c ∈ s.toList, c.toNat < 128

instance (s : String) : Decidable (IsAscii s) := List.decidableBAll (fun c : Char => c.toNat < 128) s.toList

/-- The texts of identifiers, times and digests are ASCII. -/
structure Library (Uuid Time : Type) extends Platform Uuid Time where
  uuidText_ascii : ∀ id, IsAscii (uuidText id)
  isoformat_ascii : ∀ t, IsAscii (isoformat t)
  sha256_ascii : ∀ s, IsAscii (sha256 s)

variable {Uuid Time : Type}

/-! ### Writing -/

/-- The store: the text of the file, empty when there is none, and the records in memory. -/
structure JsonlAuditStore (Uuid Time : Type) where
  file : List Char
  records : Records Uuid Time

/-- `json.dumps(record.to_document(), ensure_ascii=False, separators=(",", ":"))`. -/
def jsonLine (py : Platform Uuid Time) (r : AuditRecord Uuid Time) : List Char :=
  (Value.dict (r.toDocument py)).toJson.encode

/-- A call of `append`: the draft, what `uuid4()` returns and, when the file cannot be written, how
many characters of the line reach it. -/
structure Call (py : Platform Uuid Time) where
  draft : AuditDraft py
  eventId : Uuid
  fault : Option ℕ

/-- `JsonlAuditStore.append`: what it returns and the store behind it. -/
def JsonlAuditStore.append (py : Platform Uuid Time) (store : JsonlAuditStore Uuid Time)
    (call : Call py) : Except Exn (AuditRecord Uuid Time) × JsonlAuditStore Uuid Time :=
  let tenantRecords := store.records call.draft.tenantId
  match buildAuditRecord py call.draft call.eventId tenantRecords.length
      (lastHash tenantRecords) with
  | .error e => (.error e, store)
  | .ok record =>
    let line := jsonLine py record ++ ['\n']
    match call.fault with
    | some n => (.error (.other "OSError"), { store with file := store.file ++ line.take n })
    | none =>
      (.ok record,
        { file := store.file ++ line
          records :=
            Function.update store.records call.draft.tenantId (tenantRecords ++ [record]) })

/-- The stores behind a sequence of calls. -/
def JsonlAuditStore.appends (py : Platform Uuid Time) (store : JsonlAuditStore Uuid Time)
    (calls : List (Call py)) : JsonlAuditStore Uuid Time :=
  calls.foldl (fun store call => (store.append py call).2) store

/-- A call that returns normally. -/
def returned (py : Platform Uuid Time) (store : JsonlAuditStore Uuid Time) (call : Call py) :
    Option (JsonlAuditStore Uuid Time) :=
  match store.append py call with
  | (.ok _, store) => some store
  | (.error _, _) => none

/-! ### Reading -/

/-- The white space of `str.strip`. -/
def isBlankChar (c : Char) : Bool :=
  let n := c.toNat
  (9 ≤ n && n ≤ 13) || (28 ≤ n && n ≤ 32) || (0x2000 ≤ n && n ≤ 0x200a) ||
    [0x85, 0xa0, 0x1680, 0x2028, 0x2029, 0x202f, 0x205f, 0x3000].contains n

/-- `Path.read_text`, which reads every line end as LF. -/
def readText : List Char → List Char
  | [] => []
  | '\r' :: '\n' :: cs => '\n' :: readText cs
  | c :: cs => (if c = '\r' then '\n' else c) :: readText cs

/-- `raw[name]`. -/
def item (raw : Value) (name : String) : Except Exn Value :=
  match raw with
  | .dict members =>
    match members.lookup (.str name) with
    | some v => .ok v
    | none => .error (.other "KeyError")
  | _ => .error (.other "TypeError")

/-- `raw.get(name)`. -/
def get (raw : Value) (name : String) : Except Exn (Option Value) :=
  match raw with
  | .dict members => .ok (members.lookup (.str name))
  | _ => .error (.other "AttributeError")

def asStr : Value → Except Exn String
  | .str s => .ok s
  | _ => .error (.other "TypeError")

def asOptional : Option Value → Except Exn (Option String)
  | none => .ok none
  | some .none => .ok none
  | some (.str s) => .ok (some s)
  | some _ => .error (.other "TypeError")

/-- `int(value)`. -/
def asInt (py : Platform Uuid Time) : Value → Except Exn ℤ
  | .number n => .ok ((py.numberValue n).num.tdiv (py.numberValue n).den)
  | .bool b => .ok (if b then 1 else 0)
  | _ => .error (.other "TypeError")

/-- `dict(value)`, where a missing value is an empty dict. -/
def asDict : Option Value → Except Exn (List (Key × Value))
  | none => .ok []
  | some (.dict members) => .ok members
  | some _ => .error (.other "TypeError")

/-- The value that a reader returns. -/
def parsed {α : Type} : Option α → Except Exn α
  | some a => .ok a
  | none => .error (.other "ValueError")

/-- `AuditRecord(...)` of the value of a line. -/
def loadRecord (py : Platform Uuid Time) (raw : Value) : Except Exn (AuditRecord Uuid Time) := do
  let eventId ← parsed (py.parseUuid (← asStr (← item raw "event_id")))
  let tenantId ← asStr (← item raw "tenant_id")
  let sequence ← asInt py (← item raw "sequence")
  let category ← asStr (← item raw "category")
  let action ← asStr (← item raw "action")
  let outcome ← asStr (← item raw "outcome")
  let actorRef ← asStr (← item raw "actor_ref")
  let targetRef ← asOptional (← get raw "target_ref")
  let traceId ← asOptional (← get raw "trace_id")
  let envelopeId ← asOptional (← get raw "envelope_id")
  let metadata ← asDict (← get raw "metadata")
  let occurredAt ← parsed (py.fromisoformat (← asStr (← item raw "occurred_at")))
  let previousHash ← asStr (← item raw "previous_hash")
  let eventHash ← asStr (← item raw "event_hash")
  return {
    eventId, tenantId, sequence, category, action, outcome, actorRef, targetRef, traceId,
    envelopeId, metadata, occurredAt, previousHash, eventHash }

/-- The records of the lines, where blank lines are passed over. -/
def loadLines (py : Platform Uuid Time) : List (List Char) → Except Exn (List (AuditRecord Uuid Time))
  | [] => .ok []
  | line :: lines => do
    if line.all isBlankChar then loadLines py lines
    else
      let raw ← parsed (Json.decode line)
      let record ← loadRecord py (Value.ofJson raw)
      let records ← loadLines py lines
      return record :: records

/-- `setdefault(record.tenant_id, []).append(record)`, for every record. -/
def byTenant (log : List (AuditRecord Uuid Time)) : Records Uuid Time :=
  fun tenantId => log.filter fun r => r.tenantId = tenantId

/-- `JsonlAuditStore(path)` with `_load_existing`. -/
def JsonlAuditStore.load (py : Platform Uuid Time) (file : List Char) :
    Except Exn (JsonlAuditStore Uuid Time) := do
  let log ← loadLines py (splitLinesFrom [] (readText file))
  (log.map (·.tenantId)).eraseDups.forM fun tenantId => do
    let verified ← verifyAuditChain py (byTenant log tenantId)
    ensure verified (.valueError "audit JSONL hash chain validation failed")
  return { file := file, records := byTenant log }

/-! ### Cutting the file -/

theorem readText_of_forall {cs : List Char} (h : ∀ c ∈ cs, c ≠ '\r') : readText cs = cs := by
  fun_induction readText cs with
  | case1 => rfl
  | case2 cs ih => exact absurd rfl (h '\r' (by simp))
  | case3 c cs _ ih => rw [ih fun d hd => h d (by simp [hd]), if_neg (h c (by simp))]

theorem splitLinesFrom_cut {pre rest : List Char} {c : Char} (current : List Char)
    (hpre : ∀ d ∈ pre, isLineBoundary d = false) (hc : isLineBoundary c = true) (hcr : c ≠ '\r') :
    splitLinesFrom current (pre ++ c :: rest) = (current ++ pre) :: splitLinesFrom [] rest := by
  have hstep : ∀ current d rest, d ≠ '\r' → splitLinesFrom current (d :: rest) =
      if isLineBoundary d then current :: splitLinesFrom [] rest
      else splitLinesFrom (current ++ [d]) rest := by
    intro current d rest hd
    rw [splitLinesFrom.eq_def]
    split
    · rename_i heq
      cases heq
    · rename_i heq
      exact absurd (List.cons.inj heq).1 hd
    · rename_i heq
      obtain ⟨rfl, rfl⟩ := List.cons.inj heq
      rfl
  induction pre generalizing current with
  | nil => rw [List.nil_append, hstep _ _ _ hcr, if_pos hc, List.append_nil]
  | cons d pre ih =>
    have hd := hpre d (by simp)
    rw [List.cons_append, hstep _ _ _ (lineBoundary_of_lineEnd hd).2, hd, if_neg (by decide),
      ih _ fun d hd => hpre d (by simp [hd])]
    simp

/-! ### Lines -/

/-- The text of the file behind the records. -/
def journal (py : Platform Uuid Time) (log : List (AuditRecord Uuid Time)) : List Char :=
  log.flatMap fun r => jsonLine py r ++ ['\n']

/-- The metadata that is read back. -/
def reloaded (metadata : List (Key × Value)) : List (Key × Value) :=
  Value.dictOf (Value.ofJsonMembers (Value.toJsonMembers metadata))

/-- The record that is read back. -/
def AuditRecord.reload (r : AuditRecord Uuid Time) : AuditRecord Uuid Time :=
  { r with metadata := reloaded r.metadata }

/-- The line of the record is one line of the file. -/
def AuditRecord.Unbroken (py : Platform Uuid Time) (r : AuditRecord Uuid Time) : Prop :=
  ∀ c ∈ jsonLine py r, isLineBoundary c = false

theorem jsonLine_eq (py : Platform Uuid Time) (r : AuditRecord Uuid Time) :
    ∃ text, jsonLine py r = '{' :: text :=
  ⟨_, rfl⟩

variable {r : AuditRecord Uuid Time} {py : Platform Uuid Time}

theorem le_toNat_of_mem_jsonLine {c : Char}
    (h : c ∈ jsonLine py r) : 32 ≤ c.toNat :=
  le_toNat_of_mem_encode h

theorem ofJson_optional (s : Option String) :
    Value.ofJson (optional s).toJson = optional s := by
  cases s <;> rfl

theorem asOptional_optional (s : Option String) : asOptional (some (optional s)) = .ok s := by
  cases s <;> rfl

theorem asInt_int (py : Platform Uuid Time) (k : ℤ) : asInt py (int k) = .ok k := by
  rw [int, asInt, py.numberValue_intText]
  simp

theorem dictOf_toDocument (py : Platform Uuid Time) (r : AuditRecord Uuid Time) :
    Value.dictOf (Value.ofJsonMembers (Value.toJsonMembers (r.toDocument py))) =
      r.reload.toDocument py := by
  rw [Value.dictOf_of_nodup]
  · simp only [AuditRecord.toDocument, asdictMembers_eq, Value.toJsonMembers, Value.ofJsonMembers,
      ofJson_optional, Key.name]
    rfl
  · simp [AuditRecord.toDocument, Value.toJsonMembers, Value.ofJsonMembers, Key.name]

theorem loadRecord_dict
    {ms : List (Key × Value)} (h : ms = r.toDocument py) : loadRecord py (.dict ms) = .ok r := by
  have heventId : ms.lookup (.str "event_id") = some (.str (py.uuidText r.eventId)) := by rw [h]; rfl
  have htenantId : ms.lookup (.str "tenant_id") = some (.str r.tenantId) := by rw [h]; rfl
  have hsequence : ms.lookup (.str "sequence") = some (int r.sequence) := by rw [h]; rfl
  have hcategory : ms.lookup (.str "category") = some (.str r.category) := by rw [h]; rfl
  have haction : ms.lookup (.str "action") = some (.str r.action) := by rw [h]; rfl
  have houtcome : ms.lookup (.str "outcome") = some (.str r.outcome) := by rw [h]; rfl
  have hactorRef : ms.lookup (.str "actor_ref") = some (.str r.actorRef) := by rw [h]; rfl
  have htargetRef : ms.lookup (.str "target_ref") = some (optional r.targetRef) := by rw [h]; rfl
  have htraceId : ms.lookup (.str "trace_id") = some (optional r.traceId) := by rw [h]; rfl
  have henvelopeId : ms.lookup (.str "envelope_id") = some (optional r.envelopeId) := by
    rw [h]
    rfl
  have hmetadata : ms.lookup (.str "metadata") = some (.dict r.metadata) := by
    rw [h, AuditRecord.toDocument, asdictMembers_eq]
    rfl
  have hoccurredAt : ms.lookup (.str "occurred_at") = some (.str (py.isoformat r.occurredAt)) := by
    rw [h]
    rfl
  have hprevious : ms.lookup (.str "previous_hash") = some (.str r.previousHash) := by rw [h]; rfl
  have heventHash : ms.lookup (.str "event_hash") = some (.str r.eventHash) := by rw [h]; rfl
  simp only [loadRecord, item, get, heventId, htenantId, hsequence, hcategory, haction, houtcome,
    hactorRef, htargetRef, htraceId, henvelopeId, hmetadata, hoccurredAt, hprevious, heventHash, asStr,
    parsed, asDict, asInt_int, asOptional_optional, py.parseUuid_uuidText, py.fromisoformat_isoformat,
    bind, Except.bind, pure, Except.pure]

theorem loadRecord_toDocument (py : Platform Uuid Time) (r : AuditRecord Uuid Time) :
    loadRecord py (Value.ofJson (Value.dict (r.toDocument py)).toJson) = .ok r.reload := by
  rw [Value.toJson, Value.ofJson]
  exact loadRecord_dict (dictOf_toDocument py r)

/-- The JSON text of the record exists. -/
def AuditRecord.Finite (py : Platform Uuid Time) (r : AuditRecord Uuid Time) : Prop :=
  (Value.dict (r.toDocument py)).toJson.finite = true

theorem not_blank_of_head {text : List Char} : ('{' :: text).all isBlankChar = false := by
  rw [List.all_cons, show isBlankChar '{' = false by decide, Bool.false_and]

variable {log : List (AuditRecord Uuid Time)}

theorem splitLinesFrom_journal (h : r.Unbroken py) :
    splitLinesFrom [] (journal py (r :: log)) =
      jsonLine py r :: splitLinesFrom [] (journal py log) := by
  rw [journal, List.flatMap_cons, List.append_assoc, List.singleton_append,
    splitLinesFrom_cut [] h (by decide) (by decide)]
  rfl

variable {log log' : List (AuditRecord Uuid Time)}

theorem loadLines_unbroken (hfinite : r.Finite py) (h : r.Unbroken py) :
    loadLines py (splitLinesFrom [] (journal py (r :: log))) = .ok log' ↔
      ∃ rest, loadLines py (splitLinesFrom [] (journal py log)) = .ok rest ∧
        log' = r.reload :: rest := by
  have hdecode : Json.decode (jsonLine py r) = some (Value.dict (r.toDocument py)).toJson :=
    Json.decode_encode hfinite
  have hblank : ¬ (jsonLine py r).all isBlankChar = true := by
    obtain ⟨text, htext⟩ := jsonLine_eq py r
    rw [htext, not_blank_of_head]
    decide
  rw [splitLinesFrom_journal h, loadLines, if_neg hblank, hdecode, bind_eq_ok]
  simp only [parsed, Except.ok.injEq, exists_eq_left', bind_eq_ok, loadRecord_toDocument, pure,
    Except.pure]
  exact exists_congr fun rest => and_congr_right fun _ => eq_comm

theorem loadLines_broken (hfinite : r.Finite py) (h : ¬ r.Unbroken py) :
    loadLines py (splitLinesFrom [] (journal py (r :: log))) ≠ .ok log' := by
  have hdecode : Json.decode (jsonLine py r) = some (Value.dict (r.toDocument py)).toJson :=
    Json.decode_encode hfinite
  obtain ⟨text, htext⟩ := jsonLine_eq py r
  -- the line is `pre ++ c :: post`, and `pre` is the first piece of the file
  obtain ⟨pre, c, post, hline, hpre, hc⟩ : ∃ pre c post, jsonLine py r = pre ++ c :: post ∧
      (∀ d ∈ pre, isLineBoundary d = false) ∧ isLineBoundary c = true := by
    cases hfind : (jsonLine py r).find? isLineBoundary with
    | none =>
      rw [List.find?_eq_none] at hfind
      exact absurd (fun c hc => Bool.eq_false_iff.mpr (hfind c hc)) h
    | some c =>
      obtain ⟨hc, pre, post, hline, hpre⟩ := List.find?_eq_some_iff_append.mp hfind
      exact ⟨pre, c, post, hline, fun d hd => by simpa using hpre d hd, hc⟩
  have hmem : c ∈ jsonLine py r := by simp [hline]
  have hboundary := (isLineBoundary_iff (le_toNat_of_mem_jsonLine hmem)).mp hc
  have hle : 128 ≤ c.toNat := by
    rcases hboundary with h | h | h <;> omega
  have hnone : Json.decode pre = none := by
    rw [hline] at hdecode
    exact Json.decode_eq_none_of_cut hle hdecode
  have hblank : ¬ pre.all isBlankChar = true := by
    cases pre with
    | nil =>
      rw [htext, List.nil_append, List.cons.injEq] at hline
      rw [← hline.1] at hle
      exact absurd hle (by decide)
    | cons d pre =>
      rw [htext, List.cons_append, List.cons.injEq] at hline
      rw [← hline.1, not_blank_of_head]
      decide
  have hsplit : ∃ rest, splitLinesFrom [] (journal py (r :: log)) = pre :: splitLinesFrom [] rest := by
    refine ⟨post ++ '\n' :: journal py log, ?_⟩
    rw [journal, List.flatMap_cons, hline, List.append_assoc, List.append_assoc, List.cons_append,
      splitLinesFrom_cut [] hpre hc (by rintro rfl; exact absurd hle (by decide))]
    rfl
  obtain ⟨rest, hsplit⟩ := hsplit
  rw [hsplit, loadLines, if_neg hblank, hnone]
  nofun

/-- **The file is loaded exactly when no line is broken**, as the records with the metadata that is
read back. -/
theorem loadLines_journal
    (hfinite : ∀ r ∈ log, r.Finite py) :
    loadLines py (splitLinesFrom [] (journal py log)) = .ok log' ↔
      (∀ r ∈ log, r.Unbroken py) ∧ log' = log.map AuditRecord.reload := by
  induction log generalizing log' with
  | nil =>
    rw [journal, List.flatMap_nil, splitLinesFrom, if_pos rfl, loadLines]
    simp [eq_comm]
  | cons r log ih =>
    have hhead := hfinite r (by simp)
    have htail := fun rest => @ih rest fun s hs => hfinite s (by simp [hs])
    by_cases h : r.Unbroken py
    · rw [loadLines_unbroken hhead h]
      simp only [htail, List.forall_mem_cons, h, true_and, List.map_cons]
      constructor
      · rintro ⟨rest, ⟨hall, rfl⟩, rfl⟩
        exact ⟨hall, rfl⟩
      · rintro ⟨hall, rfl⟩
        exact ⟨_, ⟨hall, rfl⟩, rfl⟩
    · refine iff_of_false (loadLines_broken hhead h) fun hall => ?_
      exact h (hall.1 r (by simp))

/-! ### Strings -/

/-- The strings that the caller chooses: of the fields, of the references and of the metadata, keys
included. -/
def chosenStrings (fields : List String) (references : List (Option String))
    (metadata : List (Key × Value)) : List String :=
  fields ++ references.flatMap Option.toList ++ (Value.dict metadata).toJson.strings

def AuditDraft.strings {py : Platform Uuid Time} (draft : AuditDraft py) : List String :=
  chosenStrings [draft.tenantId, draft.category, draft.action, draft.outcome, draft.actorRef]
    [draft.targetRef, draft.traceId, draft.envelopeId] draft.metadata

def AuditRecord.strings (r : AuditRecord Uuid Time) : List String :=
  chosenStrings [r.tenantId, r.category, r.action, r.outcome, r.actorRef]
    [r.targetRef, r.traceId, r.envelopeId] r.metadata

/-- The string has no U+0085, U+2028 or U+2029. -/
def NoBoundary (s : String) : Prop := ∀ c ∈ s.toList, ¬ IsUnescapedBoundary c

theorem noBoundary_of_ascii {s : String} (h : IsAscii s) : NoBoundary s := by
  intro c hc hboundary
  have := h c hc
  rcases hboundary with h | h | h <;> omega

theorem strings_optional (s : Option String) : (optional s).toJson.strings = s.toList := by
  cases s <;> rfl

/-- The line of a record is broken by the strings that the caller chooses, and by no others. -/
theorem unbroken_iff {py : Library Uuid Time}
    (hprevious : IsAscii r.previousHash)
    (hhash : IsAscii r.eventHash) :
    r.Unbroken py.toPlatform ↔ ∀ s ∈ r.strings, NoBoundary s := by
  have hnames : ∀ name ∈ ["event_id", "tenant_id", "sequence", "category", "action", "outcome",
      "actor_ref", "target_ref", "trace_id", "envelope_id", "metadata", "occurred_at",
      "previous_hash", "event_hash"], NoBoundary name :=
    fun name hname => noBoundary_of_ascii (by revert name; decide)
  simp only [List.forall_mem_cons, List.not_mem_nil, false_imp_iff, implies_true, and_true] at hnames
  have heventId := noBoundary_of_ascii (py.uuidText_ascii r.eventId)
  have hoccurredAt := noBoundary_of_ascii (py.isoformat_ascii r.occurredAt)
  have hmembers : (∀ s ∈ (Value.dict (r.toDocument py.toPlatform)).toJson.strings, NoBoundary s) ↔
      ∀ s ∈ r.strings, NoBoundary s := by
    simp only [AuditRecord.toDocument, asdictMembers_eq, AuditRecord.strings, chosenStrings,
      Value.toJson, Value.toJsonMembers, Json.strings, Json.stringsMembers, strings_optional, Key.name,
      List.flatMap_cons, List.flatMap_nil, List.forall_mem_append, List.forall_mem_cons, hnames,
      heventId, hoccurredAt, noBoundary_of_ascii hprevious, noBoundary_of_ascii hhash, int,
      List.not_mem_nil, false_imp_iff, implies_true, true_and, and_true, and_assoc]
  unfold AuditRecord.Unbroken jsonLine
  rw [encode_boundary_iff]
  exact hmembers

/-! ### Runs -/

/-- A record that `append` made of a draft. -/
structure Written (py : Library Uuid Time) (draft : AuditDraft py.toPlatform)
    (r : AuditRecord Uuid Time) : Prop where
  metadata : r.metadata = draft.metadata
  strings : r.strings = draft.strings
  finite : r.Finite py.toPlatform
  previousHash_ascii : IsAscii r.previousHash
  eventHash_ascii : IsAscii r.eventHash

/-- A store whose file holds the lines of its records, which were made of the drafts. -/
structure Journaled (py : Library Uuid Time) (drafts : List (AuditDraft py.toPlatform))
    (log : List (AuditRecord Uuid Time)) (store : JsonlAuditStore Uuid Time) : Prop where
  file : store.file = journal py.toPlatform log
  records : store.records = byTenant log
  written : List.Forall₂ (Written py) drafts log
  verified : ∀ tenantId, verifyAuditChain py.toPlatform (byTenant log tenantId) = .ok true

/-- A record has a JSON text when the document without its hash has a canonical one. -/
theorem finite_of_sealed {n : ℕ} {previousHash : String}
    (h : Sealed py n previousHash r) : r.Finite py := by
  obtain ⟨d, hd, -⟩ := recordHash_eq_ok h.2.2
  have hfinite := (Value.finite_of_canonical hd).1
  unfold AuditRecord.Finite
  rw [Value.toJson, Json.finite, Value.finiteMembers_iff] at hfinite ⊢
  intro m hm
  by_cases hkey : m.1 = .str "event_hash"
  · rw [AuditRecord.toDocument] at hm
    simp only [List.mem_cons, List.not_mem_nil, or_false] at hm
    rcases hm with rfl | rfl | rfl | rfl | rfl | rfl | rfl | rfl | rfl | rfl | rfl | rfl | rfl | rfl <;>
      first | rfl | simp at hkey
  · exact hfinite m (List.mem_filter.mpr ⟨hm, by simpa using hkey⟩)

theorem lastHash_ascii {records : List (AuditRecord Uuid Time)}
    (h : ∀ r ∈ records, IsAscii r.eventHash) :
    IsAscii (lastHash records) := by
  unfold lastHash
  split
  · rename_i r hlast
    exact h r (List.mem_of_getLast? hlast)
  · decide

theorem Sealed.hash_ascii {py : Library Uuid Time} {n : ℕ} {previousHash : String}
    (h : Sealed py.toPlatform n previousHash r) :
    IsAscii r.eventHash := by
  obtain ⟨d, -, hhash⟩ := recordHash_eq_ok h.2.2
  rw [← hhash]
  exact py.sha256_ascii _

theorem byTenant_concat (log : List (AuditRecord Uuid Time)) (r : AuditRecord Uuid Time) :
    byTenant (log ++ [r]) =
      Function.update (byTenant log) r.tenantId (byTenant log r.tenantId ++ [r]) := by
  funext tenantId
  by_cases h : tenantId = r.tenantId
  · rw [h, Function.update_self, byTenant, List.filter_append, List.filter_singleton,
      decide_eq_true rfl]
    rfl
  · rw [Function.update_of_ne h, byTenant, List.filter_append, List.filter_singleton,
      decide_eq_false (Ne.symm h)]
    exact List.append_nil _

theorem journal_concat (py : Platform Uuid Time) (log : List (AuditRecord Uuid Time))
    (r : AuditRecord Uuid Time) :
    journal py (log ++ [r]) = journal py log ++ (jsonLine py r ++ ['\n']) := by
  rw [journal, List.flatMap_append, List.flatMap_singleton]
  rfl

variable {store store' : JsonlAuditStore Uuid Time}

theorem returned_eq_some {call : Call py} (h : returned py store call = some store') :
    ∃ r, buildAuditRecord py call.draft call.eventId (store.records call.draft.tenantId).length
        (lastHash (store.records call.draft.tenantId)) = .ok r ∧
      store' =
        { file := store.file ++ (jsonLine py r ++ ['\n'])
          records := Function.update store.records call.draft.tenantId
            (store.records call.draft.tenantId ++ [r]) } := by
  unfold returned JsonlAuditStore.append at h
  dsimp only at h
  cases hbuild : buildAuditRecord py call.draft call.eventId
      (store.records call.draft.tenantId).length
      (lastHash (store.records call.draft.tenantId)) with
  | error e =>
    rw [hbuild] at h
    cases h
  | ok r =>
    rw [hbuild] at h
    cases hfault : call.fault with
    | some n =>
      rw [hfault] at h
      cases h
    | none =>
      rw [hfault] at h
      exact ⟨r, rfl, (Option.some.inj h).symm⟩

/-- **A call that returns adds one line and one record.** -/
theorem Journaled.concat {py : Library Uuid Time} {drafts : List (AuditDraft py.toPlatform)}
    {call : Call py.toPlatform} (h : Journaled py drafts log store)
    (hcall : returned py.toPlatform store call = some store') :
    ∃ r, Journaled py (drafts ++ [call.draft]) (log ++ [r]) store' := by
  obtain ⟨r, hbuild, rfl⟩ := returned_eq_some hcall
  obtain ⟨hsealed, occurredAt, eventHash, hr⟩ := buildAuditRecord_eq_ok hbuild
  have htenant : r.tenantId = call.draft.tenantId := by rw [hr]
  have hlast : ∀ s ∈ log, IsAscii s.eventHash := by
    intro s hs
    obtain ⟨draft, -, hwritten⟩ := exists_of_mem_right h.written hs
    exact hwritten.eventHash_ascii
  refine ⟨r, ?_, ?_, ?_, ?_⟩
  · rw [journal_concat, h.file]
  · rw [byTenant_concat, htenant, h.records]
  · refine List.rel_append h.written (.cons ?_ .nil)
    exact
      { metadata := by rw [hr]
        strings := by rw [hr]; rfl
        finite := finite_of_sealed hsealed
        previousHash_ascii := by
          rw [hsealed.2.1, h.records]
          exact lastHash_ascii fun s hs => hlast s (List.mem_of_mem_filter hs)
        eventHash_ascii := hsealed.hash_ascii }
  · intro tenantId
    rw [byTenant_concat]
    by_cases heq : tenantId = r.tenantId
    · rw [heq, Function.update_self, verify_concat]
      refine ⟨h.verified _, ?_⟩
      rw [htenant, ← h.records]
      exact hsealed
    · rw [Function.update_of_ne heq]
      exact h.verified tenantId

/-- The store on a path where there is no file. -/
def emptyStore : JsonlAuditStore Uuid Time := ⟨[], fun _ => []⟩

theorem journaled_run {py : Library Uuid Time} {drafts : List (AuditDraft py.toPlatform)}
    {calls : List (Call py.toPlatform)} (h : Journaled py drafts log store)
    (hrun : Transition.run (returned py.toPlatform) store calls = some store') :
    ∃ log', Journaled py (drafts ++ calls.map (·.draft)) log' store' := by
  induction calls generalizing drafts log store with
  | nil =>
    cases hrun
    rw [List.map_nil, List.append_nil]
    exact ⟨log, h⟩
  | cons call calls ih =>
    obtain ⟨next, hcall, hrest⟩ := Transition.run_cons_eq_some.mp hrun
    obtain ⟨r, hnext⟩ := h.concat hcall
    obtain ⟨log', hlog'⟩ := ih hnext hrest
    rw [List.append_assoc] at hlog'
    exact ⟨log', hlog'⟩

theorem journaled_empty (py : Library Uuid Time) : Journaled py [] [] (emptyStore) where
  file := rfl
  records := rfl
  written := .nil
  verified _ := rfl

/-! ### Opening the file -/

variable {store : JsonlAuditStore Uuid Time}

theorem load_eq_ok {file : List Char} :
    JsonlAuditStore.load py file = .ok store ↔
      ∃ log, loadLines py (splitLinesFrom [] (readText file)) = .ok log ∧
        (∀ tenantId, verifyAuditChain py (byTenant log tenantId) = .ok true) ∧
        store = ⟨file, byTenant log⟩ := by
  unfold JsonlAuditStore.load
  rw [bind_eq_ok]
  refine exists_congr fun log => and_congr_right fun _ => ?_
  rw [unit_bind_eq_ok, forM_eq_ok]
  refine and_congr ?_ ?_
  · simp only [bind_eq_ok, ensure_eq_ok]
    constructor
    · intro h tenantId
      by_cases hmem : tenantId ∈ (log.map (·.tenantId)).eraseDups
      · obtain ⟨verified, hverify, rfl⟩ := h tenantId hmem
        exact hverify
      · have hnil : byTenant log tenantId = [] := by
          rw [byTenant, List.filter_eq_nil_iff]
          intro r hr htenant
          refine hmem (List.mem_eraseDups.mpr (List.mem_map.mpr ⟨r, hr, of_decide_eq_true htenant⟩))
        rw [hnil]
        rfl
    · exact fun h tenantId _ => ⟨true, h tenantId, rfl⟩
  · exact ⟨fun h => (Except.ok.inj h).symm, fun h => congrArg Except.ok h.symm⟩

/-- A new store on the file opens and has the same records for every tenant, in chains that verify. -/
def Reloads (py : Platform Uuid Time) (store : JsonlAuditStore Uuid Time) : Prop :=
  ∃ opened, JsonlAuditStore.load py store.file = .ok opened ∧
    ∀ tenantId, opened.records tenantId = store.records tenantId ∧
      verifyAuditChain py (opened.records tenantId) = .ok true

theorem byTenant_reload (log : List (AuditRecord Uuid Time)) (tenantId : String) :
    byTenant (log.map AuditRecord.reload) tenantId =
      (byTenant log tenantId).map AuditRecord.reload := by
  rw [byTenant, byTenant, List.filter_map]
  rfl

theorem reload_eq_iff (h : (Value.dict r.metadata).distinct py.numberValue = true) :
    r.reload = r ↔ (Value.dict r.metadata).plain = true := by
  rw [← Value.ofJson_toJson_iff h, Value.toJson, Value.ofJson, Value.dict.injEq]
  constructor
  · exact fun heq => congrArg AuditRecord.metadata heq
  · intro heq
    cases r
    rw [AuditRecord.reload]
    congr

theorem readText_journal (py : Platform Uuid Time) (log : List (AuditRecord Uuid Time)) :
    readText (journal py log) = journal py log := by
  refine readText_of_forall fun c hc => ?_
  obtain ⟨r, -, hc⟩ := List.mem_flatMap.mp hc
  rcases List.mem_append.mp hc with hc | hc
  · have hle := le_toNat_of_mem_jsonLine hc
    rintro rfl
    exact absurd hle (by decide)
  · rw [List.mem_singleton.mp hc]
    decide

theorem Journaled.finite {py : Library Uuid Time} {drafts : List (AuditDraft py.toPlatform)}
    (h : Journaled py drafts log store) : ∀ r ∈ log, r.Finite py.toPlatform := by
  intro r hr
  obtain ⟨draft, -, hwritten⟩ := exists_of_mem_right h.written hr
  exact hwritten.finite

theorem Journaled.reloads_iff {py : Library Uuid Time} {drafts : List (AuditDraft py.toPlatform)}
    (h : Journaled py drafts log store) :
    Reloads py.toPlatform store ↔
      ∀ r ∈ log, r.Unbroken py.toPlatform ∧ r.reload = r := by
  unfold Reloads
  simp only [load_eq_ok, h.file, readText_journal, loadLines_journal h.finite, h.records]
  constructor
  · rintro ⟨_, ⟨_, ⟨hunbroken, rfl⟩, -, rfl⟩, hsame⟩ r hr
    refine ⟨hunbroken r hr, ?_⟩
    have hrecords : byTenant (log.map AuditRecord.reload) r.tenantId = byTenant log r.tenantId :=
      (hsame r.tenantId).1
    rw [byTenant_reload] at hrecords
    have hmap := List.map_inj_left.mp (hrecords.trans (List.map_id _).symm)
    exact hmap r (List.mem_filter.mpr ⟨hr, decide_eq_true rfl⟩)
  · intro hall
    have hmap : log.map AuditRecord.reload = log := by
      refine (List.map_congr_left fun r hr => (hall r hr).2).trans (List.map_id _)
    refine ⟨_, ⟨_, ⟨fun r hr => (hall r hr).1, rfl⟩, ?_, rfl⟩, fun tenantId => ⟨?_, ?_⟩⟩
    · rw [hmap]
      exact h.verified
    · rw [hmap]
    · rw [hmap]
      exact h.verified tenantId

/-- The draft is read back as it was written: no string that the caller chooses has U+0085, U+2028 or
U+2029, and the metadata is plain. -/
def AuditDraft.Readable {py : Platform Uuid Time} (draft : AuditDraft py) : Prop :=
  (∀ s ∈ draft.strings, NoBoundary s) ∧ (Value.dict draft.metadata).plain = true

theorem Written.readable_iff {py : Library Uuid Time} {draft : AuditDraft py.toPlatform}
    (h : Written py draft r) :
    (r.Unbroken py.toPlatform ∧ r.reload = r) ↔ draft.Readable := by
  have hdistinct := draft.distinct
  rw [← h.metadata] at hdistinct
  rw [unbroken_iff h.previousHash_ascii h.eventHash_ascii, reload_eq_iff hdistinct, h.strings,
    h.metadata]
  rfl

/-- **A store whose calls all returned** is read back from its file exactly when every draft is
readable. -/
theorem journal_reloads_iff (py : Library Uuid Time) {calls : List (Call py.toPlatform)}
    (hrun : Transition.run (returned py.toPlatform) emptyStore calls = some store) :
    Reloads py.toPlatform store ↔ ∀ call ∈ calls, call.draft.Readable := by
  obtain ⟨log, h⟩ := journaled_run (journaled_empty py) hrun
  have hwritten := h.written
  rw [List.nil_append, List.forall₂_map_left_iff] at hwritten
  rw [h.reloads_iff]
  constructor
  · intro hall call hcall
    obtain ⟨r, hr, hw⟩ := exists_of_mem_left hwritten hcall
    exact hw.readable_iff.mp (hall r hr)
  · intro hall r hr
    obtain ⟨call, hcall, hw⟩ := exists_of_mem_right hwritten hr
    exact hw.readable_iff.mpr (hall call hcall)

/-! ### One call -/

/-- Identifiers and times that are given by their texts. -/
def AsciiText := { s : String // IsAscii s }

/-- A library with one digest, for runs that hash one document. -/
def sampleLibrary (digest : AsciiText) : Library AsciiText AsciiText where
  sha256 _ := digest.1
  numberValue n := (Json.integerPart n : ℚ)
  uuidText := Subtype.val
  parseUuid s := if h : IsAscii s then some ⟨s, h⟩ else none
  isAware t := ['+', '0', '0', ':', '0', '0'].isSuffixOf t.1.toList
  astimezoneUtc t := .ok t
  isoformat := Subtype.val
  fromisoformat s := if h : IsAscii s then some ⟨s, h⟩ else none
  numberValue_intText k := by rw [Json.integerPart_intText]
  parseUuid_uuidText id := dif_pos id.2
  fromisoformat_isoformat t := dif_pos t.2
  uuidText_ascii := Subtype.property
  isoformat_ascii := Subtype.property
  sha256_ascii _ := digest.2

def sampleId : AsciiText := ⟨"3f2504e0-4f89-41d3-9a0c-0305e82c3301", by decide⟩

def sampleTime : AsciiText := ⟨"2026-01-01T00:00:00+00:00", by decide⟩

def sampleCall (digest : AsciiText) (target : Option String) :
    Call (sampleLibrary digest).toPlatform where
  draft :=
    { tenantId := "t1"
      category := "auth"
      action := "login"
      outcome := "success"
      actorRef := "user:1"
      targetRef := target
      traceId := none
      envelopeId := none
      metadata := [(.str "roles", .list [.str "a"])]
      occurredAt := sampleTime
      distinct := by rfl }
  eventId := sampleId
  fault := none

/-- The digest of the document of the call without a target. -/
def readableDigest : AsciiText :=
  ⟨"b83d75f3e18f9ca27dd0d3c05e17c9f791bcc3aa690be4d4fdf39a87d2739c90", by decide⟩

/-- The digest of the document of the call with a line separator in its target. -/
def separatorDigest : AsciiText :=
  ⟨"a6b6a682f14e0a0b9ebee6abbb6d91ea10be4835ca153af94f5d98807a9685c7", by decide⟩

theorem journal_reloads_readable :
    ∃ store, Transition.run (returned (sampleLibrary readableDigest).toPlatform) emptyStore
        [sampleCall readableDigest none] = some store ∧
      Reloads (sampleLibrary readableDigest).toPlatform store := by
  obtain ⟨store, hstore⟩ : ∃ store, Transition.run
      (returned (sampleLibrary readableDigest).toPlatform) emptyStore
      [sampleCall readableDigest none] = some store :=
    Option.isSome_iff_exists.mp (by rfl)
  refine ⟨store, hstore, (journal_reloads_iff _ hstore).mpr fun call hcall => ?_⟩
  rw [List.mem_singleton.mp hcall]
  refine ⟨fun s hs => noBoundary_of_ascii ?_, rfl⟩
  have hall : ∀ s ∈ (sampleCall readableDigest none).draft.strings, IsAscii s := by
    decide
  exact hall s hs

/-- The record of a call that returned, with a line separator in its target, makes the file
unreadable. -/
theorem line_separator_unreadable :
    ∃ store, Transition.run (returned (sampleLibrary separatorDigest).toPlatform) emptyStore
        [sampleCall separatorDigest (some "a\u2028b")] = some store ∧
      (∀ opened,
        JsonlAuditStore.load (sampleLibrary separatorDigest).toPlatform store.file ≠ .ok opened) ∧
      ¬ Reloads (sampleLibrary separatorDigest).toPlatform store := by
  obtain ⟨store, hstore⟩ : ∃ store, Transition.run
      (returned (sampleLibrary separatorDigest).toPlatform) emptyStore
      [sampleCall separatorDigest (some "a\u2028b")] = some store :=
    Option.isSome_iff_exists.mp (by rfl)
  obtain ⟨log, h⟩ := journaled_run (journaled_empty _) hstore
  have hload : ∀ opened,
      JsonlAuditStore.load (sampleLibrary separatorDigest).toPlatform store.file ≠ .ok opened := by
    intro opened hopened
    obtain ⟨log', hlines, -, -⟩ := load_eq_ok.mp hopened
    rw [h.file, readText_journal, loadLines_journal h.finite] at hlines
    obtain ⟨r, hr, hw⟩ := exists_of_mem_left h.written (List.mem_singleton_self _)
    have hstrings := (unbroken_iff hw.previousHash_ascii hw.eventHash_ascii).mp (hlines.1 r hr)
    rw [hw.strings] at hstrings
    exact hstrings "a\u2028b" (by decide) (Char.ofNat 0x2028) (by decide) (.inr (.inl rfl))
  exact ⟨store, hstore, hload, fun ⟨opened, hopened, _⟩ => hload opened hopened⟩

end CyberControl.Audit
