import CyberControl.Errors
import CyberControl.EventStream
import CyberControl.Json
import Mathlib.Data.String.Basic

/-! # Server-sent event frames

`validate_sse_event`, `SSEEvent.__post_init__` and `encode_sse_frame` (`streaming/sse.py`).  The
data of an event is a JSON object; its compact text is cut with `str.splitlines` and each piece
becomes one `data` line of the frame. -/

namespace CyberControl.Streaming

/-! ### Validation -/

/-- `json.dumps(data, ensure_ascii=False, allow_nan=False, separators=(",", ":"))`. -/
def jsonDumps (data : Json) : Except Exn String :=
  if data.finite then .ok (String.ofList data.encode)
  else .error (.valueError "Out of range float values are not JSON compliant")

def isEventTypeChar (c : Char) : Bool := c.isAlphanum || ['.', '_', ':', '-'].contains c

/-- `SSE_EVENT_TYPE_PATTERN.fullmatch`. -/
def isEventType (eventType : String) : Bool :=
  match eventType.toList with
  | [] => false
  | c :: cs => c.isAlphanum && cs.all isEventTypeChar && decide (cs.length ≤ 127)

def sseEventInvalid (text : String) (statusCode : ℕ) : Exn :=
  .liyan
    { code := .SSE_EVENT_INVALID
      safeMessage := text
      category := .CONTRACT
      statusCode := statusCode }

def validateSseEvent (eventType : String) (data : List (String × Json)) (maxEventBytes : ℕ) :
    Except Exn Unit :=
  if ¬ isEventType eventType then .error (sseEventInvalid "The SSE event type is invalid." 422)
  else
    match jsonDumps (.object data) with
    | .error _ => .error (sseEventInvalid "The SSE event data is not a finite JSON object." 422)
    | .ok encoded =>
      if encoded.utf8ByteSize > maxEventBytes then
        .error (sseEventInvalid "The SSE event exceeds the configured size limit." 413)
      else .ok ()

/-! ### Lines of a Python string -/

/-- The line boundaries of `str.splitlines`. -/
def isLineBoundary (c : Char) : Bool :=
  [0x0a, 0x0b, 0x0c, 0x0d, 0x1c, 0x1d, 0x1e, 0x85, 0x2028, 0x2029].contains c.toNat

/-- `str.splitlines`, from the characters of the current line on. -/
def splitLinesFrom : List Char → List Char → List (List Char)
  | current, [] => if current = [] then [] else [current]
  | current, '\r' :: '\n' :: rest => current :: splitLinesFrom [] rest
  | current, c :: rest =>
    if isLineBoundary c then current :: splitLinesFrom [] rest
    else splitLinesFrom (current ++ [c]) rest

/-- `str.splitlines`. -/
def splitLines (s : String) : List String := (splitLinesFrom [] s.toList).map String.ofList

/-! ### Events and frames -/

structure SSEEvent where
  tenantId : String
  sequence : ℕ
  eventType : String
  data : List (String × Json)
  emittedAt : ℕ
  dataJson : String
  frameBody : ByteArray
  sizeBytes : ℕ

/-- `encoded.splitlines() or [""]`. -/
def dataLines (encoded : String) : List String :=
  if splitLines encoded = [] then [""] else splitLines encoded

/-- The text of `_frame_body`. -/
def frameText (eventType encoded : String) : String :=
  "\n".intercalate (("event: " ++ eventType) :: (dataLines encoded).map ("data: " ++ ·)) ++ "\n\n"

/-- `SSEEvent(...)` with its `__post_init__`. -/
def SSEEvent.make (tenantId : String) (sequence : ℕ) (eventType : String)
    (data : List (String × Json)) (emittedAt : ℕ) : Except Exn SSEEvent := do
  let encoded ← jsonDumps (.object data)
  let frameBody := (frameText eventType encoded).toUTF8
  let sizeBytes := eventType.utf8ByteSize + encoded.utf8ByteSize
  return ⟨tenantId, sequence, eventType, data, emittedAt, encoded, frameBody, sizeBytes⟩

/-- `cursor.encode("ascii")`. -/
def encodeAscii (s : String) : Except Exn ByteArray :=
  if s.toList.all (·.toNat < 128) then .ok s.toUTF8 else .error (.other "UnicodeEncodeError")

def encodeSseFrame (event : SSEEvent) (cursor : String) : Except Exn ByteArray := do
  let cursor ← encodeAscii cursor
  return "id: ".toUTF8 ++ cursor ++ "\n".toUTF8 ++ event.frameBody

/-- A character of the URL-safe base64 alphabet. -/
def isBase64Url (c : Char) : Bool := c.isAlphanum || c = '-' || c = '_'

/-- A replay cursor: `base64.urlsafe_b64encode(...)` without its padding. -/
structure Cursor where
  text : String
  isBase64Url_text : ∀ c ∈ text.toList, isBase64Url c = true

/-- The frame of the event is read as one message that has the cursor, the event type and the
event's JSON text, and that text decodes to the published data. -/
def FrameRoundTrips (tenantId : String) (sequence : ℕ) (eventType : String)
    (data : List (String × Json)) (emittedAt : ℕ) (cursor : Cursor) : Prop :=
  ∃ event bytes message, SSEEvent.make tenantId sequence eventType data emittedAt = .ok event ∧
    encodeSseFrame event cursor.text = .ok bytes ∧
    EventStream.decode bytes = some [message] ∧
    message.id = some cursor.text ∧ message.event = eventType ∧ message.data = event.dataJson ∧
    Json.decode message.data.toList = some (.object data)

/-! ### Cutting and joining -/

variable {c : Char}

theorem lineBoundary_of_lineEnd (h : isLineBoundary c = false) : c ≠ '\n' ∧ c ≠ '\r' := by
  constructor <;> rintro rfl <;> revert h <;> decide

variable {l : List Char}

theorem splitLinesFrom_of_forall (h : ∀ c ∈ l, isLineBoundary c = false)
    (current : List Char) :
    splitLinesFrom current l = if current ++ l = [] then [] else [current ++ l] := by
  induction l generalizing current with
  | nil => rw [splitLinesFrom, List.append_nil]
  | cons c l ih =>
    have hc := h c (by simp)
    have hstep : splitLinesFrom current (c :: l) = splitLinesFrom (current ++ [c]) l := by
      rw [splitLinesFrom.eq_def]
      split
      · rename_i heq
        cases heq
      · rename_i heq
        exact absurd (List.cons.inj heq).1 (lineBoundary_of_lineEnd hc).2
      · rename_i heq
        obtain ⟨rfl, rfl⟩ := List.cons.inj heq
        rw [if_neg (by rw [hc]; decide)]
    rw [hstep, ih fun d hd => h d (by simp [hd])]
    simp

theorem splitLinesFrom_ne_nil {current l : List Char} (h : current ++ l ≠ []) :
    splitLinesFrom current l ≠ [] := by
  fun_induction splitLinesFrom current l with
  | case1 => simp at h
  | case2 => simp
  | case3 => simp
  | case4 => simp
  | case5 current c rest hnot hboundary ih => exact ih (by simp)

theorem splitLinesFrom_forall {current l line : List Char}
    (hcurrent : ∀ c ∈ current, isLineBoundary c = false) (h : line ∈ splitLinesFrom current l) :
    ∀ c ∈ line, isLineBoundary c = false := by
  fun_induction splitLinesFrom current l with
  | case1 => cases h
  | case2 current hne =>
    rw [List.mem_singleton.mp h]
    exact hcurrent
  | case3 current rest ih =>
    rcases List.mem_cons.mp h with rfl | h
    · exact hcurrent
    · exact ih (by simp) h
  | case4 current c rest hnot hboundary ih =>
    rcases List.mem_cons.mp h with rfl | h
    · exact hcurrent
    · exact ih (by simp) h
  | case5 current c rest hnot hboundary ih =>
    refine ih (fun d hd => ?_) h
    rcases List.mem_append.mp hd with hd | hd
    · exact hcurrent d hd
    · rw [List.mem_singleton.mp hd]
      exact Bool.not_eq_true _ ▸ hboundary

theorem mem_intercalate {sep : List Char} {lines : List (List Char)}
    (h : c ∈ sep.intercalate lines) : c ∈ sep ∨ ∃ line ∈ lines, c ∈ line := by
  induction lines with
  | nil => cases h
  | cons line lines ih =>
    cases lines with
    | nil => exact .inr ⟨line, by simp, by simpa using h⟩
    | cons line' lines =>
      rw [List.intercalate_cons_cons, List.mem_append, List.mem_append] at h
      rcases h with (h | h) | h
      · exact .inr ⟨line, by simp, h⟩
      · exact .inl h
      · exact (ih h).imp_right fun ⟨l, hl, hc⟩ => ⟨l, by simp [hl], hc⟩

theorem intercalate_splitLinesFrom (hne : l ≠ []) (hlf : '\n' ∉ l) :
    ['\n'].intercalate (splitLinesFrom [] l) = l ↔ ∀ c ∈ l, isLineBoundary c = false := by
  constructor
  · intro h c hc
    rw [← h] at hc
    rcases mem_intercalate hc with hsep | ⟨line, hline, hmem⟩
    · refine absurd ?_ hlf
      rw [← List.mem_singleton.mp hsep, ← h]
      exact hc
    · exact splitLinesFrom_forall (by simp) hline c hmem
  · intro h
    rw [splitLinesFrom_of_forall h, List.nil_append, if_neg hne, List.intercalate_singleton]

/-! ### The text of the data -/

/-- U+0085, U+2028 and U+2029. -/
def IsUnescapedBoundary (c : Char) : Prop :=
  c.toNat = 0x85 ∨ c.toNat = 0x2028 ∨ c.toNat = 0x2029

theorem isLineBoundary_iff (h : 32 ≤ c.toNat) :
    isLineBoundary c = true ↔ IsUnescapedBoundary c := by
  simp only [isLineBoundary, List.contains_iff_mem, List.mem_cons, List.not_mem_nil, or_false,
    IsUnescapedBoundary]
  omega

theorem le_toNat_of_mem_encode {v : Json} (h : c ∈ v.encode) : 32 ≤ c.toNat := by
  rcases (Json.carries_encode v).covered c h with hprint | ⟨hle, -⟩
  · exact hprint.1
  · omega

theorem encode_boundary_iff (v : Json) :
    (∀ c ∈ v.encode, isLineBoundary c = false) ↔
      ∀ s ∈ v.strings, ∀ c ∈ s.toList, ¬ IsUnescapedBoundary c := by
  constructor
  · intro h s hs c hc hboundary
    have hle : 127 ≤ c.toNat := by
      rcases hboundary with h | h | h <;> omega
    have hmem := (Json.carries_encode v).carried s hs c hc hle
    have htrue := (isLineBoundary_iff (by omega)).mpr hboundary
    rw [h c hmem] at htrue
    cases htrue
  · intro h c hc
    by_contra hboundary
    rw [Bool.not_eq_false, isLineBoundary_iff (le_toNat_of_mem_encode hc)] at hboundary
    rcases (Json.carries_encode v).covered c hc with hprint | ⟨-, s, hs, hmem⟩
    · have := hprint.2
      rcases hboundary with h | h | h <;> omega
    · exact h s hs c hmem hboundary

/-! ### The frame -/

theorem toList_frameText (eventType encoded : String) :
    (frameText eventType encoded).toList =
      ['e', 'v', 'e', 'n', 't', ':', ' '] ++ eventType.toList ++ '\n' ::
        (((dataLines encoded).map String.toList).flatMap
          (fun line => ['d', 'a', 't', 'a', ':', ' '] ++ line ++ ['\n']) ++ ['\n']) := by
  have hjoin : ∀ (line : String) (lines : List String),
      ("\n".intercalate (line :: lines) ++ "\n").toList =
        line.toList ++ '\n' :: lines.flatMap fun l => l.toList ++ ['\n'] := by
    intro line lines
    induction lines generalizing line with
    | nil => simp
    | cons line' lines ih =>
      have := ih line'
      simp only [String.toList_append] at this ⊢
      rw [String.intercalate_cons_cons, String.toList_append, String.toList_append,
        List.append_assoc, List.append_assoc, this]
      simp
  have hsplit : ("\n\n" : String) = "\n" ++ "\n" := rfl
  rw [frameText, hsplit, ← String.append_assoc, String.toList_append, hjoin]
  simp [List.flatMap_map]

theorem oneLine_of_forall {p : Char → Bool} (hp : p '\n' = false) (hp' : p '\r' = false)
    (h : ∀ c ∈ l, p c = true) : EventStream.OneLine l := by
  intro c hc
  have hpc := h c hc
  constructor <;> rintro rfl
  · rw [hp] at hpc
    cases hpc
  · rw [hp'] at hpc
    cases hpc

variable {eventType : String}

theorem isEventType_iff (h : isEventType eventType = true) :
    eventType.toList ≠ [] ∧ ∀ c ∈ eventType.toList, isEventTypeChar c = true := by
  unfold isEventType at h
  split at h
  · cases h
  · rename_i c cs heq
    simp only [Bool.and_eq_true, List.all_eq_true, decide_eq_true_eq] at h
    rw [heq]
    refine ⟨by simp, fun d hd => ?_⟩
    rcases List.mem_cons.mp hd with rfl | hd
    · rw [isEventTypeChar, h.1.1]
      rfl
    · exact h.1.2 d hd

theorem dataLines_oneLine {encoded : String} :
    ∀ line ∈ (dataLines encoded).map String.toList, EventStream.OneLine line := by
  intro line hline
  obtain ⟨s, hs, rfl⟩ := List.mem_map.mp hline
  unfold dataLines at hs
  split at hs
  · rw [List.mem_singleton.mp hs]
    simp [EventStream.OneLine]
  · obtain ⟨line, hl, rfl⟩ := List.mem_map.mp hs
    rw [String.toList_ofList]
    exact fun c hc => lineBoundary_of_lineEnd (splitLinesFrom_forall (by simp) hl c hc)

theorem dataLines_ne_nil (encoded : String) : dataLines encoded ≠ [] := by
  unfold dataLines
  split
  · simp
  · assumption

theorem encodeAscii_cursor (cursor : Cursor) : encodeAscii cursor.text = .ok cursor.text.toUTF8 := by
  have hascii : ∀ c ∈ cursor.text.toList, c.toNat < 128 := by
    intro c hc
    have hbase := cursor.isBase64Url_text c hc
    simp only [isBase64Url, Bool.or_eq_true, decide_eq_true_eq] at hbase
    rcases hbase with (halnum | rfl) | rfl
    · exact lt_of_le_of_lt (Json.isAlphanum_range halnum).2 (by decide)
    · decide
    · decide
  rw [encodeAscii, if_pos (by simpa using hascii)]

theorem decode_frame (htype : isEventType eventType = true) (encoded : String)
    (cursor : Cursor) :
    EventStream.decode ("id: ".toUTF8 ++ cursor.text.toUTF8 ++ "\n".toUTF8 ++
        (frameText eventType encoded).toUTF8) =
      some [⟨some cursor.text, eventType, "\n".intercalate (dataLines encoded)⟩] := by
  obtain ⟨hne, htypeChars⟩ := isEventType_iff htype
  have hbytes : "id: ".toUTF8 ++ cursor.text.toUTF8 ++ "\n".toUTF8 ++
      (frameText eventType encoded).toUTF8 =
        ("id: " ++ cursor.text ++ "\n" ++ frameText eventType encoded).toUTF8 := rfl
  have htext : ("id: " ++ cursor.text ++ "\n" ++ frameText eventType encoded).toList =
      EventStream.frame cursor.text.toList eventType.toList
        ((dataLines encoded).map String.toList) := by
    simp only [String.toList_append, toList_frameText, EventStream.frame]
    simp
  have hcons : ∃ cs, ("id: " ++ cursor.text ++ "\n" ++ frameText eventType encoded).toList =
      'i' :: cs := ⟨_, by rw [htext]; rfl⟩
  obtain ⟨cs, hcs⟩ := hcons
  have hnull : Char.ofNat 0 ∉ cursor.text.toList := fun hmem => by
    have := cursor.isBase64Url_text _ hmem
    revert this
    decide
  rw [hbytes, EventStream.decode_utf8 hcs (by decide), htext,
    EventStream.parse_frame (oneLine_of_forall (by decide) (by decide) cursor.isBase64Url_text) hnull
      (oneLine_of_forall (by decide) (by decide) htypeChars) hne dataLines_oneLine
      (by simpa using dataLines_ne_nil encoded)]
  rw [String.ofList_toList, String.ofList_toList]
  have hdata : String.ofList (['\n'].intercalate ((dataLines encoded).map String.toList)) =
      "\n".intercalate (dataLines encoded) := by
    rw [← String.toList_inj, String.toList_ofList, String.toList_intercalate]
    rfl
  rw [hdata]

theorem intercalate_dataLines {encoded : String} (hne : encoded ≠ "") (hlf : '\n' ∉ encoded.toList) :
    "\n".intercalate (dataLines encoded) = encoded ↔
      ∀ c ∈ encoded.toList, isLineBoundary c = false := by
  have hnil : encoded.toList ≠ [] := fun h => hne (by rw [← String.ofList_toList (s := encoded), h])
  rw [← intercalate_splitLinesFrom hnil hlf]
  have hlines : splitLines encoded ≠ [] := fun h =>
    splitLinesFrom_ne_nil (by simpa using hnil) (List.map_eq_nil_iff.mp h)
  rw [dataLines, if_neg hlines, ← String.toList_inj, String.toList_intercalate, splitLines,
    List.map_map]
  have hid : String.toList ∘ String.ofList = id := funext fun l => String.toList_ofList
  rw [hid, List.map_id]
  rfl

/-! ### The round trip -/

theorem validateSseEvent_ok {data : List (String × Json)} {maxEventBytes : ℕ}
    (h : validateSseEvent eventType data maxEventBytes = .ok ()) :
    isEventType eventType = true ∧ (Json.object data).finite = true := by
  unfold validateSseEvent at h
  split at h
  · cases h
  · rename_i htype
    unfold jsonDumps at h
    split at h
    · cases h
    · rename_i encoded heq
      split at heq
      · rename_i hfinite
        exact ⟨not_not.mp htype, hfinite⟩
      · cases heq

theorem frame_roundTrips_iff_join {data : List (String × Json)}
    (htype : isEventType eventType = true) (hfinite : (Json.object data).finite = true)
    (tenantId : String) (sequence emittedAt : ℕ) (cursor : Cursor) :
    FrameRoundTrips tenantId sequence eventType data emittedAt cursor ↔
      "\n".intercalate (dataLines (String.ofList (Json.object data).encode)) =
        String.ofList (Json.object data).encode := by
  have hdumps : jsonDumps (.object data) = .ok (String.ofList (Json.object data).encode) :=
    if_pos hfinite
  have hframe := decode_frame htype (String.ofList (Json.object data).encode) cursor
  constructor
  · rintro ⟨event, bytes, message, hevent, hbytes, hmessage, -, -, hdata, -⟩
    rw [SSEEvent.make, hdumps] at hevent
    cases hevent
    rw [encodeSseFrame, encodeAscii_cursor] at hbytes
    cases hbytes
    rw [hframe, Option.some.injEq, List.cons.injEq] at hmessage
    rw [← hmessage.1] at hdata
    exact hdata
  · intro hdata
    rw [hdata] at hframe
    refine ⟨_, _, _, by rw [SSEEvent.make, hdumps]; rfl,
      by rw [encodeSseFrame, encodeAscii_cursor]; rfl, hframe, rfl, rfl, rfl, ?_⟩
    show Json.decode (String.ofList (Json.object data).encode).toList = _
    rw [String.toList_ofList, Json.decode_encode hfinite]

/-- **A valid event comes back from its frame exactly when no string of its data contains U+0085,
U+2028 or U+2029.** -/
theorem frame_roundTrips_iff {eventType : String} {data : List (String × Json)} {maxEventBytes : ℕ}
    (haccepted : validateSseEvent eventType data maxEventBytes = .ok ()) (tenantId : String)
    (sequence emittedAt : ℕ) (cursor : Cursor) :
    FrameRoundTrips tenantId sequence eventType data emittedAt cursor ↔
      ∀ s ∈ (Json.object data).strings, ∀ c ∈ s.toList, ¬ IsUnescapedBoundary c := by
  obtain ⟨htype, hfinite⟩ := validateSseEvent_ok haccepted
  have hlist : (String.ofList (Json.object data).encode).toList = (Json.object data).encode :=
    String.toList_ofList
  have hne : String.ofList (Json.object data).encode ≠ "" := by
    intro h
    have hnil := congrArg String.toList h
    rw [hlist, Json.encode] at hnil
    cases hnil
  have hlf : '\n' ∉ (String.ofList (Json.object data).encode).toList := by
    rw [hlist]
    intro hmem
    exact absurd (le_toNat_of_mem_encode hmem) (by decide)
  rw [frame_roundTrips_iff_join htype hfinite, intercalate_dataLines hne hlf, hlist,
    encode_boundary_iff]

/-! ### Two events -/

def sampleCursor : Cursor where
  text := "dC1h"
  isBase64Url_text := List.all_eq_true.mp (by decide)

theorem frame_roundTrips_plain :
    FrameRoundTrips "t" 0 "topic3.progress" [("m", .string "é\n")] 0 sampleCursor :=
  (@frame_roundTrips_iff "topic3.progress" [("m", .string "é\n")] 100 (by decide +kernel) "t" 0 0
    sampleCursor).mpr fun s hs c hc => by
      have hall : (["m", "é\n"].all fun s => s.toList.all fun c =>
          ¬ (c.toNat = 0x85 ∨ c.toNat = 0x2028 ∨ c.toNat = 0x2029)) = true := by decide
      rw [Json.strings, Json.stringsMembers, Json.strings, Json.stringsMembers] at hs
      rw [IsUnescapedBoundary]
      exact of_decide_eq_true (List.all_eq_true.mp (List.all_eq_true.mp hall s hs) c hc)

/-- The event whose data has a line separator is accepted, and does not come back. -/
theorem line_separator_breaks_frame :
    validateSseEvent "topic3.progress" [("m", .string "a\u2028b")] 100 = .ok () ∧
      ¬ FrameRoundTrips "t" 0 "topic3.progress" [("m", .string "a\u2028b")] 0 sampleCursor := by
  refine ⟨by decide +kernel, fun h => ?_⟩
  have hjoin := (frame_roundTrips_iff_join (by decide +kernel) (by decide) "t" 0 0 sampleCursor).mp h
  revert hjoin
  decide +kernel

end CyberControl.Streaming
