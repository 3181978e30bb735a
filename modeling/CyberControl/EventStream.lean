import Mathlib.Data.List.TakeWhile

/-! # The event stream protocol

How a client reads `text/event-stream`: the bytes are UTF-8; a line ends at LF, CR or CRLF; a line
is a field and its value, or a comment; a blank line ends a record, and a record with at least one
`data` line is a message, whose data are the values of its `data` lines joined with LF. -/

namespace CyberControl.EventStream

structure Message where
  id : Option String
  event : String
  data : String

/-- What the parser knows inside a record. -/
structure Record where
  lastId : Option (List Char) := none
  event : List Char := []
  data : List (List Char) := []

/-- The lines of a text, from the characters of the current one on.  Characters after the last line
end are no line yet. -/
def linesFrom : List Char → List Char → List (List Char)
  | _, [] => []
  | current, '\r' :: '\n' :: rest => current :: linesFrom [] rest
  | current, c :: rest =>
    if c = '\n' ∨ c = '\r' then current :: linesFrom [] rest
    else linesFrom (current ++ [c]) rest

/-- The value of a field: what follows the colon, without one leading blank. -/
def fieldValue : List Char → List Char
  | ':' :: ' ' :: value => value
  | ':' :: value => value
  | value => value

/-- A line that is not blank. -/
def Record.field (r : Record) (line : List Char) : Record :=
  let name := line.takeWhile (· ≠ ':')
  let value := fieldValue (line.dropWhile (· ≠ ':'))
  if name = ['d', 'a', 't', 'a'] then { r with data := r.data ++ [value] }
  else if name = ['e', 'v', 'e', 'n', 't'] then { r with event := value }
  else if name = ['i', 'd'] ∧ ¬ value.contains (Char.ofNat 0) then { r with lastId := some value }
  else r

/-- The message that a blank line dispatches. -/
def Record.dispatch (r : Record) : Option Message :=
  if r.data = [] then none
  else
    some
      { id := r.lastId.map String.ofList
        event := if r.event = [] then "message" else String.ofList r.event
        data := String.ofList (['\n'].intercalate r.data) }

/-- The messages of some lines. -/
def messages : Record → List (List Char) → List Message
  | _, [] => []
  | r, [] :: lines => r.dispatch.toList ++ messages { lastId := r.lastId } lines
  | r, line :: lines => messages (r.field line) lines

def parse (text : List Char) : List Message := messages {} (linesFrom [] text)

/-- The messages of some bytes, if these are UTF-8.  A byte order mark at the start is skipped. -/
def decode (bytes : ByteArray) : Option (List Message) :=
  (String.fromUTF8? bytes).map fun text =>
    match text.toList with
    | c :: cs => if c.toNat = 0xfeff then parse cs else parse (c :: cs)
    | [] => parse []

/-! ### Frames -/

/-- A text without line ends. -/
def OneLine (l : List Char) : Prop := ∀ c ∈ l, c ≠ '\n' ∧ c ≠ '\r'

instance (l : List Char) : Decidable (OneLine l) :=
  List.decidableBAll (fun c => c ≠ '\n' ∧ c ≠ '\r') l

theorem OneLine.append {l l' : List Char} (h : OneLine l) (h' : OneLine l') : OneLine (l ++ l') := by
  intro c hc
  rcases List.mem_append.mp hc with hc | hc
  · exact h c hc
  · exact h' c hc

theorem linesFrom_append {l : List Char} (h : OneLine l) (current rest : List Char) :
    linesFrom current (l ++ '\n' :: rest) = (current ++ l) :: linesFrom [] rest := by
  induction l generalizing current with
  | nil =>
    rw [List.nil_append, List.append_nil, linesFrom.eq_def]
    simp
  | cons c l ih =>
    have hc := h c (by simp)
    have hstep : linesFrom current (c :: (l ++ '\n' :: rest)) =
        linesFrom (current ++ [c]) (l ++ '\n' :: rest) := by
      rw [linesFrom.eq_def]
      split
      · rename_i heq
        cases heq
      · rename_i heq
        exact absurd (List.cons.inj heq).1 hc.2
      · rename_i heq
        obtain ⟨rfl, rfl⟩ := List.cons.inj heq
        rw [if_neg (by rw [not_or]; exact hc)]
    rw [List.cons_append, hstep, ih fun d hd => h d (by simp [hd])]
    simp

def frame (id event : List Char) (data : List (List Char)) : List Char :=
  ['i', 'd', ':', ' '] ++ id ++ '\n' :: (['e', 'v', 'e', 'n', 't', ':', ' '] ++ event ++ '\n' ::
    (data.flatMap (fun line => ['d', 'a', 't', 'a', ':', ' '] ++ line ++ ['\n']) ++ ['\n']))

theorem linesFrom_data {data : List (List Char)} (h : ∀ line ∈ data, OneLine line)
    (rest : List Char) :
    linesFrom [] (data.flatMap (fun line => ['d', 'a', 't', 'a', ':', ' '] ++ line ++ ['\n']) ++
        '\n' :: rest) =
      data.map (['d', 'a', 't', 'a', ':', ' '] ++ ·) ++ [] :: linesFrom [] rest := by
  induction data with
  | nil =>
    have hblank : OneLine [] := by simp [OneLine]
    exact linesFrom_append hblank [] rest
  | cons line data ih =>
    have hname : OneLine ['d', 'a', 't', 'a', ':', ' '] := by decide
    have hline := linesFrom_append (hname.append (h line (by simp))) []
      (data.flatMap (fun line => ['d', 'a', 't', 'a', ':', ' '] ++ line ++ ['\n']) ++ '\n' :: rest)
    rw [ih fun l hl => h l (by simp [hl])] at hline
    simpa using hline

theorem field_data (r : Record) (value : List Char) :
    r.field (['d', 'a', 't', 'a', ':', ' '] ++ value) = { r with data := r.data ++ [value] } := by
  simp [Record.field, fieldValue]

theorem messages_data (r : Record) (data lines : List (List Char)) :
    messages r (data.map (['d', 'a', 't', 'a', ':', ' '] ++ ·) ++ lines) =
      messages { r with data := r.data ++ data } lines := by
  induction data generalizing r with
  | nil => simp
  | cons value data ih =>
    rw [List.map_cons, List.cons_append, List.cons_append, messages]
    · rw [← List.cons_append, field_data, ih]
      simp
    · simp

/-- **A frame is read as one message, with its data lines joined with LF.** -/
theorem parse_frame {id event : List Char} {data : List (List Char)} (hid : OneLine id)
    (hnull : Char.ofNat 0 ∉ id) (hevent : OneLine event) (hne : event ≠ [])
    (hdata : ∀ line ∈ data, OneLine line) (hdata' : data ≠ []) :
    parse (frame id event data) =
      [⟨some (String.ofList id), String.ofList event, String.ofList (['\n'].intercalate data)⟩] := by
  have hidLine : OneLine (['i', 'd', ':', ' '] ++ id) := OneLine.append (by decide) hid
  have heventLine : OneLine (['e', 'v', 'e', 'n', 't', ':', ' '] ++ event) :=
    OneLine.append (by decide) hevent
  have hidField : ({} : Record).field (['i', 'd', ':', ' '] ++ id) = { lastId := some id } := by
    simp [Record.field, fieldValue, hnull]
  have heventField : ({ lastId := some id } : Record).field (['e', 'v', 'e', 'n', 't', ':', ' '] ++ event) =
      { lastId := some id, event := event } := by
    simp [Record.field, fieldValue]
  rw [parse, frame, linesFrom_append hidLine, linesFrom_append heventLine, linesFrom_data hdata]
  simp only [List.nil_append, List.cons_append] at hidField heventField ⊢
  rw [messages, hidField, messages, heventField]
  · have hlines := messages_data { lastId := some id, event := event } data ([] :: linesFrom [] [])
    simp only [List.cons_append, List.nil_append] at hlines
    rw [hlines, messages]
    simp [Record.dispatch, hne, hdata', linesFrom, messages]
  · simp
  · simp

theorem decode_utf8 {text : String} {c : Char} {cs : List Char} (h : text.toList = c :: cs)
    (hc : c.toNat ≠ 0xfeff) : decode text.toUTF8 = some (parse text.toList) := by
  have hutf8 : String.fromUTF8? text.toUTF8 = some text := by
    have hvalid : text.toUTF8.IsValidUTF8 := text.isValidUTF8
    rw [String.fromUTF8?, dif_pos hvalid]
    rfl
  rw [decode, hutf8, Option.map_some, h]
  simp only [if_neg hc]

end CyberControl.EventStream
