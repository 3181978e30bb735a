import CyberControl.PydanticModels

/-! # Sealing of records

`build_topic4_record` and `record_integrity_valid` (`verification/records.py`) for every record model: the
digest is taken of a draft that `model_construct` makes of the values as they are given, and the record holds
the values as the validation of its model leaves them. -/

namespace CyberControl.Sealing

open Compliance (Trimmed byName mem_of_lookup)

variable (py : Pydantic)

/-! ### Records -/

/-- A record model: its fields without `record_sha256`, and what its validators check. -/
structure RecordModel where
  name : String
  fields : Fields
  check : List (String × Value) → Bool

/-- A record: the values of its fields, and their digest. -/
structure Record where
  values : List (String × Value)
  recordSha256 : String

/-- The fields that `model_construct` sets: those given, and those with a default. -/
def construct (fields : Fields) (values : List (String × Value)) : List (String × Value) :=
  fields.filterMap fun (name, _, default) => ((values.lookup name).or default).map (name, ·)

/-- `canonical_sha256` of a dump; it raises for `none`. -/
def canonicalSha256 (document : Json) : Option String :=
  if document.finite then some (py.sha256 document.encode) else none

namespace RecordModel
variable (model : RecordModel)

/-- `build_topic4_record`; it raises for `none`. -/
def build (values : List (String × Value)) : Option Record := do
  let digest ← canonicalSha256 py (dump py (.model model.name (construct model.fields values)))
  if values.all fun e => (model.fields.map (·.1)).contains e.1 then
    let validated ← validateFields py model.fields values
    if model.check (validated ++ [("record_sha256", .text digest)]) then some ⟨validated, digest⟩ else none
  else none

/-- `record_integrity_valid`; it raises for `none`. -/
def integrityValid (record : Record) : Option Bool :=
  (canonicalSha256 py (dump py (.model model.name record.values))).map fun expected =>
    record.recordSha256 = expected

end RecordModel

variable {py}

/-! ### Sealed records -/

theorem construct_cons (field : String × Kind × Option Value) (fields : Fields)
    (values : List (String × Value)) : construct (field :: fields) values
      = (((values.lookup field.1).or field.2.2).map (field.1, ·)).toList ++ construct fields values := by
  obtain ⟨name, kind, default⟩ := field
  unfold construct
  rw [List.filterMap_cons]
  cases hvalue : (values.lookup name).or default with
  | none => simp only [hvalue, Option.map_none, Option.toList_none, List.nil_append]
  | some v => simp only [hvalue, Option.map_some, Option.toList_some, List.singleton_append]

theorem names_construct {fields : Fields} {values validated : List (String × Value)}
    (h : validateFields py fields values = some validated) :
    (construct fields values).map (·.1) = fields.map (·.1) := by
  have hforall := validateFields_eq_some.mp h
  clear h
  induction hforall with
  | nil => rfl
  | @cons field value _ _ hvalue _ ih =>
    obtain ⟨-, hof⟩ := hvalue
    rw [construct_cons, List.map_append, ih, List.map_cons]
    unfold fieldValue at hof
    cases hlookup : values.lookup field.1 with
    | some v => rfl
    | none =>
      rw [hlookup] at hof
      have hdefault : field.2.2 = some value.2 := hof
      rw [Option.none_or, hdefault]
      rfl

/-- A draft has the JSON form of the validated record exactly when the values given are settled. -/
theorem dump_construct_iff {fields : Fields} {values validated : List (String × Value)}
    (h : validateFields py fields values = some validated)
    (hkinds : ∀ field ∈ fields, ∀ v w, values.lookup field.1 = some v → validate py field.2.1 v = some w →
      (dump py w = dump py v ↔ Settled py field.2.1 v)) :
    dumpEntries py validated = dumpEntries py (construct fields values) ↔
      ∀ field ∈ fields, ∀ v, values.lookup field.1 = some v → Settled py field.2.1 v := by
  have hforall := validateFields_eq_some.mp h
  clear h
  induction hforall with
  | nil => simp [construct]
  | @cons field value fields _ hvalue _ ih =>
    obtain ⟨hname, hof⟩ := hvalue
    have htail : dumpEntries py _ = dumpEntries py (construct fields values) ↔ _ :=
      ih fun field hfield => hkinds field (List.mem_cons_of_mem _ hfield)
    rw [construct_cons, List.forall_mem_cons, ← htail]
    unfold fieldValue at hof
    cases hlookup : values.lookup field.1 with
    | some v =>
      rw [hlookup] at hof
      have hkind := hkinds field List.mem_cons_self v value.2 hlookup hof
      show (value.1, dump py value.2) :: _ = (field.1, dump py v) :: _ ↔ _
      rw [List.cons.injEq, Prod.mk.injEq, hkind]
      simp [hname]
    | none =>
      rw [hlookup] at hof
      have hdefault : field.2.2 = some value.2 := hof
      rw [Option.none_or, hdefault]
      show (value.1, dump py value.2) :: _ = (field.1, dump py value.2) :: _ ↔ _
      rw [List.cons.injEq, Prod.mk.injEq]
      simp [hname]

/-- The fields of a record model have distinct names, those of nested models too. -/
def RecordModel.Proper (model : RecordModel) : Prop :=
  (model.fields.map (·.1)).Nodup ∧ ProperFields model.fields

theorem RecordModel.build_eq_some {model : RecordModel} {values : List (String × Value)} {record : Record}
    (h : model.build py values = some record) :
    validateFields py model.fields values = some record.values ∧
      canonicalSha256 py (dump py (.model model.name (construct model.fields values)))
        = some record.recordSha256 := by
  unfold build at h
  obtain ⟨digest, hdigest, h⟩ := Option.bind_eq_some_iff.mp h
  split_ifs at h
  obtain ⟨validated, hvalidated, h⟩ := Option.bind_eq_some_iff.mp h
  split_ifs at h
  cases h
  exact ⟨hvalidated, hdigest⟩

theorem canonicalSha256_eq_iff (hsha : Function.Injective py.sha256) {document document' : Json}
    {digest : String} (h : canonicalSha256 py document = some digest) :
    canonicalSha256 py document' = some digest ↔ document' = document := by
  constructor
  · intro h'
    unfold canonicalSha256 at h h'
    split_ifs at h h' with hfinite hfinite'
    have htext : document'.encode = document.encode :=
      hsha ((Option.some_inj.mp h').trans (Option.some_inj.mp h).symm)
    have hdecode := Json.decode_encode hfinite'
    rw [htext, Json.decode_encode hfinite, Option.some_inj] at hdecode
    exact hdecode.symm
  · rintro rfl
    exact h

/-- **Sealed records.** A record that is built verifies exactly when every value given for it is one that
validation leaves as it is in JSON. -/
theorem integrityValid_iff (hpy : py.Lawful) (hsha : Function.Injective py.sha256) {model : RecordModel}
    (hproper : model.Proper) {values : List (String × Value)} (hdistinct : DistinctEntries values)
    {record : Record} (h : model.build py values = some record) :
    model.integrityValid py record = some true ↔
      ∀ field ∈ model.fields, ∀ v, values.lookup field.1 = some v → Settled py field.2.1 v := by
  obtain ⟨hvalid, hdigest⟩ := RecordModel.build_eq_some h
  have hkinds : ∀ field ∈ model.fields, ∀ v w, values.lookup field.1 = some v →
      validate py field.2.1 v = some w → (dump py w = dump py v ↔ Settled py field.2.1 v) := by
    intro field hfield v w hlookup hw
    have hv := distinctEntries_iff.mp hdistinct _ (mem_of_lookup hlookup)
    exact dump_validate_fields hpy model.fields hproper.2 field hfield v w hv hw
  have hnames := names_of_validateFields hvalid
  have hdump : dump py (.model model.name record.values)
        = dump py (.model model.name (construct model.fields values)) ↔
      dumpEntries py record.values = dumpEntries py (construct model.fields values) := by
    rw [dump, dump, Json.object.injEq, byName_eq_iff_of_names]
    · rw [map_fst_dumpEntries, map_fst_dumpEntries, hnames, names_construct hvalid]
    · rw [map_fst_dumpEntries, hnames]
      exact hproper.1
  rw [← dump_construct_iff hvalid hkinds, ← hdump, ← canonicalSha256_eq_iff hsha hdigest]
  unfold RecordModel.integrityValid
  rw [Option.map_eq_some_iff]
  constructor
  · rintro ⟨expected, hexpected, hsame⟩
    rw [hexpected, of_decide_eq_true hsame]
  · exact fun hsame => ⟨record.recordSha256, hsame, decide_eq_true rfl⟩

/-! ### The option of a quiz -/

/-- A length between two bounds. -/
def within (least most : ℕ) (text : String) : Bool := least ≤ text.length && text.length ≤ most

def isHexDigit (c : Char) : Bool := c.isDigit || ('a' ≤ c && c ≤ 'f') || ('A' ≤ c && c ≤ 'F')

def isText (text : String) : Value → Bool
  | .text s => s = text
  | _ => false

def isTrue : Value → Bool
  | .bool b => b
  | _ => false

def atLeast (n : ℤ) : Value → Bool
  | .int k => n ≤ k
  | _ => false

/-- The fields of `Topic4RecordV1` without `record_sha256`, with the times that have a zone. -/
def topic4RecordFields (aware : Value → Bool) (schemaVersion : String) : Fields :=
  [("trace_id", .text fun s => within 16 64 s && s.toList.all isHexDigit, none),
    ("tenant_id", .text (within 1 128), none),
    ("version_cas", .scalar .integer (atLeast 1), none),
    ("created_at", .scalar .datetime aware, none),
    ("immutable", .scalar (.literal isTrue) fun _ => true, none),
    ("schema_version", .scalar (.literal (isText schemaVersion)) fun _ => true, none)]

/-- `QuizOptionV1`. -/
def quizOption (aware : Value → Bool) : RecordModel where
  name := "QuizOptionV1"
  fields := topic4RecordFields aware "quiz-option.v1" ++
    [("option_id", .text (within 1 32), none), ("text", .text (within 1 4096), none)]
  check _ := true

/-- The keyword values of an option with the text. -/
def sampleOption (text : String) : List (String × Value) :=
  [("trace_id", .text "00000000000000000000000000000000"), ("tenant_id", .text "tenant-a"),
    ("version_cas", .int 1), ("created_at", .datetime 0), ("immutable", .bool true),
    ("schema_version", .text "quiz-option.v1"), ("option_id", .text "A"), ("text", .text text)]

/-- The document of an option with the text. -/
def sampleDocument (text : String) : List Char :=
  "\x7b\"created_at\":\"2026-01-01T00:00:00Z\",\"immutable\":true,\"option_id\":\"A\",".toList ++
    "\"schema_version\":\"quiz-option.v1\",\"tenant_id\":\"tenant-a\",\"text\":\"".toList ++ text.toList ++
    "\",\"trace_id\":\"00000000000000000000000000000000\",\"version_cas\":1\x7d".toList

/-- SHA-256 of the documents of two options, and another text for every other document. -/
def sampleSha256 (document : List Char) : String :=
  if document = sampleDocument "Gain margin" then
    "c48e251b41ad00e9b4ae2facc2c3b3aaf977dc8494021e4395cefa5f2e749d96"
  else if document = sampleDocument " Gain margin" then
    "35d6d7da181d133ab280b61d698820a9f08a50d23cb061b682e99af5fa743fc4"
  else String.ofList ('x' :: document)

def samplePydantic : Pydantic where
  sha256 := sampleSha256
  uuidText _ := ""
  timeText _ := "2026-01-01T00:00:00Z"
  dateText _ := ""
  otherJson _ := .nonFinite
  convertText _ := none
  convert _ _ := none
  items _ := none
  entries _ := none

theorem lawful_sample : samplePydantic.Lawful where
  items_json _ _ h := nomatch h
  items_distinct _ _ h := nomatch h
  entries_json _ _ h := nomatch h
  entries_nodup _ _ h := nomatch h
  entries_distinct _ _ h := nomatch h
  float_int _ _ h := nomatch h

theorem sampleSha256_injective : Function.Injective samplePydantic.sha256 := by
  have hother (digest : String) (hdigest : digest.toList.head? ≠ some 'x') (document : List Char) :
      digest ≠ String.ofList ('x' :: document) := by
    rintro rfl
    exact hdigest (by rw [String.toList_ofList]; rfl)
  intro document document' h
  have h : sampleSha256 document = sampleSha256 document' := h
  unfold sampleSha256 at h
  split_ifs at h with h1 h2 h3 h4 h5 h6 h7 h8
  · exact h1.trans h2.symm
  · exact absurd h (by decide)
  · exact absurd h (hother _ (by decide) _)
  · exact absurd h (by decide)
  · exact h4.trans h6.symm
  · exact absurd h (hother _ (by decide) _)
  · exact absurd h.symm (hother _ (by decide) _)
  · exact absurd h.symm (hother _ (by decide) _)
  · have hlist := congrArg String.toList h
    rw [String.toList_ofList, String.toList_ofList] at hlist
    exact (List.cons.inj hlist).2

theorem proper_quizOption : (quizOption fun _ => true).Proper := by
  refine ⟨by decide, ?_⟩
  simp [quizOption, topic4RecordFields, ProperFields, Kind.Proper]

theorem distinct_sampleOption (text : String) : DistinctEntries (sampleOption text) := by
  simp [sampleOption, DistinctEntries, Value.Distinct]

/-- Texts without white space at their ends and scalars of their own type are settled. -/
theorem settled_sampleOption {text : String} (h : Trimmed text) :
    ∀ field ∈ (quizOption fun _ => true).fields, ∀ v, (sampleOption text).lookup field.1 = some v →
      Settled samplePydantic field.2.1 v := by
  unfold quizOption topic4RecordFields
  simp only [List.cons_append, List.nil_append, List.forall_mem_cons, List.not_mem_nil, false_implies,
    implies_true, and_true]
  refine ⟨?_, ?_, ?_, ?_, ?_, ?_, ?_, ?_⟩
  · rintro _ ⟨⟩
    show Trimmed _
    decide
  · rintro _ ⟨⟩
    show Trimmed _
    decide
  · rintro _ ⟨⟩
    exact .inl rfl
  · rintro _ ⟨⟩
    exact .inl rfl
  · rintro _ ⟨⟩
    exact .inl rfl
  · rintro _ ⟨⟩
    exact .inl rfl
  · rintro _ ⟨⟩
    show Trimmed _
    decide
  · rintro _ ⟨⟩
    exact h

/-- A record with a list of options and a dict of texts. -/
def nestedRecord : RecordModel where
  name := "Nested"
  fields := [("options", .list (· ≤ 32) (.model "QuizOptionV1" (quizOption fun _ => true).fields fun _ => true),
    none), ("symbols", .dict (fun _ => true) (.text fun _ => true), none)]
  check _ := true

/-- One option, given as a dict, and one symbol. -/
def nestedValues : List (String × Value) :=
  [("options", .sequence [.mapping (sampleOption "Gain margin")]), ("symbols", .mapping [("K", .text "gain")])]

theorem settled_nestedValues : ∀ field ∈ nestedRecord.fields, ∀ v, nestedValues.lookup field.1 = some v →
    Settled samplePydantic field.2.1 v := by
  unfold nestedRecord
  simp only [List.forall_mem_cons, List.not_mem_nil, false_implies, implies_true, and_true]
  constructor
  · rintro _ ⟨⟩ _ ⟨⟩ option hoption
    rw [List.mem_singleton.mp hoption]
    refine settledFields_iff.mpr fun field hfield => ?_
    obtain ⟨v, hv⟩ := Option.isSome_iff_exists.mp ((by decide : ∀ field ∈ (quizOption fun _ => true).fields,
      ((sampleOption "Gain margin").lookup field.1).isSome) field hfield)
    exact ⟨v, hv, settled_sampleOption (by decide) field hfield v hv⟩
  · rintro _ ⟨⟩ _ ⟨⟩ entry hentry
    rw [List.mem_singleton.mp hentry]
    exact ⟨by decide, show Trimmed _ by decide⟩

theorem integrityValid_option : (∃ record,
    (quizOption fun _ => true).build samplePydantic (sampleOption "Gain margin") = some record ∧
      (quizOption fun _ => true).integrityValid samplePydantic record = some true) ∧
    ∃ record, nestedRecord.build samplePydantic nestedValues = some record ∧
      nestedRecord.integrityValid samplePydantic record = some true := by
  have hbuild : ((quizOption fun _ => true).build samplePydantic (sampleOption "Gain margin")).isSome := by
    decide +kernel
  have hnested : (nestedRecord.build samplePydantic nestedValues).isSome := by
    decide +kernel
  have hproper : nestedRecord.Proper := ⟨by decide, proper_quizOption, trivial, trivial⟩
  have hdistinct : DistinctEntries nestedValues := by
    simp [nestedValues, sampleOption, DistinctEntries, DistinctItems, Value.Distinct]
  constructor
  · exact ⟨_, (Option.some_get hbuild).symm, (integrityValid_iff lawful_sample sampleSha256_injective
      proper_quizOption (distinct_sampleOption _) (Option.some_get hbuild).symm).mpr
      (settled_sampleOption (by decide))⟩
  · exact ⟨_, (Option.some_get hnested).symm, (integrityValid_iff lawful_sample sampleSha256_injective
      hproper hdistinct (Option.some_get hnested).symm).mpr settled_nestedValues⟩

/-- **White space at an end.** An option whose text begins with a blank is accepted, and does not verify. -/
theorem padded_option_fails :
    ((quizOption fun _ => true).build samplePydantic (sampleOption " Gain margin")).bind
      ((quizOption fun _ => true).integrityValid samplePydantic) = some false := by
  decide +kernel

end CyberControl.Sealing
