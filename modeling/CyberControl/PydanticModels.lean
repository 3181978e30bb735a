import CyberControl.ComplianceRecords
import Mathlib.Data.List.Perm.Basic

/-! # Models and their validation

The field types of contract models, what validation makes of a Python value, and the JSON form of a value.
Validation strips texts, converts values of other types and fills in defaults, so that a value and what
validation makes of it may have different JSON forms. -/

namespace CyberControl.Sealing

open Compliance (strip Trimmed byName lookup_of_mem mem_of_lookup)

/-! ### Values and types -/

/-- A Python value.  `member` is a member of an enumeration of texts, `sequence` a list or a tuple, `model` an
instance of a model; times and dates and whatever is none of these are told apart by numbers. -/
inductive Value where
  | null
  | bool (b : Bool)
  | int (n : ℤ)
  | float (n : NumberText)
  | nonFinite
  | text (s : String)
  | uuid (id : ℕ)
  | datetime (t : ℕ)
  | date (d : ℕ)
  | member (value : String)
  | sequence (items : List Value)
  | mapping (entries : List (String × Value))
  | model (name : String) (fields : List (String × Value))
  | other (id : ℕ)

/-- The types of fields without parts; `literal` accepts the values it lists. -/
inductive Scalar where
  | integer
  | float
  | boolean
  | uuid
  | datetime
  | date
  | enumeration (values : List String)
  | literal (accepts : Value → Bool)

/-- The value is of the type, and not of one that is converted to it. -/
def Scalar.native : Scalar → Value → Bool
  | .integer, .int _ => true
  | .float, .float _ => true
  | .float, .nonFinite => true
  | .boolean, .bool _ => true
  | .uuid, .uuid _ => true
  | .datetime, .datetime _ => true
  | .date, .date _ => true
  | .enumeration values, .member value => values.contains value
  | .literal accepts, v => accepts v
  | _, _ => false

/-- The types of fields with the constraints on their values.  A model lists its fields, those with a default
with their default, and what its validators check. -/
inductive Kind where
  | text (check : String → Bool)
  | scalar (type : Scalar) (check : Value → Bool)
  | list (check : ℕ → Bool) (item : Kind)
  | dict (check : ℕ → Bool) (item : Kind)
  | anything
  | optional (kind : Kind)
  | model (name : String) (fields : List (String × Kind × Option Value))
      (check : List (String × Value) → Bool)

abbrev Fields := List (String × Kind × Option Value)

/-- The texts of identifiers, times and dates, the JSON form of another object, and what validation converts:
texts and scalars from values of other types, sequences and mappings from other objects. -/
structure Pydantic where
  sha256 : List Char → String
  uuidText : ℕ → String
  timeText : ℕ → String
  dateText : ℕ → String
  otherJson : ℕ → Json
  convertText : Value → Option String
  convert : Scalar → Value → Option Value
  items : ℕ → Option (List Value)
  entries : ℕ → Option (List (String × Value))

variable (py : Pydantic)

/-! ### Dumps -/

mutual

/-- `model_dump(mode="json")`, with the members of objects in the order of their names. -/
def dump : Value → Json
  | .null => .null
  | .bool b => .bool b
  | .int n => .number (Json.intText n)
  | .float n => .number n
  | .nonFinite => .nonFinite
  | .text s => .string s
  | .uuid id => .string (py.uuidText id)
  | .datetime t => .string (py.timeText t)
  | .date d => .string (py.dateText d)
  | .member value => .string value
  | .sequence items => .array (dumpItems items)
  | .mapping entries => .object (byName (dumpEntries entries))
  | .model _ fields => .object (byName (dumpEntries fields))
  | .other id => py.otherJson id

def dumpItems : List Value → List Json
  | [] => []
  | v :: items => dump v :: dumpItems items

def dumpEntries : List (String × Value) → List (String × Json)
  | [] => []
  | (name, v) :: entries => (name, dump v) :: dumpEntries entries

end

/-! ### Validation -/

/-- The items of a value, for a field that is a list. -/
def itemsOf : Value → Option (List Value)
  | .sequence items => some items
  | .other id => py.items id
  | _ => none

/-- The entries of a value, for a field that is a dict. -/
def entriesOf : Value → Option (List (String × Value))
  | .mapping entries => some entries
  | .other id => py.entries id
  | _ => none

/-- `members[name] = value`. -/
def setEntry (entries : List (String × Value)) (entry : String × Value) : List (String × Value) :=
  if entry.1 ∈ entries.map (·.1) then entries.map fun e => if e.1 = entry.1 then entry else e
  else entries ++ [entry]

/-- `dict(entries)`. -/
def dictOf (entries : List (String × Value)) : List (String × Value) := entries.foldl setEntry []

/-- A text as validation takes it. -/
def textOf : Value → Option String
  | .text s => some s
  | v => py.convertText v

mutual

/-- Validation of a value for a field; `none` where it raises. -/
def validate : Kind → Value → Option Value
  | .text check, v => do
    let s ← textOf py v
    if check (strip s) then some (.text (strip s)) else none
  | .scalar type check, v => do
    let w ← (if type.native v then some v else py.convert type v : Option Value)
    if check w then some w else none
  | .list check item, v => do
    let items ← itemsOf py v
    let items ← items.mapM (validate item)
    if check items.length then some (.sequence items) else none
  | .dict check item, v => do
    let entries ← entriesOf py v
    let entries ← entries.mapM fun e => (validate item e.2).map (strip e.1, ·)
    if check (dictOf entries).length then some (.mapping (dictOf entries)) else none
  | .anything, v => some v
  | .optional _, .null => some .null
  | .optional kind, v => validate kind v
  | .model name _ _, .model name' values => if name = name' then some (.model name' values) else none
  | .model name fields check, .mapping entries =>
    if entries.all fun e => (fields.map (·.1)).contains e.1 then do
      let values ← validateFields fields entries
      if check values then some (.model name values) else none
    else none
  | .model _ _ _, _ => none

/-- The fields of a model from the entries given for them. -/
def validateFields : Fields → List (String × Value) → Option (List (String × Value))
  | [], _ => some []
  | (name, kind, default) :: fields, entries => do
    let value ← (match entries.lookup name with
      | some v => validate kind v
      | none => default : Option Value)
    let values ← validateFields fields entries
    some ((name, value) :: values)

end

/-! ### Settled values -/

mutual

/-- No two entries of a dict have the same key. -/
def Value.Distinct : Value → Prop
  | .sequence items => DistinctItems items
  | .mapping entries => (entries.map (·.1)).Nodup ∧ DistinctEntries entries
  | _ => True

def DistinctItems : List Value → Prop
  | [] => True
  | v :: items => v.Distinct ∧ DistinctItems items

def DistinctEntries : List (String × Value) → Prop
  | [] => True
  | (_, v) :: entries => v.Distinct ∧ DistinctEntries entries

end

mutual

/-- No two fields of a model have the same name. -/
def Kind.Proper : Kind → Prop
  | .list _ item => item.Proper
  | .dict _ item => item.Proper
  | .optional kind => kind.Proper
  | .model _ fields _ => (fields.map (·.1)).Nodup ∧ ProperFields fields
  | _ => True

def ProperFields : Fields → Prop
  | [] => True
  | (_, kind, _) :: fields => kind.Proper ∧ ProperFields fields

end

mutual

/-- The value is one that validation leaves as it is in JSON: a text without white space at its ends, a scalar
of the type of the field or one with the same JSON form, a list or dict of settled values under keys without
white space at their ends, an instance, or a mapping that gives every field of the model a settled value. -/
def Settled : Kind → Value → Prop
  | .text _, .text s => Trimmed s
  | .text _, v => ∀ s, py.convertText v = some s → dump py (.text (strip s)) = dump py v
  | .scalar type _, v => type.native v = true ∨ ∀ w, py.convert type v = some w → dump py w = dump py v
  | .list _ item, v => ∀ items, itemsOf py v = some items → ∀ x ∈ items, Settled item x
  | .dict _ item, v =>
    ∀ entries, entriesOf py v = some entries → ∀ e ∈ entries, Trimmed e.1 ∧ Settled item e.2
  | .anything, _ => True
  | .optional kind, v => v = .null ∨ Settled kind v
  | .model _ fields _, .mapping entries => SettledFields fields entries
  | .model _ _ _, _ => True

def SettledFields : Fields → List (String × Value) → Prop
  | [], _ => True
  | (name, kind, _) :: fields, entries =>
    (∃ v, entries.lookup name = some v ∧ Settled kind v) ∧ SettledFields fields entries

end

/-- Sequences and mappings have the JSON form of their items and entries, and the text of a float is never
that of an integer. -/
structure Pydantic.Lawful : Prop where
  items_json : ∀ id items, py.items id = some items → py.otherJson id = .array (dumpItems py items)
  items_distinct : ∀ id items, py.items id = some items → DistinctItems items
  entries_json : ∀ id entries, py.entries id = some entries →
    py.otherJson id = .object (byName (dumpEntries py entries))
  entries_nodup : ∀ id entries, py.entries id = some entries → (entries.map (·.1)).Nodup
  entries_distinct : ∀ id entries, py.entries id = some entries → DistinctEntries entries
  float_int : ∀ n w, py.convert .float (.int n) = some w → dump py w ≠ dump py (.int n)

variable {py}

/-- An integer given for a float is not settled. -/
theorem not_settled_int (hpy : py.Lawful) {check : Value → Bool} {n : ℤ} {w : Value}
    (h : py.convert .float (.int n) = some w) : ¬ Settled py (.scalar .float check) (.int n) := by
  rintro (hnative | hkept)
  · cases hnative
  · exact hpy.float_int n w h (hkept w h)

/-! ### Lists of entries -/

theorem dumpEntries_eq (entries : List (String × Value)) :
    dumpEntries py entries = entries.map fun e => (e.1, dump py e.2) := by
  induction entries with
  | nil => rfl
  | cons e entries ih => rw [dumpEntries, ih, List.map_cons]

theorem distinctItems_iff {items : List Value} : DistinctItems items ↔ ∀ v ∈ items, v.Distinct := by
  induction items with
  | nil => simp [DistinctItems]
  | cons v items ih => rw [DistinctItems, ih, List.forall_mem_cons]

variable {entries : List (String × Value)}

theorem distinctEntries_iff :
    DistinctEntries entries ↔ ∀ e ∈ entries, e.2.Distinct := by
  induction entries with
  | nil => simp [DistinctEntries]
  | cons e entries ih => rw [DistinctEntries, ih, List.forall_mem_cons]

theorem map_fst_dumpEntries (entries : List (String × Value)) :
    (dumpEntries py entries).map (·.1) = entries.map (·.1) := by
  rw [dumpEntries_eq, List.map_map]
  rfl

variable {l l' : List (String × Json)}

theorem byName_eq_iff (h : (l.map (·.1)).Nodup) :
    byName l = byName l' ↔ l.Perm l' := by
  have hsorted (l : List (String × Json)) : (byName l).Pairwise fun a b => a.1 ≤ b.1 :=
    List.pairwise_insertionSort _ _
  have hsame (l : List (String × Json)) : (byName l).Perm l := List.perm_insertionSort _ l
  constructor
  · intro heq
    exact (hsame l).symm.trans (heq ▸ hsame l')
  · intro hperm
    have hbyName : (byName l).Perm (byName l') := (hsame l).trans (hperm.trans (hsame l').symm)
    refine hbyName.eq_of_pairwise (fun a b ha hb hab hba => ?_) (hsorted l) (hsorted l')
    have hal : a ∈ l := (hsame l).mem_iff.mp ha
    have hbl : b ∈ l := hperm.mem_iff.mpr ((hsame l').mem_iff.mp hb)
    exact List.inj_on_of_nodup_map h hal hbl (le_antisymm hab hba)

theorem eq_of_perm_of_names (hnames : l.map (·.1) = l'.map (·.1))
    (hnodup : (l.map (·.1)).Nodup) (hperm : l.Perm l') : l = l' := by
  have hlength : l.length = l'.length := hperm.length_eq
  refine List.ext_getElem hlength fun i h h' => ?_
  have hmem : l'[i] ∈ l := hperm.mem_iff.mpr (List.getElem_mem h')
  refine List.inj_on_of_nodup_map hnodup (List.getElem_mem h) hmem ?_
  have hname := List.getElem_of_eq hnames (by rw [List.length_map]; exact h)
  rwa [List.getElem_map, List.getElem_map] at hname

theorem byName_eq_iff_of_names (hnames : l.map (·.1) = l'.map (·.1))
    (hnodup : (l.map (·.1)).Nodup) : byName l = byName l' ↔ l = l' := by
  rw [byName_eq_iff hnodup]
  constructor
  · exact eq_of_perm_of_names hnames hnodup
  · rintro rfl
    exact List.Perm.refl l

theorem dictOf_of_nodup (h : (entries.map (·.1)).Nodup) :
    dictOf entries = entries := by
  have hfold : ∀ (entries before : List (String × Value)), ((before ++ entries).map (·.1)).Nodup →
      entries.foldl setEntry before = before ++ entries := by
    intro entries
    induction entries with
    | nil =>
      intro before _
      rw [List.foldl_nil, List.append_nil]
    | cons e entries ih =>
      intro before hnodup
      have hnew : e.1 ∉ before.map (·.1) := by
        rw [List.map_append, List.map_cons] at hnodup
        intro hmem
        exact (List.disjoint_of_nodup_append hnodup) hmem List.mem_cons_self
      rw [List.foldl_cons, setEntry, if_neg hnew, ih (before ++ [e]) (by rwa [← List.append_cons]),
        ← List.append_cons]
  exact hfold entries [] h

theorem mem_names_setEntry {entry : String × Value} {name : String} :
    name ∈ (setEntry entries entry).map (·.1) ↔ name ∈ entries.map (·.1) ∨ name = entry.1 := by
  unfold setEntry
  split_ifs with h
  · have hnames : (entries.map fun e => if e.1 = entry.1 then entry else e).map (·.1) = entries.map (·.1) := by
      rw [List.map_map]
      refine List.map_congr_left fun e _ => ?_
      show (if e.1 = entry.1 then entry else e).1 = e.1
      split_ifs with heq
      · exact heq.symm
      · rfl
    rw [hnames]
    constructor
    · exact .inl
    · rintro (hmem | rfl)
      · exact hmem
      · exact h
  · simp

theorem mem_names_dictOf {name : String} :
    name ∈ (dictOf entries).map (·.1) ↔ name ∈ entries.map (·.1) := by
  have hfold : ∀ (entries before : List (String × Value)), name ∈ (entries.foldl setEntry before).map (·.1) ↔
      name ∈ before.map (·.1) ∨ name ∈ entries.map (·.1) := by
    intro entries
    induction entries with
    | nil => simp
    | cons e entries ih =>
      intro before
      rw [List.foldl_cons, ih, mem_names_setEntry, List.map_cons, List.mem_cons, or_assoc]
  rw [dictOf, hfold]
  simp

theorem mapM_eq_some {α β : Type} {f : α → Option β} {l : List α} {l' : List β} :
    l.mapM f = some l' ↔ List.Forall₂ (fun a b => f a = some b) l l' := by
  induction l generalizing l' with
  | nil =>
    rw [List.mapM_nil, List.forall₂_nil_left_iff]
    exact ⟨fun h => (Option.some_inj.mp h).symm, fun h => h ▸ rfl⟩
  | cons a l ih =>
    rw [List.mapM_cons, List.forall₂_cons_left_iff]
    simp only [Option.bind_eq_bind, Option.bind_eq_some_iff, Option.pure_def, Option.some_inj]
    constructor
    · rintro ⟨b, hb, bs, hbs, rfl⟩
      exact ⟨b, bs, hb, ih.mp hbs, rfl⟩
    · rintro ⟨b, bs, hb, hbs, rfl⟩
      exact ⟨b, hb, bs, ih.mpr hbs, rfl⟩

/-! ### Texts -/

theorem trimmed_strip (text : String) : Trimmed (strip text) := by
  have hhead := List.head?_dropWhile_not Compliance.isWhiteSpace text.toList
  unfold Trimmed strip Compliance.stripBy
  rw [String.toList_ofList]
  constructor
  · intro c hc
    cases hlist : (text.toList.dropWhile Compliance.isWhiteSpace).rdropWhile Compliance.isWhiteSpace with
    | nil =>
      rw [hlist] at hc
      cases hc
    | cons d ds =>
      rw [hlist] at hc
      cases hc
      obtain ⟨after, hafter⟩ := List.rdropWhile_prefix Compliance.isWhiteSpace
        (l := text.toList.dropWhile Compliance.isWhiteSpace)
      rw [← hafter, hlist] at hhead
      exact hhead
  · intro c hc
    obtain ⟨hne, hlast⟩ := List.mem_getLast?_eq_getLast hc
    rw [hlast]
    exact Bool.not_eq_true _ ▸ List.rdropWhile_last_not Compliance.isWhiteSpace _ hne

theorem strip_eq_iff {text : String} : strip text = text ↔ Trimmed text := by
  constructor
  · exact fun h => h ▸ trimmed_strip text
  · exact Compliance.Trimmed.strip_eq

/-! ### Values as validation leaves them -/

variable {fields : Fields}

theorem settledFields_iff :
    SettledFields py fields entries ↔
      ∀ field ∈ fields, ∃ v, entries.lookup field.1 = some v ∧ Settled py field.2.1 v := by
  induction fields with
  | nil => simp [SettledFields]
  | cons field fields ih => rw [SettledFields, ih, List.forall_mem_cons]

/-- The value of a field: the one given, validated, or the default. -/
def fieldValue (py : Pydantic) (field : String × Kind × Option Value) (entries : List (String × Value)) :
    Option Value :=
  match entries.lookup field.1 with
  | some v => validate py field.2.1 v
  | none => field.2.2

variable {entries values : List (String × Value)}

theorem validateFields_eq_some :
    validateFields py fields entries = some values ↔
      List.Forall₂ (fun field value => value.1 = field.1 ∧ fieldValue py field entries = some value.2)
        fields values := by
  induction fields generalizing values with
  | nil =>
    rw [validateFields, List.forall₂_nil_left_iff]
    exact ⟨fun h => (Option.some_inj.mp h).symm, fun h => h ▸ rfl⟩
  | cons field fields ih =>
    obtain ⟨name, kind, default⟩ := field
    rw [List.forall₂_cons_left_iff, validateFields]
    simp only [Option.bind_eq_bind, Option.bind_eq_some_iff, Option.some_inj]
    constructor
    · rintro ⟨value, hvalue, rest, hrest, rfl⟩
      exact ⟨(name, value), rest, ⟨rfl, hvalue⟩, ih.mp hrest, rfl⟩
    · rintro ⟨⟨_, value⟩, rest, ⟨rfl, hvalue⟩, hrest, rfl⟩
      exact ⟨value, hvalue, rest, ih.mpr hrest, rfl⟩

theorem dumpItems_eq_iff {P : Value → Prop} {items items' : List Value}
    (h : List.Forall₂ (fun v w => dump py w = dump py v ↔ P v) items items') :
    dumpItems py items' = dumpItems py items ↔ ∀ v ∈ items, P v := by
  induction h with
  | nil => simp
  | cons hv _ ih => rw [dumpItems, dumpItems, List.cons.injEq, hv, ih, List.forall_mem_cons]

theorem dumpEntries_eq_iff {P : String × Value → Prop} {entries entries' : List (String × Value)}
    (h : List.Forall₂ (fun e e' => e'.1 = e.1 ∧ (dump py e'.2 = dump py e.2 ↔ P e)) entries entries') :
    dumpEntries py entries' = dumpEntries py entries ↔ ∀ e ∈ entries, P e := by
  induction h with
  | nil => simp
  | cons hv _ ih =>
    obtain ⟨hname, hvalue⟩ := hv
    rw [dumpEntries, dumpEntries, List.cons.injEq, Prod.mk.injEq, hvalue, ih, List.forall_mem_cons]
    simp [hname]

theorem dump_dict_iff {item : Kind} {entries entries' : List (String × Value)}
    (hnodup : (entries.map (·.1)).Nodup)
    (hvalid : List.Forall₂ (fun e e' => e'.1 = strip e.1 ∧
      (dump py e'.2 = dump py e.2 ↔ Settled py item e.2)) entries entries') :
    byName (dumpEntries py (dictOf entries')) = byName (dumpEntries py entries) ↔
      ∀ e ∈ entries, Trimmed e.1 ∧ Settled py item e.2 := by
  have hnames : entries'.map (·.1) = entries.map fun e => strip e.1 := by
    have hnames : List.Forall₂ (fun e e' => e'.1 = strip e.1) entries entries' :=
      hvalid.imp fun _ _ h => h.1
    clear hvalid hnodup
    induction hnames with
    | nil => rfl
    | cons h _ ih => rw [List.map_cons, List.map_cons, h, ih]
  -- With keys that validation leaves as they are, the entries are compared one by one.
  have hsame (htrimmed : ∀ e ∈ entries, Trimmed e.1) :
      byName (dumpEntries py (dictOf entries')) = byName (dumpEntries py entries) ↔
        ∀ e ∈ entries, Settled py item e.2 := by
    have hkeys : entries'.map (·.1) = entries.map (·.1) := by
      rw [hnames]
      exact List.map_congr_left fun e he => (htrimmed e he).strip_eq
    have hdict : dictOf entries' = entries' := dictOf_of_nodup (hkeys ▸ hnodup)
    rw [hdict, byName_eq_iff_of_names (by rw [map_fst_dumpEntries, map_fst_dumpEntries, hkeys])
      (by rw [map_fst_dumpEntries, hkeys]; exact hnodup)]
    refine dumpEntries_eq_iff (P := fun e => Settled py item e.2)
      (forall₂_imp_of_mem hvalid fun e he e' _ h => ?_)
    exact ⟨h.1.trans (htrimmed e he).strip_eq, h.2⟩
  constructor
  · intro heq
    have hperm := (byName_eq_iff (by rw [map_fst_dumpEntries]; exact hnodup)).mp heq.symm
    have htrimmed : ∀ e ∈ entries, Trimmed e.1 := by
      intro e he
      have hmem : e.1 ∈ (dumpEntries py (dictOf entries')).map (·.1) := by
        refine (hperm.map (·.1)).mem_iff.mp ?_
        rw [map_fst_dumpEntries]
        exact List.mem_map_of_mem he
      rw [map_fst_dumpEntries, mem_names_dictOf, hnames] at hmem
      obtain ⟨d, -, hd⟩ := List.mem_map.mp hmem
      rw [← hd]
      exact trimmed_strip d.1
    exact fun e he => ⟨htrimmed e he, (hsame htrimmed).mp heq e he⟩
  · exact fun h => (hsame fun e he => (h e he).1).mpr fun e he => (h e he).2

theorem names_of_validateFields
    (h : validateFields py fields entries = some values) : values.map (·.1) = fields.map (·.1) := by
  have hforall := validateFields_eq_some.mp h
  clear h
  induction hforall with
  | nil => rfl
  | cons hvalue _ ih => rw [List.map_cons, List.map_cons, hvalue.1, ih]

theorem dump_mapping_iff
    (hfields : (fields.map (·.1)).Nodup) (hnodup : (entries.map (·.1)).Nodup)
    (hknown : ∀ e ∈ entries, e.1 ∈ fields.map (·.1)) (hvalid : validateFields py fields entries = some values)
    (hkinds : ∀ field ∈ fields, ∀ v w, entries.lookup field.1 = some v → validate py field.2.1 v = some w →
      (dump py w = dump py v ↔ Settled py field.2.1 v)) :
    byName (dumpEntries py values) = byName (dumpEntries py entries) ↔ SettledFields py fields entries := by
  have hnames := names_of_validateFields hvalid
  have hforall := validateFields_eq_some.mp hvalid
  have hleft : ((dumpEntries py values).map (·.1)).Nodup := by
    rw [map_fst_dumpEntries, hnames]
    exact hfields
  have hright : ((dumpEntries py entries).map (·.1)).Nodup := by
    rw [map_fst_dumpEntries]
    exact hnodup
  rw [settledFields_iff, byName_eq_iff hleft]
  constructor
  · intro hperm field hfield
    obtain ⟨value, hvalue, hname, hof⟩ := exists_of_mem_left hforall hfield
    have hmem : (field.1, dump py value.2) ∈ dumpEntries py entries := by
      refine hperm.mem_iff.mp ?_
      rw [dumpEntries_eq, ← hname]
      exact List.mem_map_of_mem hvalue
    rw [dumpEntries_eq] at hmem
    obtain ⟨⟨name, v⟩, hv, hpair⟩ := List.mem_map.mp hmem
    obtain ⟨rfl, hdump⟩ := Prod.mk.inj hpair
    have hlookup := lookup_of_mem hnodup hv
    rw [fieldValue, hlookup] at hof
    exact ⟨v, hlookup, (hkinds field hfield v value.2 hlookup hof).mp hdump.symm⟩
  · intro hsettled
    refine (List.perm_ext_iff_of_nodup hleft.of_map hright.of_map).mpr fun entry => ?_
    rw [dumpEntries_eq, dumpEntries_eq]
    constructor
    · intro hentry
      obtain ⟨value, hvalue, rfl⟩ := List.mem_map.mp hentry
      obtain ⟨field, hfield, hname, hof⟩ := exists_of_mem_right hforall hvalue
      obtain ⟨v, hlookup, hv⟩ := hsettled field hfield
      rw [fieldValue, hlookup] at hof
      have hdump := (hkinds field hfield v value.2 hlookup hof).mpr hv
      refine List.mem_map.mpr ⟨(field.1, v), mem_of_lookup hlookup, ?_⟩
      rw [hname, hdump]
    · intro hentry
      obtain ⟨⟨name, v⟩, hv, rfl⟩ := List.mem_map.mp hentry
      obtain ⟨field, hfield, rfl⟩ := List.mem_map.mp (hknown _ hv)
      obtain ⟨value, hvalue, hname, hof⟩ := exists_of_mem_left hforall hfield
      have hlookup := lookup_of_mem hnodup hv
      obtain ⟨v', hlookup', hv'⟩ := hsettled field hfield
      cases hlookup.symm.trans hlookup'
      rw [fieldValue, hlookup] at hof
      have hdump := (hkinds field hfield v value.2 hlookup hof).mpr hv'
      refine List.mem_map.mpr ⟨value, hvalue, ?_⟩
      rw [hname, hdump]

variable {v : Value}

theorem itemsOf_spec (hpy : py.Lawful) {items : List Value} (hv : v.Distinct)
    (h : itemsOf py v = some items) : dump py v = .array (dumpItems py items) ∧ DistinctItems items := by
  cases v with
  | sequence _ =>
    cases h
    exact ⟨rfl, hv⟩
  | other id => exact ⟨hpy.items_json id items h, hpy.items_distinct id items h⟩
  | _ => cases h

theorem entriesOf_spec (hpy : py.Lawful) (hv : v.Distinct)
    (h : entriesOf py v = some entries) : dump py v = .object (byName (dumpEntries py entries)) ∧
      (entries.map (·.1)).Nodup ∧ DistinctEntries entries := by
  cases v with
  | mapping _ =>
    cases h
    exact ⟨rfl, hv⟩
  | other id =>
    exact ⟨hpy.entries_json id entries h, hpy.entries_nodup id entries h, hpy.entries_distinct id entries h⟩
  | _ => cases h

theorem dump_text_iff {check : String → Bool} {s : String} (h : textOf py v = some s) :
    dump py (.text (strip s)) = dump py v ↔ Settled py (.text check) v := by
  unfold textOf at h
  split at h
  · cases h
    rw [dump, dump, Json.string.injEq, strip_eq_iff, Settled]
  · next hne =>
      have hsettled : Settled py (.text check) v ↔
          ∀ s, py.convertText v = some s → dump py (.text (strip s)) = dump py v := by
        rw [Settled]
        exact hne
      rw [hsettled, h]
      simp

mutual

/-- Validation leaves the JSON form of a value as it is exactly when the value is settled. -/
theorem dump_validate (hpy : py.Lawful) : ∀ (kind : Kind) {v w : Value}, kind.Proper → v.Distinct →
    validate py kind v = some w → (dump py w = dump py v ↔ Settled py kind v)
  | .text check, v, w, _, _, h => by
    rw [validate] at h
    obtain ⟨s, hs, h⟩ := Option.bind_eq_some_iff.mp h
    split_ifs at h
    cases h
    exact dump_text_iff hs
  | .scalar type check, v, w, _, _, h => by
    rw [validate] at h
    obtain ⟨w', hw', h⟩ := Option.bind_eq_some_iff.mp h
    split_ifs at h
    cases h
    rw [Settled]
    split_ifs at hw' with hnative
    · cases hw'
      exact ⟨fun _ => .inl hnative, fun _ => rfl⟩
    · rw [hw']
      simp [hnative]
  | .list check item, v, w, hproper, hv, h => by
    rw [validate] at h
    obtain ⟨items, hitems, h⟩ := Option.bind_eq_some_iff.mp h
    obtain ⟨items', hitems', h⟩ := Option.bind_eq_some_iff.mp h
    split_ifs at h
    cases h
    obtain ⟨hdump, hdistinct⟩ := itemsOf_spec hpy hv hitems
    have hforall := mapM_eq_some.mp hitems'
    rw [hdump, dump, Json.array.injEq, dumpItems_eq_iff (P := fun x => Settled py item x)
      (forall₂_imp_of_mem hforall fun x hx x' _ hvalid =>
        dump_validate hpy item hproper (distinctItems_iff.mp hdistinct x hx) hvalid), Settled, hitems]
    simp
  | .dict check item, v, w, hproper, hv, h => by
    rw [validate] at h
    obtain ⟨entries, hentries, h⟩ := Option.bind_eq_some_iff.mp h
    obtain ⟨entries', hentries', h⟩ := Option.bind_eq_some_iff.mp h
    split_ifs at h
    cases h
    obtain ⟨hdump, hnodup, hdistinct⟩ := entriesOf_spec hpy hv hentries
    have hvalid : List.Forall₂ (fun e e' => e'.1 = strip e.1 ∧
        (dump py e'.2 = dump py e.2 ↔ Settled py item e.2)) entries entries' := by
      refine forall₂_imp_of_mem (mapM_eq_some.mp hentries') fun e he e' _ hvalid => ?_
      obtain ⟨x, hx, rfl⟩ := Option.map_eq_some_iff.mp hvalid
      exact ⟨rfl, dump_validate hpy item hproper (distinctEntries_iff.mp hdistinct e he) hx⟩
    rw [hdump, dump, Json.object.injEq, dump_dict_iff hnodup hvalid, Settled, hentries]
    simp
  | .anything, v, w, _, _, h => by
    cases h
    simp [Settled]
  | .optional kind, v, w, hproper, hv, h => by
    rw [Settled]
    by_cases hnull : v = .null
    · subst hnull
      cases h
      simp
    · rw [validate] at h
      · rw [dump_validate hpy kind hproper hv h]
        simp [hnull]
      · exact hnull
  | .model name fields check, v, w, hproper, hv, h => by
    cases v with
    | model name' values =>
      rw [validate] at h
      split_ifs at h
      cases h
      simp [Settled]
    | mapping entries =>
      rw [validate] at h
      split_ifs at h with hknown
      obtain ⟨values, hvalues, h⟩ := Option.bind_eq_some_iff.mp h
      split_ifs at h
      cases h
      have hnames : ∀ e ∈ entries, e.1 ∈ fields.map (·.1) := fun e he =>
        List.contains_iff_mem.mp (List.all_eq_true.mp hknown e he)
      rw [dump, dump, Json.object.injEq, dump_mapping_iff hproper.1 hv.1 hnames hvalues, Settled]
      intro field hfield v w hlookup hw
      have hdistinct := distinctEntries_iff.mp hv.2 _ (mem_of_lookup hlookup)
      exact dump_validate_fields hpy fields hproper.2 field hfield v w hdistinct hw
    | _ => cases h

theorem dump_validate_fields (hpy : py.Lawful) : ∀ (fields : Fields), ProperFields fields →
    ∀ field ∈ fields, ∀ v w, v.Distinct → validate py field.2.1 v = some w →
      (dump py w = dump py v ↔ Settled py field.2.1 v)
  | [], _, field, hfield, _, _, _, _ => absurd hfield List.not_mem_nil
  | (name, kind, default) :: fields, hproper, field, hfield, v, w, hv, h => by
    rcases List.mem_cons.mp hfield with rfl | hfield
    · exact dump_validate hpy kind hproper.1 hv h
    · exact dump_validate_fields hpy fields hproper.2 field hfield v w hv h

end

end CyberControl.Sealing
