import CyberControl.Errors
import CyberControl.Json
import Mathlib.Data.List.Sort
import Mathlib.Data.Rat.Init
import Mathlib.Data.String.Basic

/-! # Python values and JSON

The values that `json.dumps` writes and `json.loads` returns.  A Python value has tuples beside
lists, and its dicts have keys that are no strings; both are lost in the JSON text. -/

namespace CyberControl

deriving instance DecidableEq for NumberText

namespace Python

/-- The keys that `json.dumps` writes. -/
inductive Key where
  | str (s : String)
  | number (n : NumberText)
  | bool (b : Bool)
  | none
deriving DecidableEq

inductive Value where
  | none
  | bool (b : Bool)
  | number (n : NumberText)
  | nonFinite
  | str (s : String)
  | list (elements : List Value)
  | tuple (elements : List Value)
  | dict (members : List (Key × Value))

/-! ### Keys -/

namespace Key

/-- The name of a key in a JSON object. -/
def name : Key → String
  | .str s => s
  | .number n => String.ofList n.text
  | .bool true => "true"
  | .bool false => "false"
  | .none => "null"

def isStr : Key → Bool
  | .str _ => true
  | _ => false

variable (numberValue : NumberText → ℚ)

/-- The number that a key is equal to, where `numberValue` reads number texts; `True` is equal to 1 and
`False` to 0. -/
def rank : Key → Option ℚ
  | .number n => some (numberValue n)
  | .bool b => some (if b then 1 else 0)
  | _ => Option.none

/-- `a == b`. -/
def same : Key → Key → Bool
  | .str s, .str t => s = t
  | .none, .none => true
  | a, b => (a.rank numberValue).isSome && a.rank numberValue = b.rank numberValue

/-- `a <= b`, for keys that can be compared. -/
def le : Key → Key → Prop
  | .str s, .str t => s ≤ t
  | a, b => (a.rank numberValue).getD 0 ≤ (b.rank numberValue).getD 0

instance (a b : Key) : Decidable (a.le numberValue b) := by
  unfold le
  split <;> infer_instance

/-- `sorted(keys)` compares no two keys that cannot be compared. -/
def sortable (keys : List Key) : Bool :=
  keys.length ≤ 1 || keys.all isStr || keys.all fun k => (k.rank numberValue).isSome

theorem name_inj {k l : Key} (hk : k.isStr = true) (hl : l.isStr = true) (h : k.name = l.name) :
    k = l := by
  cases k with
  | str s =>
    cases l with
    | str t => exact congrArg str h
    | _ => cases hl
  | _ => cases hk

end Key

/-! ### Sorting and writing -/

namespace Value

section canonical

variable (numberValue : NumberText → ℚ)

mutual

/-- The value with the members of every dict in the order of their keys; `none` when keys cannot be
compared. -/
def sorted : Value → Option Value
  | .list elements => (sortedElements elements).map .list
  | .tuple elements => (sortedElements elements).map .tuple
  | .dict members =>
    if Key.sortable numberValue (members.map (·.1)) then
      (sortedMembers members).map fun members =>
        .dict (members.insertionSort fun a b => a.1.le numberValue b.1)
    else Option.none
  | v => some v

def sortedElements : List Value → Option (List Value)
  | [] => some []
  | v :: elements => do
    let v ← v.sorted
    let elements ← sortedElements elements
    return v :: elements

def sortedMembers : List (Key × Value) → Option (List (Key × Value))
  | [] => some []
  | (k, v) :: members => do
    let v ← v.sorted
    let members ← sortedMembers members
    return (k, v) :: members

end

end canonical

mutual

/-- The JSON value that `json.dumps` writes. -/
def toJson : Value → Json
  | .none => .null
  | .bool b => .bool b
  | .number n => .number n
  | .nonFinite => .nonFinite
  | .str s => .string s
  | .list elements => .array (toJsonElements elements)
  | .tuple elements => .array (toJsonElements elements)
  | .dict members => .object (toJsonMembers members)

def toJsonElements : List Value → List Json
  | [] => []
  | v :: elements => v.toJson :: toJsonElements elements

def toJsonMembers : List (Key × Value) → List (String × Json)
  | [] => []
  | (k, v) :: members => (k.name, v.toJson) :: toJsonMembers members

end

/-- The JSON value of `json.dumps(value, sort_keys=True, allow_nan=False)`. -/
def canonical (numberValue : NumberText → ℚ) (v : Value) : Option Json := do
  let v ← v.sorted numberValue
  if v.toJson.finite then some v.toJson else Option.none

/-! ### Reading -/

/-- `members[k] = v`. -/
def setMember (members : List (Key × Value)) (k : Key) (v : Value) : List (Key × Value) :=
  if k ∈ members.map (·.1) then members.map fun m => if m.1 = k then (k, v) else m
  else members ++ [(k, v)]

/-- `dict(pairs)`. -/
def dictOf (pairs : List (Key × Value)) : List (Key × Value) :=
  pairs.foldl (fun members m => setMember members m.1 m.2) []

mutual

/-- The value that `json.loads` makes of a JSON value. -/
def ofJson : Json → Value
  | .null => .none
  | .bool b => .bool b
  | .number n => .number n
  | .nonFinite => .nonFinite
  | .string s => .str s
  | .array elements => .list (ofJsonElements elements)
  | .object members => .dict (dictOf (ofJsonMembers members))

def ofJsonElements : List Json → List Value
  | [] => []
  | v :: elements => ofJson v :: ofJsonElements elements

def ofJsonMembers : List (String × Json) → List (Key × Value)
  | [] => []
  | (k, v) :: members => (.str k, ofJson v) :: ofJsonMembers members

end

/-! ### Plain values -/

mutual

/-- The value has no tuples, and its dicts have strings as keys. -/
def plain : Value → Bool
  | .list elements => plainElements elements
  | .tuple _ => false
  | .dict members => plainMembers members
  | _ => true

def plainElements : List Value → Bool
  | [] => true
  | v :: elements => v.plain && plainElements elements

def plainMembers : List (Key × Value) → Bool
  | [] => true
  | (k, v) :: members => k.isStr && v.plain && plainMembers members

end

section distinct

variable (numberValue : NumberText → ℚ)

mutual

/-- No two keys of a dict are equal. -/
def distinct : Value → Bool
  | .list elements => distinctElements elements
  | .tuple elements => distinctElements elements
  | .dict members =>
    decide ((members.map (·.1)).Pairwise fun a b => a.same numberValue b = false) &&
      distinctMembers members
  | _ => true

def distinctElements : List Value → Bool
  | [] => true
  | v :: elements => v.distinct && distinctElements elements

def distinctMembers : List (Key × Value) → Bool
  | [] => true
  | (_, v) :: members => v.distinct && distinctMembers members

end

end distinct

variable {members : List (Key × Value)}

theorem plainMembers_iff :
    plainMembers members = true ↔ ∀ m ∈ members, m.1.isStr = true ∧ m.2.plain = true := by
  induction members with
  | nil => simp [plainMembers]
  | cons m members ih => simp [plainMembers, ih]

variable {v : Value}

theorem plainMembers_setMember {k : Key}
    (h : plainMembers members = true) (hk : k.isStr = true) (hv : v.plain = true) :
    plainMembers (setMember members k v) = true := by
  rw [plainMembers_iff] at h ⊢
  intro m hm
  unfold setMember at hm
  split_ifs at hm
  · obtain ⟨m', hm', rfl⟩ := List.mem_map.mp hm
    split_ifs
    · exact ⟨hk, hv⟩
    · exact h m' hm'
  · rcases List.mem_append.mp hm with hm | hm
    · exact h m hm
    · rw [List.mem_singleton.mp hm]
      exact ⟨hk, hv⟩

theorem plainMembers_dictOf {pairs : List (Key × Value)} (h : plainMembers pairs = true) :
    plainMembers (dictOf pairs) = true := by
  have hfold : ∀ members, plainMembers members = true →
      plainMembers (pairs.foldl (fun members m => setMember members m.1 m.2) members) = true := by
    rw [plainMembers_iff] at h
    induction pairs with
    | nil => exact fun _ hmembers => hmembers
    | cons m pairs ih =>
      intro members hmembers
      have hm := h m (by simp)
      exact ih (fun m' hm' => h m' (by simp [hm'])) _ (plainMembers_setMember hmembers hm.1 hm.2)
  exact hfold [] rfl

mutual

theorem plain_ofJson : ∀ v : Json, (ofJson v).plain = true
  | .null | .bool _ | .number _ | .nonFinite | .string _ => rfl
  | .array elements => plain_ofJsonElements elements
  | .object members => plainMembers_dictOf (plain_ofJsonMembers members)

theorem plain_ofJsonElements : ∀ elements : List Json, plainElements (ofJsonElements elements) = true
  | [] => rfl
  | v :: elements => by
    rw [ofJsonElements, plainElements, plain_ofJson v, plain_ofJsonElements elements]
    rfl

theorem plain_ofJsonMembers :
    ∀ members : List (String × Json), plainMembers (ofJsonMembers members) = true
  | [] => rfl
  | (k, v) :: members => by
    rw [ofJsonMembers, plainMembers, plain_ofJson v, plain_ofJsonMembers members]
    rfl

end

theorem dictOf_of_nodup {pairs : List (Key × Value)} (h : (pairs.map (·.1)).Nodup) :
    dictOf pairs = pairs := by
  have hfold : ∀ members, ((members ++ pairs).map (·.1)).Nodup →
      pairs.foldl (fun members m => setMember members m.1 m.2) members = members ++ pairs := by
    clear h
    induction pairs with
    | nil => simp
    | cons m pairs ih =>
      intro members hnodup
      have hnew : m.1 ∉ members.map (·.1) := by
        rw [List.map_append, List.map_cons, List.nodup_append] at hnodup
        exact fun hmem => hnodup.2.2 _ hmem _ (by simp) rfl
      have hset : setMember members m.1 m.2 = members ++ [m] := by rw [setMember, if_neg hnew]
      rw [List.foldl_cons, hset, ih _ (by simpa using hnodup)]
      simp
  exact hfold [] h

variable {numberValue : NumberText → ℚ}

theorem nodup_of_distinct {keys : List Key}
    (hstr : ∀ k ∈ keys, k.isStr = true)
    (h : keys.Pairwise fun a b => a.same numberValue b = false) : keys.Nodup := by
  refine h.imp_of_mem fun {a b} ha _ hsame => ?_
  rintro rfl
  have := hstr a ha
  cases a with
  | str s => simp [Key.same] at hsame
  | _ => cases this

mutual

theorem ofJson_toJson :
    ∀ v : Value, v.distinct numberValue = true → v.plain = true → ofJson v.toJson = v
  | .none, _, _ | .bool _, _, _ | .number _, _, _ | .nonFinite, _, _ | .str _, _, _ => rfl
  | .list elements, hdistinct, hplain => by
    rw [toJson, ofJson, ofJsonElements_toJson elements hdistinct hplain]
  | .dict members, hdistinct, hplain => by
    rw [distinct, Bool.and_eq_true] at hdistinct
    rw [toJson, ofJson, ofJsonMembers_toJson members hdistinct.2 hplain, dictOf_of_nodup]
    refine nodup_of_distinct (fun k hk => ?_) (of_decide_eq_true hdistinct.1)
    obtain ⟨m, hm, rfl⟩ := List.mem_map.mp hk
    exact (plainMembers_iff.mp hplain m hm).1

theorem ofJsonElements_toJson :
    ∀ elements : List Value, distinctElements numberValue elements = true →
      plainElements elements = true → ofJsonElements (toJsonElements elements) = elements
  | [], _, _ => rfl
  | v :: elements, hdistinct, hplain => by
    rw [distinctElements, Bool.and_eq_true] at hdistinct
    rw [plainElements, Bool.and_eq_true] at hplain
    rw [toJsonElements, ofJsonElements, ofJson_toJson v hdistinct.1 hplain.1,
      ofJsonElements_toJson elements hdistinct.2 hplain.2]

theorem ofJsonMembers_toJson :
    ∀ members : List (Key × Value), distinctMembers numberValue members = true →
      plainMembers members = true → ofJsonMembers (toJsonMembers members) = members
  | [], _, _ => rfl
  | (k, v) :: members, hdistinct, hplain => by
    rw [distinctMembers, Bool.and_eq_true] at hdistinct
    rw [plainMembers, Bool.and_eq_true, Bool.and_eq_true] at hplain
    obtain ⟨⟨hk, hv⟩, hmembers⟩ := hplain
    rw [toJsonMembers, ofJsonMembers, ofJson_toJson v hdistinct.1 hv,
      ofJsonMembers_toJson members hdistinct.2 hmembers]
    cases k with
    | str s => rfl
    | _ => cases hk

end

/-- **A value comes back from its JSON text exactly when it is plain.** -/
theorem ofJson_toJson_iff (h : v.distinct numberValue = true) : ofJson v.toJson = v ↔ v.plain = true := by
  constructor
  · intro heq
    rw [← heq]
    exact plain_ofJson _
  · exact ofJson_toJson v h

/-! ### Canonical texts -/

theorem finiteMembers_iff :
    Json.finiteMembers (toJsonMembers members) = true ↔
      ∀ m ∈ members, m.2.toJson.finite = true := by
  induction members with
  | nil => simp [toJsonMembers, Json.finiteMembers]
  | cons m members ih => simp [toJsonMembers, Json.finiteMembers, ih]

section sorted

variable {numberValue : NumberText → ℚ}

theorem sortedElements_cons {elements sorted : List Value}
    (h : sortedElements numberValue (v :: elements) = some sorted) :
    ∃ w ws, v.sorted numberValue = some w ∧ sortedElements numberValue elements = some ws ∧
      sorted = w :: ws := by
  simp only [sortedElements, Option.bind_eq_bind, Option.bind_eq_some_iff, Option.pure_def,
    Option.some.injEq] at h
  obtain ⟨w, hw, ws, hws, rfl⟩ := h
  exact ⟨w, ws, hw, hws, rfl⟩

theorem sortedMembers_cons {k : Key} {members sorted : List (Key × Value)}
    (h : sortedMembers numberValue ((k, v) :: members) = some sorted) :
    ∃ w ms, v.sorted numberValue = some w ∧ sortedMembers numberValue members = some ms ∧
      sorted = (k, w) :: ms := by
  simp only [sortedMembers, Option.bind_eq_bind, Option.bind_eq_some_iff, Option.pure_def,
    Option.some.injEq] at h
  obtain ⟨w, hw, ms, hms, rfl⟩ := h
  exact ⟨w, ms, hw, hms, rfl⟩

theorem sorted_dict {w : Value}
    (h : (Value.dict members).sorted numberValue = some w) :
    ∃ ms, sortedMembers numberValue members = some ms ∧
      w = .dict (ms.insertionSort fun a b => a.1.le numberValue b.1) := by
  rw [sorted] at h
  split_ifs at h
  obtain ⟨ms, hms, rfl⟩ := Option.map_eq_some_iff.mp h
  exact ⟨ms, hms, rfl⟩

mutual

theorem sorted_spec : ∀ {v w : Value}, v.sorted numberValue = some w →
    w.plain = v.plain ∧ w.toJson.finite = v.toJson.finite
  | .none, _, h | .bool _, _, h | .number _, _, h | .nonFinite, _, h | .str _, _, h => by
    rw [sorted] at h
    · cases h
      exact ⟨rfl, rfl⟩
    all_goals nofun
  | .list elements, _, h => by
    rw [sorted] at h
    obtain ⟨ws, hws, rfl⟩ := Option.map_eq_some_iff.mp h
    exact sortedElements_spec hws
  | .tuple elements, _, h => by
    rw [sorted] at h
    obtain ⟨ws, hws, rfl⟩ := Option.map_eq_some_iff.mp h
    exact ⟨rfl, (sortedElements_spec hws).2⟩
  | .dict members, _, h => by
    obtain ⟨ms, hms, rfl⟩ := sorted_dict h
    obtain ⟨hplain, hfinite⟩ := sortedMembers_spec hms
    constructor
    · rw [plain, plain, ← hplain, Bool.eq_iff_iff, plainMembers_iff, plainMembers_iff]
      simp only [List.mem_insertionSort]
    · rw [toJson, toJson, Json.finite, Json.finite, ← hfinite, Bool.eq_iff_iff, finiteMembers_iff,
        finiteMembers_iff]
      simp only [List.mem_insertionSort]

theorem sortedElements_spec : ∀ {vs ws : List Value}, sortedElements numberValue vs = some ws →
    plainElements ws = plainElements vs ∧
      Json.finiteElements (toJsonElements ws) = Json.finiteElements (toJsonElements vs)
  | [], _, h => by
    rw [sortedElements] at h
    cases h
    exact ⟨rfl, rfl⟩
  | v :: vs, _, h => by
    obtain ⟨w, ws, hw, hws, rfl⟩ := sortedElements_cons h
    have hhead := sorted_spec hw
    have htail := sortedElements_spec hws
    simp only [plainElements, toJsonElements, Json.finiteElements, hhead, htail, and_self]

theorem sortedMembers_spec :
    ∀ {vs ws : List (Key × Value)}, sortedMembers numberValue vs = some ws →
      plainMembers ws = plainMembers vs ∧
        Json.finiteMembers (toJsonMembers ws) = Json.finiteMembers (toJsonMembers vs)
  | [], _, h => by
    rw [sortedMembers] at h
    cases h
    exact ⟨rfl, rfl⟩
  | (k, v) :: vs, _, h => by
    obtain ⟨w, ws, hw, hws, rfl⟩ := sortedMembers_cons h
    have hhead := sorted_spec hw
    have htail := sortedMembers_spec hws
    simp only [plainMembers, toJsonMembers, Json.finiteMembers, hhead, htail, and_self]

end

end sorted

mutual

theorem toJson_inj :
    ∀ {v w : Value}, v.plain = true → w.plain = true → v.toJson = w.toJson → v = w
  | .none, w, _, _, h | .nonFinite, w, _, _, h => by
    cases w with
    | none | nonFinite => first | rfl | cases h
    | _ => cases h
  | .bool b, w, _, _, h => by
    cases w with
    | bool c =>
      cases h
      rfl
    | _ => cases h
  | .number n, w, _, _, h => by
    cases w with
    | number m =>
      cases h
      rfl
    | _ => cases h
  | .str s, w, _, _, h => by
    cases w with
    | str t =>
      cases h
      rfl
    | _ => cases h
  | .list vs, w, hv, hw, h => by
    cases w with
    | list ws =>
      rw [toJson, toJson, Json.array.injEq] at h
      rw [toJsonElements_inj hv hw h]
    | tuple ws => cases hw
    | _ => cases h
  | .tuple _, _, hv, _, _ => by cases hv
  | .dict ms, w, hv, hw, h => by
    cases w with
    | dict ns =>
      rw [toJson, toJson, Json.object.injEq] at h
      rw [toJsonMembers_inj hv hw h]
    | _ => cases h

theorem toJsonElements_inj : ∀ {vs ws : List Value}, plainElements vs = true →
    plainElements ws = true → toJsonElements vs = toJsonElements ws → vs = ws
  | [], ws, _, _, h => by
    cases ws with
    | nil => rfl
    | cons w ws => cases h
  | v :: vs, ws, hv, hw, h => by
    cases ws with
    | nil => cases h
    | cons w ws =>
      rw [plainElements, Bool.and_eq_true] at hv hw
      rw [toJsonElements, toJsonElements, List.cons.injEq] at h
      rw [toJson_inj hv.1 hw.1 h.1, toJsonElements_inj hv.2 hw.2 h.2]

theorem toJsonMembers_inj : ∀ {vs ws : List (Key × Value)}, plainMembers vs = true →
    plainMembers ws = true → toJsonMembers vs = toJsonMembers ws → vs = ws
  | [], ws, _, _, h => by
    cases ws with
    | nil => rfl
    | cons w ws => cases h
  | (k, v) :: vs, ws, hv, hw, h => by
    cases ws with
    | nil => cases h
    | cons w ws =>
      obtain ⟨l, w⟩ := w
      rw [plainMembers, Bool.and_eq_true, Bool.and_eq_true] at hv hw
      rw [toJsonMembers, toJsonMembers, List.cons.injEq, Prod.mk.injEq] at h
      rw [toJson_inj hv.1.2 hw.1.2 h.1.2, toJsonMembers_inj hv.2 hw.2 h.2,
        Key.name_inj hv.1.1 hw.1.1 h.1.1]

end

variable {d : Json}

theorem canonical_eq_some :
    v.canonical numberValue = some d ↔
      ∃ w, v.sorted numberValue = some w ∧ w.toJson.finite = true ∧ w.toJson = d := by
  simp only [canonical, Option.bind_eq_bind, Option.bind_eq_some_iff, Option.ite_none_right_eq_some,
    Option.some.injEq]

theorem finite_of_canonical
    (h : v.canonical numberValue = some d) : v.toJson.finite = true ∧ d.finite = true := by
  obtain ⟨w, hsorted, hfinite, rfl⟩ := canonical_eq_some.mp h
  exact ⟨(sorted_spec hsorted).2 ▸ hfinite, hfinite⟩

@[simp] theorem canonical_str (numberValue : NumberText → ℚ) (s : String) :
    (Value.str s).canonical numberValue = some (.string s) := rfl

@[simp] theorem canonical_number (numberValue : NumberText → ℚ) (n : NumberText) :
    (Value.number n).canonical numberValue = some (.number n) := rfl

theorem toJsonMembers_eq_map (members : List (Key × Value)) :
    toJsonMembers members = members.map fun m => (m.1.name, m.2.toJson) := by
  induction members with
  | nil => rfl
  | cons m members ih => rw [toJsonMembers, ih, List.map_cons]

theorem sortedMembers_forall₂ {ms ws : List (Key × Value)}
    (h : sortedMembers numberValue ms = some ws)
    (hfinite : ∀ w ∈ ws, w.2.toJson.finite = true) :
    List.Forall₂ (fun m w => w.1 = m.1 ∧ m.2.canonical numberValue = some w.2.toJson) ms ws := by
  induction ms generalizing ws with
  | nil =>
    rw [sortedMembers] at h
    cases h
    exact .nil
  | cons m ms ih =>
    obtain ⟨w, ws, hw, hws, rfl⟩ := sortedMembers_cons h
    have hhead := hfinite _ (List.mem_cons_self)
    refine .cons ⟨rfl, canonical_eq_some.mpr ⟨w, hw, hhead, rfl⟩⟩ (ih hws fun w hw => ?_)
    exact hfinite w (List.mem_cons_of_mem _ hw)

variable {ms : List (Key × Value)}

theorem canonical_dict (h : (Value.dict ms).canonical numberValue = some d) :
    ∃ js js', d = .object js' ∧ js'.Perm js ∧
      List.Forall₂ (fun m j => j.1 = m.1.name ∧ m.2.canonical numberValue = some j.2) ms js := by
  obtain ⟨w, hsorted, hfinite, rfl⟩ := canonical_eq_some.mp h
  obtain ⟨ws, hws, rfl⟩ := sorted_dict hsorted
  rw [toJson, Json.finite, finiteMembers_iff] at hfinite
  refine ⟨toJsonMembers ws, _, rfl, ?_, ?_⟩
  · rw [toJsonMembers_eq_map, toJsonMembers_eq_map]
    exact (List.perm_insertionSort _ _).map _
  · rw [toJsonMembers_eq_map, List.forall₂_map_right_iff]
    refine (sortedMembers_forall₂ hws fun w hw => ?_).imp fun m w hmw => ⟨by rw [hmw.1], hmw.2⟩
    exact hfinite w ((List.mem_insertionSort _).mpr hw)

/-- A dict whose keys are strings has a canonical text when its members have theirs. -/
theorem exists_canonical_dict
    (hstr : ∀ m ∈ ms, m.1.isStr = true) (h : ∀ m ∈ ms, ∃ d, m.2.canonical numberValue = some d) :
    ∃ d, (Value.dict ms).canonical numberValue = some d := by
  have hmembers : ∃ ws, sortedMembers numberValue ms = some ws ∧
      ∀ w ∈ ws, w.2.toJson.finite = true := by
    clear hstr
    induction ms with
    | nil => exact ⟨[], rfl, nofun⟩
    | cons m ms ih =>
      obtain ⟨ws, hws, hfinite⟩ := ih fun n hn => h n (List.mem_cons_of_mem _ hn)
      obtain ⟨d, hd⟩ := h m List.mem_cons_self
      obtain ⟨w, hw, hhead, _⟩ := canonical_eq_some.mp hd
      refine ⟨(m.1, w) :: ws, ?_, List.forall_mem_cons.mpr ⟨hhead, hfinite⟩⟩
      rw [sortedMembers, hw, hws]
      rfl
  obtain ⟨ws, hws, hfinite⟩ := hmembers
  have hsortable : Key.sortable numberValue (ms.map (·.1)) = true := by
    have hall : (ms.map (·.1)).all Key.isStr = true := by
      rw [List.all_map, List.all_eq_true]
      exact hstr
    rw [Key.sortable, hall, Bool.or_true, Bool.true_or]
  have hsorted : (Value.dict ms).sorted numberValue =
      some (.dict (ws.insertionSort fun a b => a.1.le numberValue b.1)) := by
    rw [sorted, if_pos hsortable, hws]
    rfl
  refine ⟨_, canonical_eq_some.mpr ⟨_, hsorted, ?_, rfl⟩⟩
  rw [toJson, Json.finite, finiteMembers_iff]
  exact fun w hw => hfinite w ((List.mem_insertionSort _).mp hw)

theorem canonical_member
    (h : (Value.dict ms).canonical numberValue = some d) {m : Key × Value} (hm : m ∈ ms) :
    ∃ d, m.2.canonical numberValue = some d := by
  obtain ⟨js, _, _, _, hforall⟩ := canonical_dict h
  obtain ⟨j, _, hj⟩ := exists_of_mem_left hforall hm
  exact ⟨j.2, hj.2⟩

/-- Pairs with one list of distinct keys that are the same in some order are the same. -/
theorem eq_of_perm {α β : Type*} {l l' : List (α × β)} (h : l.Perm l')
    (hkeys : l.map (·.1) = l'.map (·.1)) (hnodup : (l.map (·.1)).Nodup) : l = l' := by
  induction l generalizing l' with
  | nil => exact h.nil_eq
  | cons a l ih =>
    cases l' with
    | nil => exact h.eq_nil
    | cons b l' =>
      simp only [List.map_cons, List.cons.injEq] at hkeys
      rw [List.map_cons, List.nodup_cons] at hnodup
      have hhead : a = b := by
        rcases List.mem_cons.mp (h.mem_iff.mp List.mem_cons_self) with hab | hmem
        · exact hab
        · refine absurd ?_ hnodup.1
          rw [hkeys.2]
          exact List.mem_map_of_mem hmem
      rw [hhead] at h ⊢
      rw [ih h.cons_inv hkeys.2 hnodup.2]

/-- Two dicts with one list of keys and one canonical text have one canonical text for each member. -/
theorem canonical_dict_inj {ms ns : List (Key × Value)}
    (hnames : ms.map (·.1.name) = ns.map (·.1.name)) (hnodup : (ms.map (·.1.name)).Nodup)
    (h : (Value.dict ms).canonical numberValue = some d)
    (h' : (Value.dict ns).canonical numberValue = some d) :
    List.Forall₂ (fun m n => ∃ d, m.2.canonical numberValue = some d ∧
      n.2.canonical numberValue = some d) ms ns := by
  obtain ⟨js, sortedJs, hd, hperm, hms⟩ := canonical_dict h
  obtain ⟨ks, sortedKs, hd', hperm', hns⟩ := canonical_dict h'
  have hkeys : ∀ {l : List (Key × Value)} {js : List (String × Json)},
      List.Forall₂ (fun m j => j.1 = m.1.name ∧ m.2.canonical numberValue = some j.2) l js →
        js.map (·.1) = l.map (·.1.name) := by
    intro l js hl
    induction hl with
    | nil => rfl
    | cons hhead _ ih => rw [List.map_cons, List.map_cons, hhead.1, ih]
  have hjs : js = ks := by
    refine eq_of_perm (hperm.symm.trans ?_) ?_ ?_
    · rw [show sortedJs = sortedKs from Json.object.inj (hd.symm.trans hd')]
      exact hperm'
    · rw [hkeys hms, hkeys hns, hnames]
    · rw [hkeys hms]
      exact hnodup
  rw [← hjs] at hns
  have hboth := List.Forall₂.flip hns
  clear h h' hd hd' hperm hperm' hjs hnames hnodup hns
  induction hms generalizing ns with
  | nil =>
    cases hboth
    exact .nil
  | cons hhead _ ih =>
    cases hboth with
    | cons hhead' htail => exact .cons ⟨_, hhead.2, hhead'.2⟩ (ih htail)

/-- **Plain values with one canonical text** are equal but for the order of members. -/
theorem sorted_eq_of_canonical {v w : Value}
    (hv : v.plain = true) (hw : w.plain = true) (hcanonical : v.canonical numberValue = some d)
    (hcanonical' : w.canonical numberValue = some d) :
    v.sorted numberValue = w.sorted numberValue := by
  obtain ⟨v', hsorted, -, hdocument⟩ := canonical_eq_some.mp hcanonical
  obtain ⟨w', hsorted', -, hdocument'⟩ := canonical_eq_some.mp hcanonical'
  have hplain := (sorted_spec hsorted).1.trans hv
  have hplain' := (sorted_spec hsorted').1.trans hw
  rw [hsorted, hsorted', toJson_inj hplain hplain' (hdocument.trans hdocument'.symm)]

/-! ### Reading a canonical text back -/

theorem distinctMembers_iff :
    distinctMembers numberValue members = true ↔ ∀ m ∈ members, m.2.distinct numberValue = true := by
  induction members with
  | nil => simp [distinctMembers]
  | cons m members ih => simp [distinctMembers, ih]

theorem same_comm {a b : Key} (h : a.same numberValue b = false) :
    b.same numberValue a = false := by
  have hswap : b.same numberValue a = a.same numberValue b := by
    cases a <;> cases b <;> simp [Key.same, Key.rank, eq_comm]
  rw [hswap, h]

theorem sortable_of_perm {keys keys' : List Key} (h : keys.Perm keys') :
    Key.sortable numberValue keys = Key.sortable numberValue keys' := by
  unfold Key.sortable
  rw [h.length_eq, h.all_eq, h.all_eq]

theorem pairwise_sorted_members (hstr : ∀ m ∈ members, m.1.isStr = true) :
    (members.insertionSort fun a b => a.1.le numberValue b.1).Pairwise
      fun a b => a.1.le numberValue b.1 := by
  have hle : ∀ a ∈ members, ∀ b ∈ members, a.1.le numberValue b.1 ↔ a.1.name ≤ b.1.name := by
    rintro ⟨a, v⟩ ha ⟨b, w⟩ hb
    have hsa := hstr _ ha
    have hsb := hstr _ hb
    cases a with
    | str s =>
      cases b with
      | str t => exact Iff.rfl
      | _ => cases hsb
    | _ => cases hsa
  have hmap := List.map_insertionSort (fun a b : Key × Value => a.1.le numberValue b.1)
    (fun s t : String => s ≤ t) (fun m => m.1.name) members hle
  have hpairwise := List.pairwise_insertionSort (fun s t : String => s ≤ t) (members.map fun m => m.1.name)
  rw [← hmap, List.pairwise_map] at hpairwise
  refine hpairwise.imp_of_mem fun {a b} ha hb hab => ?_
  exact (hle a ((List.mem_insertionSort _).mp ha) b ((List.mem_insertionSort _).mp hb)).mpr hab

theorem sortedMembers_fixed (h : ∀ m ∈ members, m.2.sorted numberValue = some m.2) :
    sortedMembers numberValue members = some members := by
  induction members with
  | nil => rfl
  | cons m members ih =>
    rw [sortedMembers, h m List.mem_cons_self, ih fun n hn => h n (List.mem_cons_of_mem _ hn)]
    rfl

mutual

theorem sorted_again : ∀ {v w : Value}, v.sorted numberValue = some w →
    v.plain = true → v.distinct numberValue = true →
      w.distinct numberValue = true ∧ w.sorted numberValue = some w
  | .none, _, h, _, _ | .bool _, _, h, _, _ | .number _, _, h, _, _ | .nonFinite, _, h, _, _
  | .str _, _, h, _, _ => by
    rw [sorted] at h
    · cases h
      exact ⟨rfl, rfl⟩
    all_goals nofun
  | .list elements, _, h, hplain, hdistinct => by
    rw [sorted] at h
    obtain ⟨ws, hws, rfl⟩ := Option.map_eq_some_iff.mp h
    obtain ⟨hdistinct', hsorted⟩ := sortedElements_again hws hplain hdistinct
    refine ⟨hdistinct', ?_⟩
    rw [sorted, hsorted]
    rfl
  | .dict members, _, h, hplain, hdistinct => by
    have hsortable : Key.sortable numberValue (members.map (·.1)) = true := by
      rw [sorted] at h
      by_contra hnot
      rw [if_neg hnot] at h
      cases h
    obtain ⟨ms, hms, rfl⟩ := sorted_dict h
    rw [distinct, Bool.and_eq_true] at hdistinct
    obtain ⟨hkeys, hmembers⟩ := sortedMembers_again hms hplain hdistinct.2
    have hperm := List.perm_insertionSort (fun a b : Key × Value => a.1.le numberValue b.1) ms
    have hpermKeys : ((ms.insertionSort fun a b => a.1.le numberValue b.1).map (·.1)).Perm
        (members.map (·.1)) := by
      rw [← hkeys]
      exact hperm.map _
    have hstr : ∀ m ∈ ms, m.1.isStr = true := by
      intro m hm
      have hplain' : plainMembers ms = true := (sortedMembers_spec hms).1.trans hplain
      exact (plainMembers_iff.mp hplain' m hm).1
    constructor
    · rw [distinct, Bool.and_eq_true]
      constructor
      · rw [decide_eq_true_iff]
        exact (hpermKeys.pairwise_iff same_comm).mpr (of_decide_eq_true hdistinct.1)
      · rw [distinctMembers_iff]
        exact fun m hm => (hmembers m (hperm.mem_iff.mp hm)).1
    · rw [sorted, sortable_of_perm hpermKeys, if_pos hsortable, sortedMembers_fixed]
      · exact congrArg (some ∘ Value.dict) (pairwise_sorted_members hstr).insertionSort_eq
      · exact fun m hm => (hmembers m (hperm.mem_iff.mp hm)).2

theorem sortedElements_again :
    ∀ {vs ws : List Value}, sortedElements numberValue vs = some ws → plainElements vs = true →
      distinctElements numberValue vs = true →
        distinctElements numberValue ws = true ∧ sortedElements numberValue ws = some ws
  | [], _, h, _, _ => by
    rw [sortedElements] at h
    cases h
    exact ⟨rfl, rfl⟩
  | v :: vs, _, h, hplain, hdistinct => by
    obtain ⟨w, ws, hw, hws, rfl⟩ := sortedElements_cons h
    rw [plainElements, Bool.and_eq_true] at hplain
    rw [distinctElements, Bool.and_eq_true] at hdistinct
    obtain ⟨hhead, hhead'⟩ := sorted_again hw hplain.1 hdistinct.1
    obtain ⟨htail, htail'⟩ := sortedElements_again hws hplain.2 hdistinct.2
    rw [distinctElements, hhead, htail, sortedElements, hhead', htail']
    exact ⟨rfl, rfl⟩

theorem sortedMembers_again :
    ∀ {vs ws : List (Key × Value)}, sortedMembers numberValue vs = some ws → plainMembers vs = true →
      distinctMembers numberValue vs = true →
        ws.map (·.1) = vs.map (·.1) ∧
          ∀ w ∈ ws, w.2.distinct numberValue = true ∧ w.2.sorted numberValue = some w.2
  | [], _, h, _, _ => by
    rw [sortedMembers] at h
    cases h
    exact ⟨rfl, nofun⟩
  | (k, v) :: vs, _, h, hplain, hdistinct => by
    obtain ⟨w, ws, hw, hws, rfl⟩ := sortedMembers_cons h
    rw [plainMembers, Bool.and_eq_true, Bool.and_eq_true] at hplain
    rw [distinctMembers, Bool.and_eq_true] at hdistinct
    obtain ⟨hkeys, htail⟩ := sortedMembers_again hws hplain.2 hdistinct.2
    refine ⟨by rw [List.map_cons, List.map_cons, hkeys], ?_⟩
    rw [List.forall_mem_cons]
    exact ⟨sorted_again hw hplain.1.2 hdistinct.1, htail⟩

end

/-- **A JSON value read back from its canonical text has that canonical text.** -/
theorem canonical_ofJson (hplain : v.plain = true)
    (hdistinct : v.distinct numberValue = true) (h : v.canonical numberValue = some d) :
    (ofJson d).canonical numberValue = some d := by
  obtain ⟨w, hsorted, hfinite, rfl⟩ := canonical_eq_some.mp h
  obtain ⟨hdistinct', hagain⟩ := sorted_again hsorted hplain hdistinct
  rw [ofJson_toJson w hdistinct' ((sorted_spec hsorted).1.trans hplain)]
  exact canonical_eq_some.mpr ⟨w, hagain, hfinite, rfl⟩

end Value

end Python

end CyberControl
