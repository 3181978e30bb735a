import CyberControl.ClaimExtraction
import CyberControl.JsonNumbers
import CyberControl.SecurityDetector

/-! # Completeness of the security block

Which candidates the detector blocks. -/

namespace CyberControl.Security

open ClaimExtraction (memberPointer elementPointer)

/-! ### Strings of a document -/

/-- A string value of a document. -/
inductive ValueAt : Json → String → Prop
  | string (text : String) : ValueAt (.string text) text
  | element {elements : List Json} {e : Json} {text : String} (he : e ∈ elements) (h : ValueAt e text) :
      ValueAt (.array elements) text
  | member {members : List (String × Json)} {key : String} {v : Json} {text : String}
      (hv : (key, v) ∈ members) (h : ValueAt v text) : ValueAt (.object members) text

/-- A string of a document, be it a value or a key. -/
inductive TextAt : Json → String → Prop
  | string (text : String) : TextAt (.string text) text
  | element {elements : List Json} {e : Json} {text : String} (he : e ∈ elements) (h : TextAt e text) :
      TextAt (.array elements) text
  | member {members : List (String × Json)} {key : String} {v : Json} {text : String}
      (hv : (key, v) ∈ members) (h : TextAt v text) : TextAt (.object members) text
  | key {members : List (String × Json)} {key : String} {v : Json} (hv : (key, v) ∈ members) :
      TextAt (.object members) key

variable {text : String}

theorem exists_mem_walkElements {elements : List Json} {e : Json} (he : e ∈ elements)
    (h : ∀ path, ∃ p, (p, Json.string text) ∈ walk path e) (path : List Char) (index : ℕ) :
    ∃ p, (p, Json.string text) ∈ walkElements path index elements := by
  induction elements generalizing index with
  | nil => cases he
  | cons v elements ih =>
    rw [walkElements]
    rcases List.mem_cons.mp he with rfl | he
    · obtain ⟨p, hp⟩ := h (elementPointer path index)
      exact ⟨p, List.mem_append_left _ hp⟩
    · obtain ⟨p, hp⟩ := ih he (index + 1)
      exact ⟨p, List.mem_append_right _ hp⟩

theorem exists_mem_walkMembers {members : List (String × Json)} {key : String} {v : Json}
    (hv : (key, v) ∈ members) (h : ∀ path, ∃ p, (p, Json.string text) ∈ walk path v)
    (path : List Char) : ∃ p, (p, Json.string text) ∈ walkMembers path members := by
  induction members with
  | nil => cases hv
  | cons member members ih =>
    rw [walkMembers]
    rcases List.mem_cons.mp hv with rfl | hv
    · obtain ⟨p, hp⟩ := h (memberPointer path key.toList)
      exact ⟨p, List.mem_append_left _ hp⟩
    · obtain ⟨p, hp⟩ := ih hv
      exact ⟨p, List.mem_append_right _ hp⟩

theorem exists_mem_walk {v : Json} (h : ValueAt v text) (path : List Char) :
    ∃ p, (p, Json.string text) ∈ walk path v := by
  induction h generalizing path with
  | string text => exact ⟨_, List.mem_singleton_self _⟩
  | element he _ ih =>
    rw [walk]
    exact exists_mem_walkElements he ih path 0
  | member hv _ ih =>
    rw [walk]
    exact exists_mem_walkMembers hv ih path

mutual

theorem valueAt_of_walk {path p : List Char} :
    (v : Json) → (p, Json.string text) ∈ walk path v → ValueAt v text
  | .object members, h => by
    obtain ⟨key, v, hv, h⟩ := valueAt_of_walkMembers members h
    exact .member hv h
  | .array elements, h => by
    obtain ⟨e, he, h⟩ := valueAt_of_walkElements elements h
    exact .element he h
  | .string s, h => by
    obtain ⟨_, hvalue⟩ := Prod.mk.inj (List.mem_singleton.mp h)
    cases hvalue
    exact .string _
  | .null, h | .bool _, h | .number _, h | .nonFinite, h => by
    obtain ⟨_, hvalue⟩ := Prod.mk.inj (List.mem_singleton.mp h)
    cases hvalue

theorem valueAt_of_walkMembers {path p : List Char} :
    (members : List (String × Json)) → (p, Json.string text) ∈ walkMembers path members →
      ∃ key v, (key, v) ∈ members ∧ ValueAt v text
  | [], h => by cases h
  | (key, v) :: members, h => by
    rw [walkMembers] at h
    rcases List.mem_append.mp h with h | h
    · exact ⟨key, v, List.mem_cons_self .., valueAt_of_walk v h⟩
    · obtain ⟨key', v', hv, h⟩ := valueAt_of_walkMembers members h
      exact ⟨key', v', List.mem_cons_of_mem _ hv, h⟩

theorem valueAt_of_walkElements {path p : List Char} {index : ℕ} :
    (elements : List Json) → (p, Json.string text) ∈ walkElements path index elements →
      ∃ e ∈ elements, ValueAt e text
  | [], h => by cases h
  | v :: elements, h => by
    rw [walkElements] at h
    rcases List.mem_append.mp h with h | h
    · exact ⟨v, List.mem_cons_self .., valueAt_of_walk v h⟩
    · obtain ⟨e, he, h⟩ := valueAt_of_walkElements elements h
      exact ⟨e, List.mem_cons_of_mem _ he, h⟩

end

/-! ### Texts -/

/-- A pattern of some family is found in the text. -/
def FamilyIn (text : List Char) (family : Family) : Prop :=
  ∃ pattern ∈ family.patterns, pattern.2.MatchesIn text

/-- The text refers to a foreign tenant. -/
def ForeignIn (db : Unicode.Database) (tenantId : String) (text : List Char) : Prop :=
  ∃ tenant, (tenantKey db).GroupIn tenantName text tenant ∧ tenant ≠ tenantId.toList

/-- A pattern for credentials, malware, exfiltration or prompt injection is found in the text, or it refers
to a foreign tenant. -/
def Dangerous (db : Unicode.Database) (tenantId : String) (text : List Char) : Prop :=
  (∃ family ∈ families db, family.category ≠ .contentPolicy ∧ FamilyIn text family) ∨
    ForeignIn db tenantId text

namespace Detector
variable {detector : Detector} {tenantId : String}

/-- What the scan sees in a text: a pattern of any family, or a reference to a foreign tenant that no
reference to the own tenant overlaps. -/
def Alarms (detector : Detector) (tenantId : String) (text : List Char) : Prop :=
  (∃ family ∈ families detector.db, FamilyIn text family) ∨
    ∃ tenant ∈ detector.tenants text, tenant ≠ tenantId.toList

theorem scanText_ne_nil {text path : List Char} : detector.scanText text path ≠ [] ↔
    ∃ family ∈ families detector.db, FamilyIn text family := by
  unfold scanText
  rw [Ne, List.flatMap_eq_nil_iff]
  push Not
  refine exists_congr fun family => and_congr_right fun _ => ?_
  rw [Ne, List.filterMap_eq_nil_iff]
  push Not
  refine exists_congr fun pattern => and_congr_right fun _ => ?_
  rw [Option.ne_none_iff_isSome, Option.isSome_map, Pattern.search_isSome]

theorem scanTenantReference_ne_nil {text path : List Char} :
    detector.scanTenantReference text path tenantId ≠ [] ↔
      ∃ tenant ∈ detector.tenants text, tenant ≠ tenantId.toList := by
  unfold scanTenantReference
  split
  next hnone =>
    refine iff_of_false (fun h => h rfl) ?_
    rintro ⟨tenant, hmem, hne⟩
    exact List.find?_eq_none.mp hnone tenant hmem (decide_eq_true hne)
  next tenant hsome =>
    exact iff_of_true (List.cons_ne_nil _ _)
      ⟨tenant, List.mem_of_find?_eq_some hsome, by simpa using List.find?_some hsome⟩

/-! ### The scan -/

def leafAlarms (detector : Detector) (tenantId : String) (leaf : List Char × Json) : Prop :=
  detector.scanLeaf tenantId leaf ≠ []

theorem leafAlarms_iff {leaf : List Char × Json} : detector.leafAlarms tenantId leaf ↔
    ∃ text, leaf.2 = .string text ∧ detector.Alarms tenantId (detector.cut text) := by
  obtain ⟨path, v⟩ := leaf
  cases v with
  | string text =>
    rw [leafAlarms, scanLeaf, Ne, List.append_eq_nil_iff, not_and_or, ← Ne, ← Ne, scanText_ne_nil,
      scanTenantReference_ne_nil]
    constructor
    · intro h
      exact ⟨text, rfl, h⟩
    · rintro ⟨_, htext, h⟩
      cases htext
      exact h
  | null | bool | number | nonFinite | array | object =>
    refine iff_of_false (fun h => h rfl) ?_
    rintro ⟨_, htext, _⟩
    cases htext

theorem take_ne_nil {collected : List SecurityMatch} :
    collected.take detector.maxMatches ≠ [] ↔ collected ≠ [] := by
  have hbounds := detector.maxMatches_bounds
  rw [Ne, List.take_eq_nil_iff, not_or]
  exact and_iff_right (by omega)

/-- **The loop** ends with a match exactly when it has one or some leaf alarms. -/
theorem scanFrom_ne_nil {collected : List SecurityMatch} {leaves : List (List Char × Json)} :
    detector.scanFrom tenantId collected leaves ≠ [] ↔
      collected ≠ [] ∨ ∃ leaf ∈ leaves, detector.leafAlarms tenantId leaf := by
  induction leaves generalizing collected with
  | nil =>
    rw [scanFrom, take_ne_nil]
    exact (or_iff_left (by rintro ⟨_, hleaf, _⟩; cases hleaf)).symm
  | cons leaf leaves ih =>
    rw [scanFrom]
    split_ifs with hfull
    · have hbounds := detector.maxMatches_bounds
      have hcollected : collected ≠ [] := by
        rintro rfl
        rw [List.length_nil] at hfull
        omega
      rw [take_ne_nil]
      exact iff_of_true hcollected (Or.inl hcollected)
    · rw [ih, Ne, List.append_eq_nil_iff, not_and_or, or_assoc]
      refine or_congr Iff.rfl ?_
      simp only [List.mem_cons, exists_eq_or_imp]
      rfl

variable (detector tenantId) in
/-- The beginning of some string value alarms. -/
def Seen (candidate : Candidate) : Prop :=
  ∃ text, ValueAt (.object candidate) text ∧ detector.Alarms tenantId (detector.cut text)

theorem scan_ne_nil_iff (candidate : Candidate) :
    detector.scan candidate tenantId ≠ [] ↔ detector.Seen tenantId candidate := by
  rw [scan, scanFrom_ne_nil, or_iff_right (fun h => h rfl)]
  constructor
  · rintro ⟨⟨path, v⟩, hleaf, halarms⟩
    obtain ⟨text, htext, hseen⟩ := leafAlarms_iff.mp halarms
    cases htext
    exact ⟨text, valueAt_of_walk _ hleaf, hseen⟩
  · rintro ⟨text, hvalue, halarms⟩
    obtain ⟨p, hp⟩ := exists_mem_walk hvalue []
    exact ⟨_, hp, leafAlarms_iff.mpr ⟨text, rfl, halarms⟩⟩

end Detector

/-! ### The handler -/

theorem verdict_unsafe_iff (findings : List SecurityFinding) :
    (verdict findings).1 = .UNSAFE ↔ findings ≠ [] := by
  unfold verdict
  split_ifs with hnone hwaivable
  · exact iff_of_false nofun (fun h => h hnone)
  · exact iff_of_true rfl hnone
  · exact iff_of_true rfl hnone

section handler
variable {detector : Detector} {tenantId : String}

theorem verify_iff {candidate : Candidate} {evidence : List ℕ} (hevidence : evidence ≠ []) :
    verify detector tenantId tenantId (.ok ⟨some candidate, evidence⟩) = .UNSAFE ↔
      detector.scan candidate tenantId ≠ [] := by
  unfold verify
  rw [if_neg (not_not_intro rfl)]
  dsimp only
  rw [if_neg hevidence, verdict_unsafe_iff, Ne, List.map_eq_nil_iff]

variable (detector tenantId) in
/-- Some string of the candidate is dangerous. -/
def Candidate.Dangerous (candidate : Candidate) : Prop :=
  ∃ text, TextAt (.object candidate) text ∧ Security.Dangerous detector.db tenantId text.toList

/-- **Exactly when blocking is complete.**  A candidate with a dangerous string is scanned with a match and
answered with `UNSAFE`, exactly when the beginning of some string value alarms in case it has one. -/
theorem dangerous_blocked_iff (detector : Detector) (tenantId : String) (candidate : Candidate) :
    (Candidate.Dangerous detector tenantId candidate → detector.scan candidate tenantId ≠ [] ∧
        ∀ evidence, evidence ≠ [] →
          verify detector tenantId tenantId (.ok ⟨some candidate, evidence⟩) = .UNSAFE) ↔
      (Candidate.Dangerous detector tenantId candidate → detector.Seen tenantId candidate) := by
  refine imp_congr_right fun _ => ?_
  rw [Detector.scan_ne_nil_iff]
  refine and_iff_left_of_imp fun hseen evidence hevidence => ?_
  rw [verify_iff hevidence, Detector.scan_ne_nil_iff]
  exact hseen

end handler

/-! ### A password in a key -/

theorem defaultMatches_bounds : 1 ≤ 256 ∧ 256 ≤ 4096 := by decide

theorem defaultStringLength_bounds : 1 ≤ 32768 ∧ 32768 ≤ 1000000 := by decide

/-- The default limits, with a fingerprint that tells nothing. -/
def sampleDetector : Detector where
  db := Unicode.Standard.asciiOnly
  fingerprint _ _ := "0"
  maxMatches := 256
  maxStringLength := 32768
  maxMatches_bounds := defaultMatches_bounds
  maxStringLength_bounds := defaultStringLength_bounds

def candidateOf (content : List (String × Json)) : Candidate :=
  [("schema_version", .string "topic3.candidate.v1"), ("candidate_id", .string "c-1"),
    ("candidate_version", .number (Json.natText 1)), ("parent_candidate_version", .null),
    ("resource_type", .string "LECTURE_DOC"),
    ("blocks", .array
      [.object [("block_id", .string "b-1"), ("block_type", .string "PARAGRAPH"), ("title", .null),
        ("ordinal", .number (Json.natText 0)), ("content", .object content)]]),
    ("provenance", .object [("agent", .string "LECTURE_AGENT"), ("provider_alias", .string "local")])]

theorem textAt_candidateOf {content : List (String × Json)}
    (h : TextAt (.object content) text) : TextAt (.object (candidateOf content)) text := by
  refine @TextAt.member _ "blocks" (.array [_]) _ (by simp [candidateOf]; rfl) ?_
  refine .element (List.mem_singleton_self _) ?_
  exact @TextAt.member _ "content" (.object content) _ (by simp) h

/-- A block that gives a password as a key. -/
def keyedCandidate : Candidate := candidateOf [("password=hunter2hunter2", .string "x")]

/-- **A password in a key is not seen.** -/
theorem credential_in_key :
    Candidate.Dangerous sampleDetector "t" keyedCandidate ∧
      verify sampleDetector "t" "t" (.ok ⟨some keyedCandidate, [1]⟩) = .SUPPORTED := by
  have hkey : TextAt (.object [("password=hunter2hunter2", .string "x")]) "password=hunter2hunter2" :=
    .key (List.mem_singleton_self _)
  have hcredential : ("C9_EXPOSED_ASSIGNMENT", _) ∈ credentialPatterns sampleDetector.db :=
    List.mem_of_getElem? (i := 4) rfl
  refine ⟨⟨_, textAt_candidateOf hkey, Or.inl ⟨_, List.mem_of_getElem? (i := 1) rfl, nofun, _, hcredential,
    ?_⟩⟩, ?_⟩
  · exact (Pattern.search_isSome _ _).mp (by decide +kernel)
  · decide +kernel

end CyberControl.Security
