import CyberControl.JsonNumbers
import CyberControl.PythonValues
import Mathlib.Data.List.DropRight

/-! # Records of the compliance module

`build_topic4_record` and `record_integrity_valid` (`verification/records.py`), and the records of
`liyans_contracts/topic4_c11.py`.  A record is its values with the digest of their dump; the digest is
taken before the values are validated, and validation strips every string. -/

namespace CyberControl.Compliance

open Python (Value)

/-! ### The platform -/

/-- `sha256` is that of the UTF-8 text, in hexadecimal digits; `numberValue` reads number texts; `jsonTime` is
the text of a `datetime` in a JSON dump; `reprOf` is `str` of a list or a dict; `jsonbNumber` is a
number as a `jsonb` column gives it back, which has no negative zero. -/
structure Platform where
  sha256 : List Char → String
  numberValue : NumberText → ℚ
  uuid5 : ℕ → String → ℕ
  uuidText : ℕ → String
  jsonTime : ℕ → String
  reprOf : Value → String
  jsonbNumber : NumberText → NumberText

/-! ### Texts -/

/-- White space, as the validation of contracts strips it. -/
def isWhiteSpace (c : Char) : Bool :=
  [0x9, 0xA, 0xB, 0xC, 0xD, 0x20, 0x85, 0xA0, 0x1680, 0x2000, 0x2001, 0x2002, 0x2003, 0x2004, 0x2005,
    0x2006, 0x2007, 0x2008, 0x2009, 0x200A, 0x2028, 0x2029, 0x202F, 0x205F, 0x3000].contains c.toNat

/-- White space of `str.strip`. -/
def isPythonSpace (c : Char) : Bool := isWhiteSpace c || [0x1C, 0x1D, 0x1E, 0x1F].contains c.toNat

def stripBy (isSpace : Char → Bool) (text : String) : String :=
  String.ofList ((text.toList.dropWhile isSpace).rdropWhile isSpace)

/-- `str_strip_whitespace` of `FROZEN_MODEL_CONFIG`. -/
def strip (text : String) : String := stripBy isWhiteSpace text

/-- No white space stands at either end. -/
def Trimmed (text : String) : Prop :=
  (∀ c ∈ text.toList.head?, isWhiteSpace c = false) ∧ ∀ c ∈ text.toList.getLast?, isWhiteSpace c = false

instance (text : String) : Decidable (Trimmed text) :=
  @instDecidableAnd _ _ (Option.decidableForallMem _) (Option.decidableForallMem _)

theorem dropWhile_of_head {l : List Char} {p : Char → Bool} (h : ∀ c ∈ l.head?, p c = false) :
    l.dropWhile p = l := by
  cases l with
  | nil => rfl
  | cons c l => rw [List.dropWhile_cons_of_neg (by rw [h c rfl]; exact Bool.false_ne_true)]

theorem Trimmed.strip_eq {text : String} (h : Trimmed text) : strip text = text := by
  unfold strip stripBy
  rw [dropWhile_of_head h.1, List.rdropWhile, dropWhile_of_head, List.reverse_reverse, String.ofList_toList]
  rw [List.head?_reverse]
  exact h.2

/-- `VersionString`. -/
def isVersionString (text : String) : Bool :=
  match text.toList with
  | [] => false
  | c :: cs => c.isAlphanum && cs.length ≤ 127 &&
      cs.all fun c => c.isAlphanum || ['.', '_', '/', '+', ':', '-'].contains c

theorem isWhiteSpace_range {c : Char} (h : isWhiteSpace c = true) : c.toNat ≤ 32 ∨ 133 ≤ c.toNat := by
  have hmem := List.contains_iff_mem.mp h
  simp only [List.mem_cons, List.not_mem_nil, or_false] at hmem
  omega

theorem trimmed_of_isVersionString {text : String} (h : isVersionString text = true) : Trimmed text := by
  have hnone : ∀ c ∈ text.toList, isWhiteSpace c = false := by
    unfold isVersionString at h
    split at h
    next hnil => cases h
    next c cs htext =>
      rw [htext]
      simp only [Bool.and_eq_true, List.all_eq_true, Bool.or_eq_true, List.contains_iff_mem] at h
      rw [List.forall_mem_cons]
      have halnum : ∀ c : Char, c.isAlphanum = true → isWhiteSpace c = false := by
        intro c hc
        by_contra hspace
        have hrange := isWhiteSpace_range (Bool.not_eq_false _ ▸ hspace)
        have := Json.isAlphanum_range hc
        omega
      refine ⟨halnum c h.1.1, fun d hd => ?_⟩
      rcases h.2 d hd with hd | hd
      · exact halnum d hd
      · simp only [List.mem_cons, List.not_mem_nil, or_false] at hd
        rcases hd with rfl | rfl | rfl | rfl | rfl | rfl <;> decide
  exact ⟨fun c hc => hnone c (List.mem_of_mem_head? hc), fun c hc => hnone c (List.mem_of_mem_getLast? hc)⟩

/-- `Sha256Hex`. -/
def isSha256Hex (text : String) : Bool :=
  text.length = 64 && text.toList.all fun c => c.isDigit || ('a' ≤ c && c ≤ 'f')

/-! ### Records -/

/-- The `ValidationError` that names the fields whose check fails. -/
def checkFields (fields : List (String × Bool)) : Except Exn Unit :=
  let failed := (fields.filter fun field => !field.2).map (·.1)
  if failed = [] then .ok () else .error (.validationError failed)

theorem checkFields_eq_ok {fields : List (String × Bool)} :
    checkFields fields = .ok () ↔ ∀ field ∈ fields, field.2 = true := by
  have hfailed : (fields.filter fun field => !field.2).map (·.1) = [] ↔
      ∀ field ∈ fields, field.2 = true := by
    simp
  unfold checkFields
  rw [← hfailed]
  exact ite_eq_ok

def byName (members : List (String × Json)) : List (String × Json) :=
  members.insertionSort fun a b => a.1 ≤ b.1

theorem mem_of_lookup {β : Type} {l : List (String × β)} {key : String} {b : β}
    (h : l.lookup key = some b) : (key, b) ∈ l := by
  obtain ⟨l₁, l₂, rfl, _⟩ := List.lookup_eq_some_iff.mp h
  exact List.mem_append_right _ List.mem_cons_self

theorem lookup_of_mem {β : Type} {l : List (String × β)} (h : (l.map (·.1)).Nodup) {key : String} {b : β}
    (hmem : (key, b) ∈ l) : l.lookup key = some b := by
  cases hlookup : l.lookup key with
  | none =>
    have hne := List.lookup_eq_none_iff.mp hlookup (key, b) hmem
    simp at hne
  | some c =>
    have hpair := List.inj_on_of_nodup_map h hmem (mem_of_lookup hlookup) rfl
    rw [(Prod.mk.inj hpair).2]

/-- A record: its values and their digest. -/
structure Record (α : Type) where
  values : α
  recordSha256 : String

/-- A record type: the dump of the values, and their validation. -/
structure RecordModel (α : Type) where
  members : α → List (String × Json)
  validate : α → Except Exn α

variable (py : Platform)

/-- `canonical_sha256` of a dump. -/
def dumpSha256 (members : List (String × Json)) : String :=
  py.sha256 (Json.object (byName members)).encode

namespace RecordModel

variable {α : Type} (model : RecordModel α)

/-- `build_topic4_record`. -/
def build (values : α) : Except Exn (Record α) := do
  let validated ← model.validate values
  return ⟨validated, dumpSha256 py (model.members values)⟩

/-- `record_integrity_valid`. -/
def integrityValid (record : Record α) : Bool :=
  record.recordSha256 = dumpSha256 py (model.members record.values)

/-- `record.model_dump(mode="json")`. -/
def json (record : Record α) : Json :=
  .object (byName (("record_sha256", .string record.recordSha256) :: model.members record.values))

variable {py model} {record : Record α} {values : α}

theorem build_eq_ok :
    model.build py values = .ok record ↔
      ∃ validated, model.validate values = .ok validated ∧
        record = ⟨validated, dumpSha256 py (model.members values)⟩ := by
  unfold build
  rw [bind_eq_ok]
  exact exists_congr fun _ => and_congr_right fun _ => ⟨fun h => (Except.ok.inj h).symm, fun h => h ▸ rfl⟩

theorem integrityValid_build (h : model.build py values = .ok record) :
    model.integrityValid py record = true ↔
      dumpSha256 py (model.members values) = dumpSha256 py (model.members record.values) := by
  obtain ⟨validated, _, rfl⟩ := build_eq_ok.mp h
  exact decide_eq_true_iff

theorem integrityValid_of_validate
    (h : model.build py values = .ok record) (hvalidate : model.validate values = .ok values) :
    model.integrityValid py record = true := by
  rw [integrityValid_build h]
  obtain ⟨validated, hvalidated, rfl⟩ := build_eq_ok.mp h
  rw [Except.ok.inj (hvalidate.symm.trans hvalidated)]

end RecordModel

/-! ### Dumps -/

def optionalText : Option String → Json
  | none => .null
  | some text => .string text

def natJson (n : ℕ) : Json := .number (Json.natText n)

def uuidJson (id : ℕ) : Json := .string (py.uuidText id)

/-- The fields of `Topic4RecordV1`, the digest apart. -/
structure Metadata where
  traceId : String
  tenantId : String
  versionCas : ℕ
  createdAt : ℕ

def Metadata.members (m : Metadata) (schemaVersion : String) : List (String × Json) :=
  [("trace_id", .string m.traceId), ("tenant_id", .string m.tenantId),
    ("version_cas", natJson m.versionCas), ("created_at", .string (py.jsonTime m.createdAt)),
    ("immutable", .bool true), ("schema_version", .string schemaVersion)]

/-- The fields of a record that only its dump reads. -/
abbrev OtherFields := List (String × Json)

/-! ### The records -/

inductive FindingSeverity where
  | INFO
  | LOW
  | MEDIUM
  | HIGH
  | CRITICAL

def FindingSeverity.value : FindingSeverity → String
  | .INFO => "INFO"
  | .LOW => "LOW"
  | .MEDIUM => "MEDIUM"
  | .HIGH => "HIGH"
  | .CRITICAL => "CRITICAL"

inductive VulnerabilityStatus where
  | OPEN
  | NOT_AFFECTED
  | MITIGATED
  | FIXED
  | ACCEPTED_RISK
deriving DecidableEq, Repr

def VulnerabilityStatus.value : VulnerabilityStatus → String
  | .OPEN => "OPEN"
  | .NOT_AFFECTED => "NOT_AFFECTED"
  | .MITIGATED => "MITIGATED"
  | .FIXED => "FIXED"
  | .ACCEPTED_RISK => "ACCEPTED_RISK"

/-- `ArtifactObjectRefV1` of a JSON document in the namespace `verification-artifacts`. -/
structure ArtifactObjectRef where
  objectKey : String
  byteSize : ℕ
  sha256 : String
  createdAt : ℕ

def ArtifactObjectRef.json (ref : ArtifactObjectRef) : Json :=
  .object (byName
    [("schema_version", .string "artifact.object.ref.v1"),
      ("storage_namespace", .string "verification-artifacts"), ("object_key", .string ref.objectKey),
      ("media_type", .string "application/json"), ("content_encoding", .string "identity"),
      ("byte_size", natJson ref.byteSize), ("sha256", .string ref.sha256),
      ("created_at", .string (py.jsonTime ref.createdAt))])

/-- `SBOMComponentV1`. -/
structure SBOMComponent where
  metadata : Metadata
  componentId : ℕ
  name : String
  version : String
  packageUrl : Option String
  licenses : List String
  componentSha256 : Option String

def SBOMComponent.stripped (c : SBOMComponent) : SBOMComponent :=
  { c with
    name := strip c.name
    version := strip c.version
    packageUrl := c.packageUrl.map strip
    licenses := c.licenses.map strip
    componentSha256 := c.componentSha256.map strip }

def sbomComponent : RecordModel SBOMComponent where
  members c := c.metadata.members py "sbom-component.v1" ++
    [("component_id", uuidJson py c.componentId), ("name", .string c.name), ("version", .string c.version),
      ("package_url", optionalText c.packageUrl), ("licenses", .array (c.licenses.map .string)),
      ("component_sha256", optionalText c.componentSha256)]
  validate c := do
    let c := c.stripped
    checkFields
      [("name", 1 ≤ c.name.length && c.name.length ≤ 512),
        ("version", 1 ≤ c.version.length && c.version.length ≤ 256),
        ("package_url", c.packageUrl.all (·.length ≤ 2048)), ("licenses", c.licenses.length ≤ 64),
        ("component_sha256", c.componentSha256.all isSha256Hex)]
    return c

/-- `SBOMManifestV1`. -/
structure SBOMManifest where
  metadata : Metadata
  sbomManifestId : ℕ
  codeArtifactId : ℕ
  specVersion : String
  serialNumber : String
  components : List (Record SBOMComponent)
  sbomArtifact : ArtifactObjectRef
  sbomSha256 : String

def SBOMManifest.stripped (m : SBOMManifest) : SBOMManifest :=
  { m with specVersion := strip m.specVersion, serialNumber := strip m.serialNumber }

def sbomManifest : RecordModel SBOMManifest where
  members m := m.metadata.members py "sbom-manifest.v1" ++
    [("sbom_manifest_id", uuidJson py m.sbomManifestId),
      ("code_artifact_id", uuidJson py m.codeArtifactId), ("format", .string "CYCLONEDX_JSON"),
      ("spec_version", .string m.specVersion), ("serial_number", .string m.serialNumber),
      ("components", .array (m.components.map (sbomComponent py).json)),
      ("sbom_artifact", m.sbomArtifact.json py), ("sbom_sha256", .string m.sbomSha256)]
  validate m := do
    let m := m.stripped
    checkFields
      [("spec_version", isVersionString m.specVersion),
        ("serial_number", 1 ≤ m.serialNumber.length && m.serialNumber.length ≤ 256),
        ("components", m.components.length ≤ 65536)]
    return m

/-- `VulnerabilityRecordV1`. -/
structure VulnerabilityRecord where
  metadata : Metadata
  vulnerabilityRecordId : ℕ
  sbomManifestId : ℕ
  componentId : ℕ
  advisoryId : String
  severity : FindingSeverity
  cvssScore : Option NumberText
  affectedRange : Option String
  fixedVersion : Option String
  status : VulnerabilityStatus
  nonWaivable : Bool

/-- Every text comes from a validated record, whose fields have the same checks. -/
def vulnerabilityRecord : RecordModel VulnerabilityRecord where
  members v := v.metadata.members py "vulnerability-record.v1" ++
    [("vulnerability_record_id", uuidJson py v.vulnerabilityRecordId),
      ("sbom_manifest_id", uuidJson py v.sbomManifestId), ("component_id", uuidJson py v.componentId),
      ("advisory_id", .string v.advisoryId), ("severity", .string v.severity.value),
      ("cvss_score", v.cvssScore.elim .null .number), ("affected_range", optionalText v.affectedRange),
      ("fixed_version", optionalText v.fixedVersion), ("status", .string v.status.value),
      ("non_waivable", .bool v.nonWaivable)]
  validate := .ok

/-- `BuildProvenanceV1`. -/
structure BuildProvenance where
  metadata : Metadata
  buildProvenanceId : ℕ
  codeArtifactId : ℕ
  builderId : String
  builderVersion : String
  toolchainManifestVersion : String
  sourceSha256 : String
  buildOutputArtifact : ArtifactObjectRef
  buildOutputSha256 : String
  sbomManifestId : ℕ
  sandboxPolicyId : ℕ
  reproducible : Bool
  buildCommandSha256 : String

/-- Every text comes from a validated record, whose fields have the same checks. -/
def buildProvenance : RecordModel BuildProvenance where
  members p := p.metadata.members py "build-provenance.v1" ++
    [("build_provenance_id", uuidJson py p.buildProvenanceId),
      ("code_artifact_id", uuidJson py p.codeArtifactId), ("builder_id", .string p.builderId),
      ("builder_version", .string p.builderVersion),
      ("toolchain_manifest_version", .string p.toolchainManifestVersion),
      ("source_sha256", .string p.sourceSha256),
      ("build_output_artifact", p.buildOutputArtifact.json py),
      ("build_output_sha256", .string p.buildOutputSha256),
      ("sbom_manifest_id", uuidJson py p.sbomManifestId),
      ("sandbox_policy_id", uuidJson py p.sandboxPolicyId), ("reproducible", .bool p.reproducible),
      ("build_command_sha256", .string p.buildCommandSha256)]
  validate := .ok

/-- `EvidenceRefV1`. -/
structure EvidenceRef where
  metadata : Metadata
  evidenceRefId : ℕ
  verificationId : ℕ
  claimId : ℕ
  others : OtherFields

def evidenceRef : RecordModel EvidenceRef where
  members e := e.metadata.members py "evidence.ref.v1" ++
    [("evidence_ref_id", uuidJson py e.evidenceRefId), ("verification_id", uuidJson py e.verificationId),
      ("claim_id", uuidJson py e.claimId)] ++ e.others
  validate := .ok

/-- `CodeArtifactV1`. -/
structure CodeArtifact where
  metadata : Metadata
  codeArtifactId : ℕ
  verificationId : ℕ
  claimId : ℕ
  sourceSha256 : String
  others : OtherFields

def codeArtifact : RecordModel CodeArtifact where
  members a := a.metadata.members py "code-artifact.v1" ++
    [("code_artifact_id", uuidJson py a.codeArtifactId), ("verification_id", uuidJson py a.verificationId),
      ("claim_id", uuidJson py a.claimId), ("source_sha256", .string a.sourceSha256)] ++ a.others
  validate := .ok

/-- `ComplianceEvidencePackageV1`. -/
structure EvidencePackage where
  metadata : Metadata
  complianceEvidencePackageId : ℕ
  importCommandId : ℕ
  verificationId : ℕ
  claimId : ℕ
  codeArtifact : Record CodeArtifact
  sbomManifest : Record SBOMManifest
  vulnerabilities : List (Record VulnerabilityRecord)
  provenance : Record BuildProvenance
  evidenceRefs : List (Record EvidenceRef)
  policyVersion : String
  expiresAt : ℕ

/-- `validate_package_expiry`. -/
def EvidencePackage.bound (p : EvidencePackage) : Except Exn Unit := do
  ensure (p.metadata.createdAt < p.expiresAt)
    (.valueError "compliance evidence package expiry must follow creation")
  ensure (p.codeArtifact.values.verificationId = p.verificationId ∧
      p.codeArtifact.values.claimId = p.claimId ∧
      p.sbomManifest.values.codeArtifactId = p.codeArtifact.values.codeArtifactId ∧
      p.provenance.values.codeArtifactId = p.codeArtifact.values.codeArtifactId ∧
      p.provenance.values.sbomManifestId = p.sbomManifest.values.sbomManifestId)
    (.valueError "compliance evidence package records are not consistently bound")

def evidencePackage : RecordModel EvidencePackage where
  members p := p.metadata.members py "compliance-evidence.package.v1" ++
    [("compliance_evidence_package_id", uuidJson py p.complianceEvidencePackageId),
      ("import_command_id", uuidJson py p.importCommandId),
      ("verification_id", uuidJson py p.verificationId), ("claim_id", uuidJson py p.claimId),
      ("code_artifact", (codeArtifact py).json p.codeArtifact),
      ("sbom_manifest", (sbomManifest py).json p.sbomManifest),
      ("vulnerabilities", .array (p.vulnerabilities.map (vulnerabilityRecord py).json)),
      ("provenance", (buildProvenance py).json p.provenance),
      ("evidence_refs", .array (p.evidenceRefs.map (evidenceRef py).json)),
      ("policy_version", .string p.policyVersion), ("expires_at", .string (py.jsonTime p.expiresAt))]
  validate p := do
    let p := { p with policyVersion := strip p.policyVersion }
    checkFields
      [("policy_version", isVersionString p.policyVersion),
        ("vulnerabilities", p.vulnerabilities.length ≤ 65536), ("evidence_refs", p.evidenceRefs.length ≤ 512)]
    p.bound
    return p

variable {py}

theorem evidencePackage_validate {p q : EvidencePackage} (h : (evidencePackage py).validate p = .ok q) :
    q = { p with policyVersion := strip p.policyVersion } ∧ p.bound = .ok () ∧
      (evidencePackage py).validate q = .ok q := by
  simp only [evidencePackage, unit_bind_eq_ok] at h
  obtain ⟨hchecks, hbound, hq⟩ := h
  cases hq
  refine ⟨rfl, hbound, ?_⟩
  have hversion : isVersionString (strip p.policyVersion) = true := by
    have hall := checkFields_eq_ok.mp hchecks
    exact hall _ List.mem_cons_self
  simp only [evidencePackage, unit_bind_eq_ok, (trimmed_of_isVersionString hversion).strip_eq]
  exact ⟨hchecks, hbound, rfl⟩

theorem sbomManifest_validate {m n : SBOMManifest} (h : (sbomManifest py).validate m = .ok n) :
    n = m.stripped := by
  simp only [sbomManifest, unit_bind_eq_ok] at h
  exact (Except.ok.inj h.2).symm

theorem sbomComponent_validate {c d : SBOMComponent} (h : (sbomComponent py).validate c = .ok d) :
    d = c.stripped := by
  simp only [sbomComponent, unit_bind_eq_ok] at h
  exact (Except.ok.inj h.2).symm

end CyberControl.Compliance
