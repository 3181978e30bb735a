import CyberControl.Collections
import CyberControl.ComplianceRecords
import CyberControl.Transition

/-! # Import of compliance evidence

`ComplianceEvidenceService.import_package` with `_build_package` (`compliance/service.py`), the artifact store
that it writes to (`FileSystemArtifactObjectStore`) and the tables of C11 with their unique constraints
(`compliance/models.py`), for one tenant: row level security hides all other rows.

Calls are atomic: `_build_package` reads the clock, and the transaction is serializable. -/

namespace CyberControl.Compliance

open Python (Key Value)
open Collections

/-! ### Commands -/

/-- A JSON object: no tuples, and no two keys of a dict are equal. -/
structure Document (py : Platform) where
  members : List (Key × Value)
  plain : (Value.dict members).plain = true
  distinct : (Value.dict members).distinct py.numberValue = true

/-- `ComplianceVulnerabilityInputV1`. -/
structure VulnerabilityInput where
  componentBomRef : String
  advisoryId : String
  severity : FindingSeverity
  cvssScore : Option NumberText
  affectedRange : Option String
  fixedVersion : Option String
  status : VulnerabilityStatus
  nonWaivable : Bool

/-- `ComplianceBuildProvenanceInputV1`. -/
structure BuildProvenanceInput (py : Platform) where
  builderId : String
  builderVersion : String
  toolchainManifestVersion : String
  sourceSha256 : String
  buildOutputDocument : Document py
  sandboxPolicyId : ℕ
  reproducible : Bool
  buildCommandSha256 : String

/-- `ComplianceEvidenceImportCommandV1`. -/
structure ImportCommand (py : Platform) where
  metadata : Metadata
  recordSha256 : String
  importCommandId : ℕ
  verificationId : ℕ
  claimId : ℕ
  sbomDocument : Document py
  vulnerabilityRecords : List VulnerabilityInput
  provenanceDocument : BuildProvenanceInput py
  idempotencyKeySha256 : String

/-- The fields of `ClaimV1` that C11 reads. -/
structure Claim where
  tenantId : String
  traceId : String
  verificationId : ℕ
  claimId : ℕ

/-- What `_load_code_authority` returns: it checks that the artifact is of the claim, and takes only the
evidence of the claim. -/
structure Authority where
  claim : Claim
  codeArtifact : Record CodeArtifact
  evidence : List (Record EvidenceRef)
  codeArtifact_bound : codeArtifact.values.metadata.tenantId = claim.tenantId ∧
    codeArtifact.values.verificationId = claim.verificationId ∧ codeArtifact.values.claimId = claim.claimId
  evidence_bound : ∀ item ∈ evidence, item.values.metadata.tenantId = claim.tenantId ∧
    item.values.metadata.traceId = claim.traceId ∧
    item.values.verificationId = claim.verificationId ∧ item.values.claimId = claim.claimId

structure TenantContext where
  tenantId : String
  traceId : String

/-- `ComplianceBuilderPolicy`, and the size that the artifact store takes. -/
structure Settings where
  policyVersion : String
  maxEvidenceAgeSeconds : ℕ
  builders : List (String × String × String)
  maxObjectBytes : ℕ

section dumps

variable (py : Platform)

def optionalValue : Option String → Value
  | none => .none
  | some text => .str text

def VulnerabilityInput.dump (v : VulnerabilityInput) : Value :=
  .dict
    [(.str "component_bom_ref", .str v.componentBomRef), (.str "advisory_id", .str v.advisoryId),
      (.str "severity", .str v.severity.value), (.str "cvss_score", v.cvssScore.elim .none .number),
      (.str "affected_range", optionalValue v.affectedRange),
      (.str "fixed_version", optionalValue v.fixedVersion), (.str "status", .str v.status.value),
      (.str "non_waivable", .bool v.nonWaivable)]

variable {py}

def BuildProvenanceInput.dump (p : BuildProvenanceInput py) : Value :=
  .dict
    [(.str "builder_id", .str p.builderId), (.str "builder_version", .str p.builderVersion),
      (.str "toolchain_manifest_version", .str p.toolchainManifestVersion),
      (.str "source_sha256", .str p.sourceSha256),
      (.str "build_output_document", .dict p.buildOutputDocument.members),
      (.str "sandbox_policy_id", .str (py.uuidText p.sandboxPolicyId)),
      (.str "reproducible", .bool p.reproducible),
      (.str "build_command_sha256", .str p.buildCommandSha256)]

/-- `command.model_dump(mode="json", exclude={"record_sha256"})`. -/
def ImportCommand.dump (command : ImportCommand py) : Value :=
  .dict
    [(.str "trace_id", .str command.metadata.traceId), (.str "tenant_id", .str command.metadata.tenantId),
      (.str "version_cas", .number (Json.natText command.metadata.versionCas)),
      (.str "created_at", .str (py.jsonTime command.metadata.createdAt)), (.str "immutable", .bool true),
      (.str "schema_version", .str "compliance-evidence-import.command.v1"),
      (.str "import_command_id", .str (py.uuidText command.importCommandId)),
      (.str "verification_id", .str (py.uuidText command.verificationId)),
      (.str "claim_id", .str (py.uuidText command.claimId)),
      (.str "sbom_document", .dict command.sbomDocument.members),
      (.str "vulnerability_records", .list (command.vulnerabilityRecords.map (·.dump))),
      (.str "provenance_document", command.provenanceDocument.dump),
      (.str "idempotency_key_sha256", .str command.idempotencyKeySha256)]

/-- `_idempotency_document`, in the request of `COMPLIANCE_OPERATION`. -/
def ImportCommand.request (command : ImportCommand py) (tenantId : String) : Value :=
  .dict
    [(.str "operation", .str "topic4.compliance.import"),
      (.str "request", .dict
        [(.str "tenant_id", .str tenantId),
          (.str "verification_id", .str (py.uuidText command.verificationId)),
          (.str "claim_id", .str (py.uuidText command.claimId)),
          (.str "sbom_document", .dict command.sbomDocument.members),
          (.str "vulnerability_records", .list (command.vulnerabilityRecords.map (·.dump))),
          (.str "provenance_document", command.provenanceDocument.dump)])]

variable (py)

/-- The text of `json.dumps(value, sort_keys=True, allow_nan=False)`. -/
def dumps (value : Value) : Except Exn (List Char) :=
  match value.canonical py.numberValue with
  | some document => .ok document.encode
  | none => .error (.valueError "Out of range float values are not JSON compliant")

def canonicalSha256 (value : Value) : Except Exn String := do
  let text ← dumps py value
  return py.sha256 text

end dumps

/-! ### The artifact store -/

/-- The objects of the tenant in the namespace `verification-artifacts`, by their keys. -/
abbrev Objects := List (String × List Char)

section store

/-- `len(text.encode("utf-8"))`. -/
def byteSize (text : List Char) : ℕ := text.foldl (fun size c => size + c.utf8Size) 0

variable (py : Platform) (settings : Settings)

def put (objects : Objects) (objectKey : String) (content : List Char) : Except Exn Objects :=
  if byteSize content = 0 ∨ settings.maxObjectBytes < byteSize content then
    .error (.other "ARTIFACT_PATH_INVALID")
  else
    match objects.lookup objectKey with
    | none => .ok (objects ++ [(objectKey, content)])
    | some existing =>
      if byteSize existing ≠ byteSize content ∨ py.sha256 existing ≠ py.sha256 content then
        .error (.other "ARTIFACT_CONFLICT")
      else .ok objects

def read (objects : Objects) (ref : ArtifactObjectRef) : Except Exn (List Char) :=
  if ref.byteSize < 1 then .error (.other "ARTIFACT_INTEGRITY_FAILED")
  else
    match objects.lookup ref.objectKey with
    | none => .error (.other "ARTIFACT_NOT_FOUND")
    | some content =>
      if byteSize content ≠ ref.byteSize ∨ py.sha256 content ≠ ref.sha256 then
        .error (.other "ARTIFACT_INTEGRITY_FAILED")
      else .ok content

def storeJson (objects : Objects) (objectKey : String) (document : Document py) (createdAt : ℕ) :
    Except Exn (Objects × ArtifactObjectRef) := do
  let content ← dumps py (.dict document.members)
  let objects ← put py settings objects objectKey content
  return (objects, ⟨objectKey, byteSize content, py.sha256 content, createdAt⟩)

end store

/-! ### Reading the SBOM -/

section sbom

variable (py : Platform)

/-- `str(value)`. -/
def pyStr : Value → String
  | .none => "None"
  | .bool true => "True"
  | .bool false => "False"
  | .number n => String.ofList n.text
  | .nonFinite => "nan"
  | .str s => s
  | v => py.reprOf v

/-- `bool(value)`. -/
def truthy : Value → Bool
  | .none => false
  | .bool b => b
  | .number n => py.numberValue n ≠ 0
  | .nonFinite => true
  | .str s => s ≠ ""
  | .list elements => !elements.isEmpty
  | .tuple elements => !elements.isEmpty
  | .dict members => !members.isEmpty

/-- `raw.get(key)`. -/
def item (members : List (Key × Value)) (key : String) : Value :=
  (members.lookup (.str key)).getD .none

/-- `str(raw.get(key, ""))`. -/
def itemText (members : List (Key × Value)) (key : String) : String :=
  (members.lookup (.str key)).elim "" (pyStr py)

/-- The license that one entry names. -/
def licenseOf : Value → Option String
  | .dict entry =>
    let value :=
      match item entry "license" with
      | .dict license =>
        if truthy py (item license "id") then item license "id" else item license "name"
      | _ => item entry "expression"
    match value with
    | .str text =>
      let text := stripBy isPythonSpace text
      if text = "" then none else some text
    | _ => none
  | _ => none

/-- `_licenses`. -/
def licensesOf : Option Value → Except Exn (List String)
  | none => .ok []
  | some (.list entries) => .ok (sortedSet (entries.filterMap (licenseOf py)))
  | some _ => .error (.valueError "C11 component licenses are invalid")

/-- `c.upper()` is `d`, for a character of `"SHA-256"`. -/
def isUpperOf (d c : Char) : Bool := c.toUpper = d || (c = 'ſ' && d = 'S')

/-- `str(item.get("alg", "")).upper() == "SHA-256"`. -/
def isSha256Alg (text : String) : Bool :=
  text.length = 7 && ("SHA-256".toList.zip text.toList).all fun pair => isUpperOf pair.1 pair.2

/-- `_sha256_hash`. -/
def sha256HashOf : Option Value → Option String
  | some (.list entries) => entries.findSome? fun
      | .dict entry =>
        if isSha256Alg (itemText py entry "alg") then
          match item entry "content" with
          | .str text => if text.length = 64 then some (String.map Char.toLower text) else none
          | _ => none
        else none
      | _ => none
  | _ => none

/-- `raw.get("purl")`, which has to be a text. -/
def packageUrlOf (raw : List (Key × Value)) : Except Exn (Option String) :=
  match item raw "purl" with
  | .none => .ok none
  | .str text => .ok (some text)
  | _ => .error (.validationError ["package_url"])

/-- The components of a CycloneDX document that is complete. -/
def rawComponents (document : Document py) : Except Exn (List (List (Key × Value))) := do
  ensure (item document.members "bomFormat" matches .str "CycloneDX")
    (.valueError "C11 SBOM must use CycloneDX")
  match item document.members "components" with
  | .list elements =>
    ensure (itemText py document.members "specVersion" ≠ "" ∧
        itemText py document.members "serialNumber" ≠ "")
      (.valueError "C11 CycloneDX document is incomplete")
    ensure (elements.length ≤ 65536) (.valueError "C11 CycloneDX components are invalid")
    elements.mapM fun
      | .dict members => .ok members
      | _ => .error (.valueError "C11 CycloneDX components are invalid")
  | _ => .error (.valueError "C11 CycloneDX document is incomplete")

/-- The loop over the components; `bomRefs` has the identifiers of those before. -/
def buildComponents (metadata : Metadata) (manifestId : ℕ) :
    List (List (Key × Value)) → List (String × ℕ) →
      Except Exn (List (Record SBOMComponent) × List (String × ℕ))
  | [], bomRefs => .ok ([], bomRefs)
  | raw :: rest, bomRefs => do
    let bomRef := itemText py raw "bom-ref"
    let name := itemText py raw "name"
    let version := itemText py raw "version"
    ensure (bomRef ≠ "" ∧ name ≠ "" ∧ version ≠ "" ∧ bomRef ∉ bomRefs.map (·.1))
      (.valueError "C11 CycloneDX component identity is invalid")
    let componentId := py.uuid5 manifestId ("component:" ++ bomRef)
    let licenses ← licensesOf py (raw.lookup (.str "licenses"))
    let packageUrl ← packageUrlOf raw
    let component ← (sbomComponent py).build py
      { metadata, componentId, name, version, packageUrl, licenses
        componentSha256 := sha256HashOf py (raw.lookup (.str "hashes")) }
    let (components, bomRefs) ←
      buildComponents metadata manifestId rest (bomRefs ++ [(bomRef, componentId)])
    return (component :: components, bomRefs)

/-- The loop over the vulnerabilities. -/
def buildVulnerability (metadata : Metadata) (manifestId : ℕ) (bomRefs : List (String × ℕ))
    (input : VulnerabilityInput) : Except Exn (Record VulnerabilityRecord) :=
  match bomRefs.lookup input.componentBomRef with
  | none => .error (.valueError "C11 vulnerability references an unknown component")
  | some componentId =>
    (vulnerabilityRecord py).build py
      { metadata, componentId
        vulnerabilityRecordId := py.uuid5 manifestId
          ("vulnerability:" ++ py.uuidText componentId ++ ":" ++ input.advisoryId)
        sbomManifestId := manifestId
        advisoryId := input.advisoryId
        severity := input.severity
        cvssScore := input.cvssScore
        affectedRange := input.affectedRange
        fixedVersion := input.fixedVersion
        status := input.status
        nonWaivable := input.nonWaivable }

end sbom

/-! ### Packages -/

section package

variable (py : Platform) (settings : Settings)

def assertBuilder (provenance : BuildProvenanceInput py) : Except Exn Unit :=
  ensure ((provenance.builderId, provenance.builderVersion, provenance.toolchainManifestVersion) ∈
      settings.builders)
    (.valueError "C11 builder is not allowlisted")

def importKey (claim : Claim) (kind digest : String) : String :=
  "c11/import/" ++ py.uuidText claim.verificationId ++ "/" ++ py.uuidText claim.claimId ++ "/" ++ kind ++
    "/" ++ digest ++ ".json"

/-- `_build_package` up to the storing of the SBOM: its components and its digest. -/
def checkCommand (command : ImportCommand py) (authority : Authority) :
    Except Exn (List (List (Key × Value)) × String) := do
  assertBuilder py settings command.provenanceDocument
  ensure (command.provenanceDocument.sourceSha256 = authority.codeArtifact.values.sourceSha256)
    (.valueError "C11 provenance source SHA does not match C6")
  let raw ← rawComponents py command.sbomDocument
  let sbomSha256 ← canonicalSha256 py (.dict command.sbomDocument.members)
  return (raw, sbomSha256)

/-- The manifest of the SBOM and the vulnerabilities of its components. -/
def buildManifest (command : ImportCommand py) (authority : Authority) (metadata : Metadata)
    (raw : List (List (Key × Value))) (sbomArtifact : ArtifactObjectRef) (sbomSha256 : String) :
    Except Exn (Record SBOMManifest × List (Record VulnerabilityRecord)) := do
  let artifactId := authority.codeArtifact.values.codeArtifactId
  let manifestId := py.uuid5 artifactId ("sbom:" ++ sbomSha256)
  let (components, bomRefs) ← buildComponents py metadata manifestId raw []
  let manifest ← (sbomManifest py).build py
    { metadata, components, sbomArtifact, sbomSha256
      sbomManifestId := manifestId
      codeArtifactId := artifactId
      specVersion := itemText py command.sbomDocument.members "specVersion"
      serialNumber := itemText py command.sbomDocument.members "serialNumber" }
  let vulnerabilities ← command.vulnerabilityRecords.mapM
    (buildVulnerability py metadata manifestId bomRefs)
  return (manifest, vulnerabilities)

/-- The provenance of a stored build output. -/
def provenanceOf (command : ImportCommand py) (authority : Authority) (metadata : Metadata)
    (manifestId : ℕ) (outputArtifact : ArtifactObjectRef) (outputSha256 : String) : BuildProvenance where
  metadata
  buildProvenanceId :=
    py.uuid5 authority.codeArtifact.values.codeArtifactId ("provenance:" ++ outputSha256)
  codeArtifactId := authority.codeArtifact.values.codeArtifactId
  builderId := command.provenanceDocument.builderId
  builderVersion := command.provenanceDocument.builderVersion
  toolchainManifestVersion := command.provenanceDocument.toolchainManifestVersion
  sourceSha256 := command.provenanceDocument.sourceSha256
  buildOutputArtifact := outputArtifact
  buildOutputSha256 := outputSha256
  sbomManifestId := manifestId
  sandboxPolicyId := command.provenanceDocument.sandboxPolicyId
  reproducible := command.provenanceDocument.reproducible
  buildCommandSha256 := command.provenanceDocument.buildCommandSha256

/-- The package of the built records. -/
def packageOf (command : ImportCommand py) (authority : Authority) (metadata : Metadata)
    (manifest : Record SBOMManifest) (vulnerabilities : List (Record VulnerabilityRecord))
    (provenance : Record BuildProvenance) : EvidencePackage where
  metadata
  complianceEvidencePackageId := py.uuid5 command.importCommandId
    ("package:" ++ py.uuidText manifest.values.sbomManifestId ++ ":" ++
      py.uuidText provenance.values.buildProvenanceId)
  importCommandId := command.importCommandId
  verificationId := authority.claim.verificationId
  claimId := authority.claim.claimId
  codeArtifact := authority.codeArtifact
  sbomManifest := manifest
  vulnerabilities
  provenance
  evidenceRefs := authority.evidence
  policyVersion := settings.policyVersion
  expiresAt := metadata.createdAt + 1000000 * settings.maxEvidenceAgeSeconds

/-- `_build_package` after the SBOM is stored: what is stored of the build output, and the package. -/
def finishPackage (objects : Objects) (command : ImportCommand py) (authority : Authority)
    (metadata : Metadata) (raw : List (List (Key × Value))) (sbomArtifact : ArtifactObjectRef)
    (sbomSha256 : String) : Objects × Except Exn (Record EvidencePackage) :=
  match buildManifest py command authority metadata raw sbomArtifact sbomSha256 with
  | .error e => (objects, .error e)
  | .ok (manifest, vulnerabilities) =>
    match (do
      let outputSha256 ← canonicalSha256 py (.dict command.provenanceDocument.buildOutputDocument.members)
      let stored ← storeJson py settings objects (importKey py authority.claim "build" outputSha256)
        command.provenanceDocument.buildOutputDocument metadata.createdAt
      return (stored, outputSha256)) with
    | .error e => (objects, .error e)
    | .ok ((objects, outputArtifact), outputSha256) =>
      (objects, do
        let provenance ← (buildProvenance py).build py
          (provenanceOf py command authority metadata manifest.values.sbomManifestId outputArtifact
            outputSha256)
        (evidencePackage py).build py
          (packageOf py settings command authority metadata manifest vulnerabilities provenance))

/-- `_build_package` at the time `now`. -/
def buildPackage (objects : Objects) (command : ImportCommand py) (authority : Authority) (now : ℕ) :
    Objects × Except Exn (Record EvidencePackage) :=
  match checkCommand py settings command authority with
  | .error e => (objects, .error e)
  | .ok (raw, sbomSha256) =>
    match storeJson py settings objects (importKey py authority.claim "sbom" sbomSha256)
        command.sbomDocument now with
    | .error e => (objects, .error e)
    | .ok (objects, sbomArtifact) =>
      finishPackage py settings objects command authority
        ⟨authority.claim.traceId, authority.claim.tenantId, 1, now⟩ raw sbomArtifact sbomSha256

end package

/-! ### The tables -/

/-- A row of `topic4_sbom_manifests`: the manifest and the `manifest_document` around it. -/
structure ManifestRow where
  record : Record SBOMManifest
  packageId : ℕ
  importCommandId : ℕ
  packageSha256 : String
  evidenceRefs : List (Record EvidenceRef)
  expiresAt : ℕ
  policyVersion : String

/-- A row of `topic4_sbom_components`. -/
structure ComponentRow where
  sbomManifestId : ℕ
  record : Record SBOMComponent

/-- What the unique constraints and the primary keys forbid twice. -/
inductive UniqueKey where
  | manifestRecord (id : ℕ)
  | manifest (id : ℕ)
  | manifestContent (codeArtifactId : ℕ) (sbomSha256 : String)
  | componentRecord (id : ℕ)
  | component (id : ℕ)
  | componentContent (sbomManifestId : ℕ) (name version packageUrl : String)
  | vulnerabilitySnapshot (id : ℕ)
  | vulnerability (id : ℕ)
  | vulnerabilityContent (sbomManifestId componentId : ℕ) (advisoryId : String)
  | provenanceRecord (id : ℕ)
  | provenance (id : ℕ)
  | provenanceContent (codeArtifactId : ℕ) (buildOutputSha256 : String)
  | outbox (id : ℕ)
  | envelope (id : ℕ)
deriving DecidableEq

/-- The rows of the tenant, its idempotency records and its artifacts. -/
structure State where
  manifests : List ManifestRow
  components : List ComponentRow
  vulnerabilities : List (Record VulnerabilityRecord)
  provenances : List (Record BuildProvenance)
  outbox : List ℕ
  idempotency : List (String × String × Record EvidencePackage)
  objects : Objects

section keys

variable (py : Platform)

def ManifestRow.keys (row : ManifestRow) : List UniqueKey :=
  let manifest := row.record.values
  [.manifestRecord (py.uuid5 manifest.sbomManifestId "record"), .manifest manifest.sbomManifestId,
    .manifestContent manifest.codeArtifactId manifest.sbomSha256]

/-- A component without a package URL is distinct from all others. -/
def ComponentRow.keys (row : ComponentRow) : List UniqueKey :=
  let component := row.record.values
  [.componentRecord (py.uuid5 component.componentId "record"), .component component.componentId] ++
    component.packageUrl.toList.map
      (.componentContent row.sbomManifestId component.name component.version)

def vulnerabilityKeys (record : Record VulnerabilityRecord) : List UniqueKey :=
  let vulnerability := record.values
  [.vulnerabilitySnapshot (py.uuid5 vulnerability.vulnerabilityRecordId "snapshot"),
    .vulnerability vulnerability.vulnerabilityRecordId,
    .vulnerabilityContent vulnerability.sbomManifestId vulnerability.componentId vulnerability.advisoryId]

def provenanceKeys (record : Record BuildProvenance) : List UniqueKey :=
  let provenance := record.values
  [.provenanceRecord (py.uuid5 provenance.buildProvenanceId "record"),
    .provenance provenance.buildProvenanceId,
    .provenanceContent provenance.codeArtifactId provenance.buildOutputSha256]

def outboxKeys (packageId : ℕ) : List UniqueKey :=
  [.outbox (py.uuid5 packageId "outbox"), .envelope (py.uuid5 packageId "envelope")]

def State.keys (s : State) : List UniqueKey :=
  s.manifests.flatMap (·.keys py) ++ s.components.flatMap (·.keys py) ++
    s.vulnerabilities.flatMap (vulnerabilityKeys py) ++ s.provenances.flatMap (provenanceKeys py) ++
    s.outbox.flatMap (outboxKeys py)

end keys

def empty : State := ⟨[], [], [], [], [], [], []⟩

def rowsOf (package : Record EvidencePackage) : State :=
  let p := package.values
  { manifests := [⟨p.sbomManifest, p.complianceEvidencePackageId, p.importCommandId, package.recordSha256,
      p.evidenceRefs, p.expiresAt, p.policyVersion⟩]
    components := p.sbomManifest.values.components.map (⟨p.sbomManifest.values.sbomManifestId, ·⟩)
    vulnerabilities := p.vulnerabilities
    provenances := [p.provenance]
    outbox := [p.complianceEvidencePackageId]
    idempotency := []
    objects := [] }

/-! ### The import -/

section importing

variable (py : Platform) (settings : Settings)

/-- No text has a null character, which neither `text` nor `jsonb` columns take. -/
def storable (package : Record EvidencePackage) : Bool :=
  ((evidencePackage py).json package).strings.all fun text => !text.toList.contains '\x00'

/-- The check constraint `non_waivable_not_accepted`. -/
def accepted (package : Record EvidencePackage) : Bool :=
  package.values.vulnerabilities.all fun v =>
    !(v.values.nonWaivable && v.values.status = .ACCEPTED_RISK)

/-- No key of the package is one of a row, or twice its own. -/
def Unused (s : State) (package : Record EvidencePackage) : Prop :=
  ((rowsOf package).keys py).Nodup ∧ ∀ key ∈ (rowsOf package).keys py, key ∉ s.keys py

instance (s : State) (package : Record EvidencePackage) : Decidable (Unused py s package) :=
  inferInstanceAs (Decidable (_ ∧ _))

/-- A vulnerability that comes back from its `jsonb` column. -/
def fromJsonb (record : Record VulnerabilityRecord) : Record VulnerabilityRecord :=
  { record with values := { record.values with cvssScore := record.values.cvssScore.map py.jsonbNumber } }

/-- The rows after those of the package are inserted. -/
def State.insert (s : State) (key digest : String) (package : Record EvidencePackage) : State :=
  let rows := rowsOf package
  { s with
    manifests := s.manifests ++ rows.manifests
    components := s.components ++ rows.components
    vulnerabilities := s.vulnerabilities ++ rows.vulnerabilities
    provenances := s.provenances ++ rows.provenances
    outbox := s.outbox ++ rows.outbox
    idempotency := s.idempotency ++ [(key, digest, package)] }

/-- The transaction of `import_package`. -/
def commit (s : State) (key digest : String) (package : Record EvidencePackage) :
    State × Except Exn (Record EvidencePackage) :=
  match s.idempotency.lookup key with
  | some (stored, result) =>
    if stored ≠ digest then
      (s, .error (.valueError "C11 Idempotency-Key was reused for different content"))
    else
      (s, .ok { result with
        values := { result.values with
          vulnerabilities := result.values.vulnerabilities.map (fromJsonb py) } })
  | none =>
    if storable py package = false then (s, .error (.other "DataError"))
    else if Unused py s package ∧ accepted package = true then
      (s.insert key digest package, .ok package)
    else (s, .error (.valueError "C11 evidence package conflicts with an immutable record"))

/-- The checks of `import_package` before the package is built. -/
def checkImport (context : TenantContext) (command : ImportCommand py)
    (load : Except Exn Authority) : Except Exn Authority := do
  ensure (command.metadata.tenantId = context.tenantId ∧ command.metadata.traceId = context.traceId)
    (.valueError "C11 import command does not match trusted context")
  let digest ← canonicalSha256 py command.dump
  ensure (command.recordSha256 = digest) (.valueError "C11 import command integrity failed")
  let authority ← load
  ensure (authority.claim.tenantId = context.tenantId ∧ authority.claim.traceId = context.traceId)
    (.valueError "C11 Claim crosses the trusted tenant or trace boundary")
  return authority

/-- `import_package`, where `_load_code_authority` answers `load` and `_build_package` reads `now`. -/
def importPackage (s : State) (context : TenantContext) (command : ImportCommand py)
    (load : Except Exn Authority) (now : ℕ) : State × Except Exn (Record EvidencePackage) :=
  match checkImport py context command load with
  | .error e => (s, .error e)
  | .ok authority =>
    match buildPackage py settings s.objects command authority now with
    | (objects, .error e) => ({ s with objects }, .error e)
    | (objects, .ok package) =>
      match canonicalSha256 py (command.request context.tenantId) with
      | .error e => ({ s with objects }, .error e)
      | .ok digest => commit py { s with objects } command.idempotencyKeySha256 digest package

end importing

/-! ### Runs -/

/-- One call of `import_package`. -/
structure ImportCall (py : Platform) where
  context : TenantContext
  command : ImportCommand py
  load : Except Exn Authority
  now : ℕ

variable (py : Platform) (settings : Settings)

def step (s : State) (call : ImportCall py) : Option State :=
  some (importPackage py settings s call.context call.command call.load call.now).1

/-- The state after some sequence of calls. -/
def Reachable (s : State) : Prop := ∃ calls, Transition.run (step py settings) empty calls = some s

/-! ### A sample -/

/-- A digest of the beginning, which tells the texts of the samples apart. -/
def checksum (text : List Char) : ℕ := (text.take 320).foldl (fun h c => (h * 257 + c.toNat) % 1000003) 7

def decimal (n : ℕ) : String := String.ofList (Nat.toDigits 10 n)

def samplePlatform : Platform where
  sha256 text := decimal (checksum text)
  numberValue _ := 0
  uuid5 id name := checksum (Nat.toDigits 10 id ++ name.toList)
  uuidText := decimal
  jsonTime := decimal
  reprOf _ := ""
  jsonbNumber n := n

end CyberControl.Compliance
