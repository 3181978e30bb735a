import CyberControl.ComplianceImport

/-! # Documents of an import and of a report

What `KnowledgeBaseLifecycleService.import_source` (`knowledge/lifecycle.py`) and
`VerificationReportBuilder.build` (`verification/reporting.py`) put into the object store, and under which keys,
for one tenant. -/

namespace CyberControl.Artifacts

open Compliance (ArtifactObjectRef Metadata Platform Record RecordModel byName byteSize checkFields dumpSha256
  natJson optionalText strip uuidJson)
open Scheduling (sortBy)

def namespaceUrl : ℕ := 0x6ba7b8119dad11d180b400c04fd430c8

/-- What a call knows besides its arguments: `datetime.now(UTC)`, and the trace and subject of the tenant
context. -/
structure Context where
  now : ℕ
  traceId : String
  subjectRef : String

abbrev StoredObject := String × List Char

section documents
variable (py : Platform) (tenantId : String)

/-- `canonical_json_bytes` of a document. -/
def canonicalText (members : List (String × Json)) : List Char := (Json.object (byName members)).encode

def refOf (objectKey : String) (content : List Char) (createdAt : ℕ) : ArtifactObjectRef :=
  ⟨objectKey, byteSize content, py.sha256 content, createdAt⟩

def metadataOf (context : Context) (versionCas : ℕ) : Metadata :=
  ⟨context.traceId, tenantId, versionCas, context.now⟩

/-! ### Source import -/

inductive SourceMediaType where
  | markdown
  | plain
  | json
deriving DecidableEq

def SourceMediaType.suffix : SourceMediaType → String
  | .markdown => "md"
  | .plain => "txt"
  | .json => "json"

/-- `SourceImportCommand`, of which the documents depend on these fields. -/
structure SourceImportCommand where
  courseId : String
  canonicalCitation : String
  version : String
  content : List Char
  mediaType : SourceMediaType
  sourceDocumentId : Option ℕ
  sourceDocumentVersionId : Option ℕ
deriving DecidableEq

def SourceImportCommand.resolvedDocumentId (command : SourceImportCommand) : ℕ :=
  command.sourceDocumentId.getD (py.uuid5 namespaceUrl
    ("liyans://" ++ tenantId ++ "/topic4/c2/" ++ command.courseId ++ "/" ++
      py.sha256 (Json.string command.canonicalCitation).encode))

def SourceImportCommand.resolvedVersionId (command : SourceImportCommand) : ℕ :=
  command.sourceDocumentVersionId.getD
    (py.uuid5 (command.resolvedDocumentId py tenantId) ("source-version:" ++ command.version))

structure ParsedSection where
  sectionId : String
  parentSectionId : Option String
  ordinal : ℕ
  title : String
  jsonPointer : String
  text : String
  textSha256 : String
  explicitKnowledgePointIds : List String

structure ParsedDocument where
  sections : List ParsedSection
  contentSha256 : String

/-- The functions of `ingestion.py` that read a source, for any graph snapshots `G`: `parse`, `match` of the
matcher of a snapshot, and `extract` with `match_ids` on top of it. -/
structure Ingestion (G : Type) where
  parserVersion : String
  parse : SourceImportCommand → Except Exn ParsedDocument
  matchPoints : G → ParsedSection → Except Exn (List String)
  matchFormulas : List ParsedSection → (versionId : ℕ) → (traceId : String) → (createdAt : ℕ) →
    Except Exn (String → List ℕ)

/-- A section in the document of `sections_payload`. -/
def ParsedSection.json (s : ParsedSection) : Json :=
  .object (byName
    [("section_id", .string s.sectionId), ("parent_section_id", optionalText s.parentSectionId),
      ("ordinal", natJson s.ordinal), ("title", .string s.title), ("json_pointer", .string s.jsonPointer),
      ("text", .string s.text), ("text_sha256", .string s.textSha256),
      ("topic1_knowledge_point_ids", .array (s.explicitKnowledgePointIds.map .string))])

def sectionsPayload (parsed : ParsedDocument) : List Char :=
  canonicalText
    [("schema_version", .string "document-sections.v1"), ("content_sha256", .string parsed.contentSha256),
      ("sections", .array (parsed.sections.map (·.json)))]

/-- `DocumentSectionIRV1`. -/
structure DocumentSectionIR where
  metadata : Metadata
  sectionId : String
  parentSectionId : Option String
  ordinal : ℕ
  title : String
  jsonPointer : String
  textArtifact : ArtifactObjectRef
  textSha256 : String
  formulaSignatureIds : List ℕ
  topic1KnowledgePointIds : List String

def documentSectionIR : RecordModel DocumentSectionIR where
  members s := s.metadata.members py "document-section-ir.v1" ++
    [("section_id", .string s.sectionId), ("parent_section_id", optionalText s.parentSectionId),
      ("ordinal", natJson s.ordinal), ("title", .string s.title), ("json_pointer", .string s.jsonPointer),
      ("text_artifact", s.textArtifact.json py), ("text_sha256", .string s.textSha256),
      ("formula_signature_ids", .array (s.formulaSignatureIds.map (uuidJson py))),
      ("topic1_knowledge_point_ids", .array (s.topic1KnowledgePointIds.map .string))]
  validate s := do
    let s := { s with
      sectionId := strip s.sectionId
      parentSectionId := s.parentSectionId.map strip
      title := strip s.title
      jsonPointer := strip s.jsonPointer
      topic1KnowledgePointIds := s.topic1KnowledgePointIds.map strip }
    checkFields
      [("section_id", 1 ≤ s.sectionId.length && s.sectionId.length ≤ 256),
        ("parent_section_id", s.parentSectionId.all fun id => 1 ≤ id.length && id.length ≤ 256),
        ("title", 1 ≤ s.title.length && s.title.length ≤ 1024),
        ("json_pointer", 1 ≤ s.jsonPointer.length && s.jsonPointer.length ≤ 1024),
        ("formula_signature_ids", s.formulaSignatureIds.length ≤ 4096),
        ("topic1_knowledge_point_ids", s.topic1KnowledgePointIds.length ≤ 4096)]
    return s

/-- `version_id.hex`. -/
def uuidHex (id : ℕ) : String := String.ofList ((py.uuidText id).toList.filter (· ≠ '-'))

/-- `f"topic4/c2/sources/{version_id.hex}/{name}"`. -/
def sourceKey (versionId : ℕ) (name : String) : String :=
  "topic4/c2/sources/" ++ uuidHex py versionId ++ "/" ++ name

/-- The objects that a call puts, in order; it raises after them unless `complete`. -/
structure Plan where
  objects : List StoredObject
  complete : Bool

def sectionRecords (context : Context) (parsed : ParsedDocument) (matched : List (List String))
    (formulas : String → List ℕ) (textArtifact : ArtifactObjectRef) :
    Except Exn (List (Record DocumentSectionIR)) :=
  (parsed.sections.zip matched).mapM fun (s, points) =>
    (documentSectionIR py).build py
      { metadata := metadataOf tenantId context 1
        sectionId := s.sectionId
        parentSectionId := s.parentSectionId
        ordinal := s.ordinal
        title := s.title
        jsonPointer := s.jsonPointer
        textArtifact := textArtifact
        textSha256 := s.textSha256
        formulaSignatureIds := formulas s.text
        topic1KnowledgePointIds := points }

def documentIRPayload (versionId : ℕ) (parserVersion : String) (records : List (Record DocumentSectionIR)) :
    List Char :=
  canonicalText
    [("schema_version", .string "document-ir-payload.v1"),
      ("document_ir_id", uuidJson py (py.uuid5 versionId "document-ir:v1")),
      ("source_document_version_id", uuidJson py versionId), ("parser_version", .string parserVersion),
      ("sections", .array (records.map ((documentSectionIR py).json)))]

/-- The objects of an import whose source has been parsed and matched. -/
def importObjects (parserVersion : String) (command : SourceImportCommand) (context : Context)
    (parsed : ParsedDocument) (matched : List (List String)) (formulas : String → List ℕ) : Plan :=
  let versionId := command.resolvedVersionId py tenantId
  let source := (sourceKey py versionId ("source." ++ command.mediaType.suffix), command.content)
  let sections := (sourceKey py versionId "sections.json", sectionsPayload parsed)
  let textArtifact := refOf py sections.1 sections.2 context.now
  match sectionRecords py tenantId context parsed matched formulas textArtifact with
  | .error _ => ⟨[source, sections], false⟩
  | .ok records =>
    let documentIR := documentIRPayload py versionId parserVersion records
    ⟨[source, sections, (sourceKey py versionId "document-ir.json", documentIR)], true⟩

/-- What `import_source` puts. -/
def importPlan {G : Type} (ingestion : Ingestion G) (command : SourceImportCommand) (context : Context)
    (graph : G) : Plan :=
  match ingestion.parse command with
  | .error _ => ⟨[], false⟩
  | .ok parsed =>
    match parsed.sections.mapM (ingestion.matchPoints graph),
        ingestion.matchFormulas parsed.sections (command.resolvedVersionId py tenantId) context.traceId
          context.now with
    | .ok matched, .ok formulas =>
      importObjects py tenantId ingestion.parserVersion command context parsed matched formulas
    | _, _ => ⟨[], false⟩

/-! ### Verification reports -/

/-- What the report reads of a `ClaimV1`; `document` is its `model_dump`. -/
structure ClaimRow where
  candidateId : ℕ
  candidateVersion : ℕ
  candidateSha256 : String
  document : Json

/-- What the report reads of a `ModuleRunResultV1`; `document` is its `model_dump`. -/
structure ModuleResultRow where
  moduleResultId : ℕ
  resultSha256 : String
  evidenceRefIds : List ℕ
  document : Json

/-- The rows that `finalize_control_plane` reads. -/
structure Rows where
  claims : List ClaimRow
  risks : List Json
  moduleResults : List ModuleResultRow
  evidenceDigests : List (ℕ × String)
  revisionRound : ℕ

/-- What the report reads of an `AggregationResultV1`; `document` is its `model_dump`. -/
structure AggregationRow where
  aggregationResultId : ℕ
  verificationId : ℕ
  decision : String
  document : Json

/-- The versions that the report names, `datetime.isoformat`, and `aggregate`: the dumps of the verdicts, and
the result. -/
structure Reporting where
  knowledgeBaseVersion : String
  policyVersion : String
  isoformat : ℕ → String
  aggregate : Rows → (traceId tenantId : String) → (createdAt : ℕ) →
    Except Exn (List Json × AggregationRow)

/-- `EvidenceChainItemV1`. -/
structure EvidenceChainItem where
  metadata : Metadata
  evidenceRefId : ℕ
  sequence : ℕ
  evidenceSha256 : String
  previousChainSha256 : Option String
  chainSha256 : String

def evidenceChainItem : RecordModel EvidenceChainItem where
  members i := i.metadata.members py "evidence-chain-item.v1" ++
    [("evidence_ref_id", uuidJson py i.evidenceRefId), ("sequence", natJson i.sequence),
      ("evidence_sha256", .string i.evidenceSha256),
      ("previous_chain_sha256", optionalText i.previousChainSha256), ("chain_sha256", .string i.chainSha256)]
  validate i := do
    checkFields [("evidence_sha256", Compliance.isSha256Hex i.evidenceSha256)]
    return i

/-- The loop over the evidence, from the item of that sequence. -/
def chainItems (metadata : Metadata) : ℕ → Option String → List (ℕ × String) →
    Except Exn (List (Record EvidenceChainItem))
  | _, _, [] => .ok []
  | sequence, previous, (evidenceRefId, digest) :: evidence => do
    let chainSha256 := dumpSha256 py
      [("sequence", natJson sequence), ("evidence_ref_id", uuidJson py evidenceRefId),
        ("evidence_sha256", .string digest), ("previous_chain_sha256", optionalText previous)]
    let item ← (evidenceChainItem py).build py
      ⟨metadata, evidenceRefId, sequence, digest, previous, chainSha256⟩
    let items ← chainItems metadata (sequence + 1) (some chainSha256) evidence
    return item :: items

/-- `EvidenceChainManifestV1`. -/
structure EvidenceChainManifest where
  metadata : Metadata
  evidenceChainManifestId : ℕ
  verificationId : ℕ
  reportId : ℕ
  items : List (Record EvidenceChainItem)
  rootChainSha256 : Option String

def evidenceChainManifest : RecordModel EvidenceChainManifest where
  members m := m.metadata.members py "evidence-chain-manifest.v1" ++
    [("evidence_chain_manifest_id", uuidJson py m.evidenceChainManifestId),
      ("verification_id", uuidJson py m.verificationId), ("report_id", uuidJson py m.reportId),
      ("items", .array (m.items.map (evidenceChainItem py).json)),
      ("root_chain_sha256", optionalText m.rootChainSha256)]
  validate m := do
    checkFields [("items", 1 ≤ m.items.length && m.items.length ≤ 16384)]
    return m

/-- The evidence of the chain: the references with their digests, or the results when they have none. -/
def chainEvidence (rows : Rows) : Except Exn (List (ℕ × String)) := do
  let referenced := sortBy py.uuidText (rows.moduleResults.flatMap (·.evidenceRefIds)).dedup
  let evidence ←
    if referenced ≠ [] then
      referenced.mapM fun id =>
        match rows.evidenceDigests.lookup id with
        | some digest => .ok (id, digest)
        | none => .error (.valueError "evidence digest lookup is incomplete")
    else
      .ok (sortBy (fun item => py.uuidText item.1)
        (rows.moduleResults.map fun result => (result.moduleResultId, result.resultSha256)))
  ensure (evidence ≠ [])
    (.valueError "verification report requires at least one evidence-chain item")
  return evidence

def buildEvidenceChainManifest (rows : Rows) (verificationId reportId : ℕ) (context : Context) :
    Except Exn (Record EvidenceChainManifest) := do
  let evidence ← chainEvidence py rows
  let items ← chainItems py (metadataOf tenantId context 1) 0 none evidence
  let root := items.getLast?.map (·.values.chainSha256)
  let seed := dumpSha256 py
    [("verification_id", uuidJson py verificationId), ("report_id", uuidJson py reportId),
      ("root_chain_sha256", optionalText root)]
  (evidenceChainManifest py).build py
    { metadata := metadataOf tenantId context 1
      evidenceChainManifestId :=
        py.uuid5 namespaceUrl ("liyans:topic4:evidence-chain:" ++ tenantId ++ ":" ++ seed)
      verificationId := verificationId
      reportId := reportId
      items := items
      rootChainSha256 := root }

/-- `report_id`. -/
def reportIdOf (aggregation : AggregationRow) : ℕ :=
  py.uuid5 namespaceUrl ("liyans:topic4:report:" ++ tenantId ++ ":" ++ py.uuidText aggregation.verificationId ++
    ":" ++ py.uuidText aggregation.aggregationResultId)

def reportDocument (reporting : Reporting) (rows : Rows) (candidate : ClaimRow) (verdicts : List Json)
    (aggregation : AggregationRow) (manifest : Json) (context : Context) : List (String × Json) :=
  [("schema_version", .string "topic4.verification-report.document.v1"),
    ("report_id", uuidJson py (reportIdOf py tenantId aggregation)),
    ("verification_id", uuidJson py aggregation.verificationId),
    ("candidate_id", uuidJson py candidate.candidateId),
    ("candidate_version", natJson candidate.candidateVersion),
    ("candidate_sha256", .string candidate.candidateSha256), ("decision", .string aggregation.decision),
    ("aggregation", aggregation.document), ("claims", .array (rows.claims.map (·.document))),
    ("risks", .array rows.risks), ("module_results", .array (rows.moduleResults.map (·.document))),
    ("claim_verdicts", .array verdicts), ("evidence_chain_manifest", manifest),
    ("knowledge_base_version", .string reporting.knowledgeBaseVersion),
    ("policy_version", .string reporting.policyVersion),
    ("completed_at", .string (reporting.isoformat context.now))]

/-- What `finalize_control_plane` puts. -/
def reportPlan (reporting : Reporting) (rows : Rows) (context : Context) : Plan :=
  match rows.claims, reporting.aggregate rows context.traceId tenantId context.now with
  | candidate :: _, .ok (verdicts, aggregation) =>
    let reportId := reportIdOf py tenantId aggregation
    match buildEvidenceChainManifest py tenantId rows aggregation.verificationId reportId context with
    | .error _ => ⟨[], false⟩
    | .ok manifest =>
      let document := (evidenceChainManifest py).json manifest
      ⟨[("evidence-chains/" ++ py.uuidText aggregation.verificationId ++ "/" ++
            py.uuidText manifest.values.evidenceChainManifestId ++ ".json", document.encode),
          ("reports/" ++ py.uuidText aggregation.verificationId ++ "/" ++ py.uuidText reportId ++ ".json",
            canonicalText
              (reportDocument py tenantId reporting rows candidate verdicts aggregation document context))],
        true⟩
  | _, _ => ⟨[], false⟩

end documents

/-! ### Keys -/

section keys
variable {py : Platform} {tenantId : String}

theorem sourceKey_inj {versionId : ℕ} {a b : String}
    (h : sourceKey py versionId a = sourceKey py versionId b) : a = b := by
  unfold sourceKey at h
  have hlist := congrArg String.toList h
  simp only [String.toList_append, List.append_assoc] at hlist
  exact String.toList_inj.mp (List.append_cancel_left (List.append_cancel_left (List.append_cancel_left hlist)))

theorem names_ne (mediaType : SourceMediaType) :
    "source." ++ mediaType.suffix ≠ "sections.json" ∧
      "source." ++ mediaType.suffix ≠ "document-ir.json" ∧ "sections.json" ≠ "document-ir.json" := by
  cases mediaType with
  | markdown => decide
  | plain => decide
  | json => decide

variable {G : Type}

/-- **What an import puts**: the content and its sections, which depend on the command alone, and the
document. -/
theorem importPlan_objects (ingestion : Ingestion G) (command : SourceImportCommand)
    (context : Context) (graph : G) :
    (importPlan py tenantId ingestion command context graph).objects = [] ∨
      ∃ parsed rest, ingestion.parse command = .ok parsed ∧
        (importPlan py tenantId ingestion command context graph).objects =
          (sourceKey py (command.resolvedVersionId py tenantId) ("source." ++ command.mediaType.suffix),
              command.content) ::
            (sourceKey py (command.resolvedVersionId py tenantId) "sections.json", sectionsPayload parsed) ::
              rest ∧
        (rest = [] ∨ ∃ payload,
          rest = [(sourceKey py (command.resolvedVersionId py tenantId) "document-ir.json", payload)]) := by
  unfold importPlan
  cases hparse : ingestion.parse command with
  | error e => exact .inl rfl
  | ok parsed =>
    dsimp only
    split
    · right
      unfold importObjects
      dsimp only
      split
      · exact ⟨parsed, _, rfl, rfl, .inl rfl⟩
      · exact ⟨parsed, _, rfl, rfl, .inr ⟨_, rfl⟩⟩
    · exact .inl rfl

theorem mem_importPlan_of_ne {ingestion : Ingestion G} {command : SourceImportCommand}
    {context : Context} {graph : G} {key : String} {content : List Char}
    (h : (key, content) ∈ (importPlan py tenantId ingestion command context graph).objects)
    (hkey : key ≠ sourceKey py (command.resolvedVersionId py tenantId) "document-ir.json") :
    ∃ parsed, ingestion.parse command = .ok parsed ∧
      (key, content) ∈
        [(sourceKey py (command.resolvedVersionId py tenantId) ("source." ++ command.mediaType.suffix),
            command.content),
          (sourceKey py (command.resolvedVersionId py tenantId) "sections.json", sectionsPayload parsed)] := by
  rcases importPlan_objects ingestion command context graph with hnil | ⟨parsed, rest, hparse, hobjects, hrest⟩
  · rw [hnil] at h
    cases h
  · refine ⟨parsed, hparse, ?_⟩
    rw [hobjects] at h
    rcases hrest with rfl | ⟨payload, rfl⟩
    · exact h
    · simp only [List.mem_cons, List.not_mem_nil, or_false, Prod.mk.injEq] at h ⊢
      rcases h with h | h | h
      · exact .inl h
      · exact .inr h
      · exact absurd h.1 hkey

theorem importPlan_nodup (ingestion : Ingestion G) (command : SourceImportCommand)
    (context : Context) (graph : G) :
    ((importPlan py tenantId ingestion command context graph).objects.map Prod.fst).Nodup := by
  obtain ⟨hsections, hdocument, hlast⟩ := names_ne command.mediaType
  rcases importPlan_objects ingestion command context graph with hnil | ⟨parsed, rest, -, hobjects, hrest⟩
  · rw [hnil]
    exact List.nodup_nil
  · rw [hobjects]
    rcases hrest with rfl | ⟨payload, rfl⟩
    · simp only [List.map_cons, List.map_nil, List.nodup_cons, List.mem_singleton]
      exact ⟨fun h => hsections (sourceKey_inj h), by simp⟩
    · simp only [List.map_cons, List.map_nil, List.nodup_cons, List.mem_cons, List.not_mem_nil, or_false]
      refine ⟨?_, fun h => hlast (sourceKey_inj h), by simp⟩
      rintro (h | h)
      · exact hsections (sourceKey_inj h)
      · exact hdocument (sourceKey_inj h)

theorem reportPlan_nodup (reporting : Reporting) (rows : Rows) (context : Context) :
    ((reportPlan py tenantId reporting rows context).objects.map Prod.fst).Nodup := by
  unfold reportPlan
  split
  · dsimp only
    split
    · exact List.nodup_nil
    · simp only [List.map_cons, List.map_nil, List.nodup_cons, List.mem_singleton, List.not_mem_nil,
        not_false_eq_true, List.nodup_nil, and_true]
      intro h
      have hfirst := congrArg (fun key : String => key.toList.head?) h
      simp [String.toList_append] at hfirst
  · exact List.nodup_nil

end keys

end CyberControl.Artifacts
