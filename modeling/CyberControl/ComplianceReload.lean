import CyberControl.ComplianceTables
import CyberControl.RowOrders

/-! # Loading of compliance evidence

`_latest_package` and `load` (`compliance/service.py`), under every order in which the database may return
rows that tie on their `ORDER BY` key. -/

namespace CyberControl.Compliance

open Python (Key Value)

/-! ### Rows -/

def ManifestRow.createdAt (row : ManifestRow) : ℕ := row.record.values.metadata.createdAt

/-- The orders of the queries of `_latest_package`, `.asc()` and `.desc()`. -/
structure Orders where
  manifests : RowOrder fun row : ManifestRow => OrderDual.toDual row.createdAt
  components : RowOrder fun row : ComponentRow => row.record.values.metadata.createdAt
  vulnerabilities : RowOrder fun row : Record VulnerabilityRecord => row.values.metadata.createdAt
  provenances : RowOrder fun row : Record BuildProvenance => OrderDual.toDual row.values.metadata.createdAt

section reload

variable (py : Platform)

/-- The metadata of a stored record is that of the claim. -/
def BoundTo (claim : Claim) (m : Metadata) : Prop := m.tenantId = claim.tenantId ∧ m.traceId = claim.traceId

instance (claim : Claim) (m : Metadata) : Decidable (BoundTo claim m) := inferInstanceAs (Decidable (_ ∧ _))

/-! ### `_latest_package` -/

/-- The checks on the manifest and on the evidence that was stored with it. -/
def checkManifest (row : ManifestRow) (authority : Authority) : Except Exn Unit := do
  ensure (BoundTo authority.claim row.record.values.metadata ∧
      (sbomManifest py).integrityValid py row.record = true)
    (.valueError "C11 persisted SBOM manifest binding failed")
  ensure (∀ item ∈ row.evidenceRefs, BoundTo authority.claim item.values.metadata ∧
      item.values.verificationId = authority.claim.verificationId ∧
      item.values.claimId = authority.claim.claimId ∧ (evidenceRef py).integrityValid py item = true)
    (.valueError "C11 persisted evidence binding failed")
  ensure (∀ item ∈ row.evidenceRefs,
      item.values.evidenceRefId ∈ authority.evidence.map (·.values.evidenceRefId))
    (.valueError "C11 persisted evidence reference is unavailable")

def readComponent (manifest : SBOMManifest) (authority : Authority) (row : ComponentRow) :
    Except Exn (Record SBOMComponent) := do
  ensure (BoundTo authority.claim row.record.values.metadata ∧
      (sbomComponent py).integrityValid py row.record = true ∧
      row.record.values.componentId ∈ manifest.components.map (·.values.componentId))
    (.valueError "C11 persisted SBOM component binding failed")
  return row.record

def readVulnerability (manifest : SBOMManifest) (authority : Authority)
    (row : Record VulnerabilityRecord) : Except Exn (Record VulnerabilityRecord) := do
  let vulnerability := fromJsonb py row
  ensure (BoundTo authority.claim vulnerability.values.metadata ∧
      (vulnerabilityRecord py).integrityValid py vulnerability = true ∧
      vulnerability.values.sbomManifestId = manifest.sbomManifestId)
    (.valueError "C11 persisted vulnerability binding failed")
  return vulnerability

def checkProvenance (manifest : SBOMManifest) (authority : Authority)
    (provenance : Record BuildProvenance) : Except Exn Unit :=
  ensure (BoundTo authority.claim provenance.values.metadata ∧
      (buildProvenance py).integrityValid py provenance = true ∧
      provenance.values.codeArtifactId = authority.codeArtifact.values.codeArtifactId ∧
      provenance.values.sbomManifestId = manifest.sbomManifestId)
    (.valueError "C11 persisted provenance binding failed")

/-- The values that `_latest_package` builds the package from. -/
def reloaded (row : ManifestRow) (authority : Authority) (components : List (Record SBOMComponent))
    (vulnerabilities : List (Record VulnerabilityRecord)) (provenance : Record BuildProvenance) :
    EvidencePackage where
  metadata :=
    { traceId := authority.claim.traceId
      tenantId := authority.claim.tenantId
      versionCas := row.record.values.metadata.versionCas
      createdAt := row.record.values.metadata.createdAt }
  complianceEvidencePackageId := row.packageId
  importCommandId := row.importCommandId
  verificationId := authority.claim.verificationId
  claimId := authority.claim.claimId
  codeArtifact := authority.codeArtifact
  sbomManifest := { row.record with values := { row.record.values with components } }
  vulnerabilities
  provenance
  evidenceRefs := row.evidenceRefs
  policyVersion := row.policyVersion
  expiresAt := row.expiresAt

def latestPackage (orders : Orders) (s : State) (authority : Authority) :
    Except Exn (Option (Record EvidencePackage)) :=
  match (orders.manifests.order (s.manifests.filter fun row =>
      row.record.values.codeArtifactId = authority.codeArtifact.values.codeArtifactId)).head? with
  | none => .ok none
  | some row => do
    let manifest := row.record.values
    checkManifest py row authority
    let components ← (orders.components.order (s.components.filter fun component =>
      component.sbomManifestId = manifest.sbomManifestId)).mapM (readComponent py manifest authority)
    let vulnerabilities ← (orders.vulnerabilities.order (s.vulnerabilities.filter fun vulnerability =>
      vulnerability.values.sbomManifestId = manifest.sbomManifestId)).mapM
        (readVulnerability py manifest authority)
    match (orders.provenances.order (s.provenances.filter fun provenance =>
        provenance.values.sbomManifestId = manifest.sbomManifestId)).head? with
    | none => return none
    | some provenance => do
      checkProvenance py manifest authority provenance
      let package ← (evidencePackage py).build py
        (reloaded row authority components vulnerabilities provenance)
      ensure (package.recordSha256 = row.packageSha256)
        (.valueError "C11 persisted package SHA mismatch")
      return some package

/-! ### `load` -/

/-- `ComplianceEvidenceBundle` of a `CODE` claim. -/
structure EvidenceBundle where
  sourceTenantId : String
  codeArtifact : Record CodeArtifact
  sbomManifest : Option (Record SBOMManifest)
  sbomDocument : Option (List (Key × Value))
  vulnerabilities : List (Record VulnerabilityRecord)
  provenance : Option (Record BuildProvenance)
  evidence : List (Record EvidenceRef)

/-- The object that an artifact holds, with the digest that is expected of it. -/
def readDocument (objects : Objects) (ref : ArtifactObjectRef) (sha256 : String)
    (invalid notObject mismatch : String) : Except Exn (List (Key × Value)) := do
  let raw ← read py objects ref
  match Json.decode raw with
  | none => .error (.valueError invalid)
  | some document =>
    match Value.ofJson document with
    | .dict members => do
      let digest ← canonicalSha256 py (.dict members)
      ensure (digest = sha256) (.valueError mismatch)
      return members
    | _ => .error (.valueError notObject)

/-- The bundle without evidence of the supply chain. -/
def bareBundle (authority : Authority) : EvidenceBundle :=
  ⟨authority.claim.tenantId, authority.codeArtifact, none, none, [], none, authority.evidence⟩

/-- `load` of a `CODE` claim at the time `now`, where `_load_code_authority` answers `authority`. -/
def load (orders : Orders) (s : State) (context : TenantContext) (authority : Authority) (now : ℕ) :
    Except Exn EvidenceBundle := do
  ensure (authority.claim.tenantId = context.tenantId ∧ authority.claim.traceId = context.traceId)
    (.valueError "C11 Claim does not match trusted context")
  match ← latestPackage py orders s authority with
  | none => return bareBundle authority
  | some package =>
    let p := package.values
    if p.expiresAt ≤ now then return bareBundle authority
    else do
      let sbomDocument ← readDocument py s.objects p.sbomManifest.values.sbomArtifact
        p.sbomManifest.values.sbomSha256 "C11 persisted SBOM artifact is not valid JSON"
        "C11 persisted SBOM artifact is not an object"
        "C11 persisted SBOM content hash does not match manifest"
      let _ ← readDocument py s.objects p.provenance.values.buildOutputArtifact
        p.provenance.values.buildOutputSha256 "C11 persisted build output is not valid JSON"
        "C11 persisted build output hash does not match provenance"
        "C11 persisted build output hash does not match provenance"
      return ⟨authority.claim.tenantId, p.codeArtifact, some p.sbomManifest, some sbomDocument,
        p.vulnerabilities, some p.provenance, p.evidenceRefs⟩

end reload

/-! ### Documents -/

section reading

variable {py : Platform}

theorem readDocument_ok {objects : Objects} {ref : ArtifactObjectRef} {invalid notObject mismatch : String}
    (hdocuments : Documents py objects) (hstored : Stored py objects ref) :
    ∃ members, readDocument py objects ref ref.sha256 invalid notObject mismatch = .ok members ∧
      canonicalSha256 py (.dict members) = .ok ref.sha256 := by
  obtain ⟨content, hread, hmem⟩ := hstored
  obtain ⟨document, hdumps⟩ := hdocuments _ hmem
  obtain ⟨_, _, _, hsha⟩ := read_eq_ok.mp hread
  unfold dumps at hdumps
  split at hdumps
  next d hcanonical =>
    have htext : d.encode = content := Except.ok.inj hdumps
    have hagain := Value.canonical_ofJson document.plain document.distinct hcanonical
    have hdecode : Json.decode content = some d := by
      rw [← htext]
      exact Json.decode_encode (Value.finite_of_canonical hcanonical).2
    obtain ⟨_, js, hd, _⟩ := Value.canonical_dict hcanonical
    rw [hd] at hagain
    have hdigest : canonicalSha256 py (.dict (Value.dictOf (Value.ofJsonMembers js))) =
        .ok ref.sha256 := by
      rw [← hsha]
      unfold canonicalSha256 dumps
      change (Value.dict (Value.dictOf (Value.ofJsonMembers js))).canonical py.numberValue = _ at hagain
      rw [hagain, ← htext, hd]
      rfl
    refine ⟨Value.dictOf (Value.ofJsonMembers js), ?_, hdigest⟩
    unfold readDocument
    rw [bind_eq_ok]
    refine ⟨_, hread, ?_⟩
    rw [hdecode, hd]
    change (do
      let digest ← canonicalSha256 py (.dict (Value.dictOf (Value.ofJsonMembers js)))
      ensure (digest = ref.sha256) (.valueError mismatch)
      return Value.dictOf (Value.ofJsonMembers js)) = _
    exact bind_eq_ok.mpr ⟨_, hdigest, bind_eq_ok.mpr ⟨(), ensure_eq_ok.mpr rfl, rfl⟩⟩
  next => cases hdumps

end reading

/-! ### Reloading one package -/

variable {orders : Orders} {q : Record EvidencePackage}

section one

variable {py : Platform} {authority authority' : Authority} {now : ℕ} {s : State}
  {package : Record EvidencePackage}

theorem mapM_ensure {α β : Type} {P : α → Prop} [DecidablePred P] {f : α → β} {error : Exn} {l : List α}
    {r : List β} :
    (l.mapM fun a => do
      ensure (P a) error
      return f a) = .ok r ↔ (∀ a ∈ l, P a) ∧ r = l.map f := by
  rw [mapM_eq_ok]
  constructor
  · intro h
    have hpoint : ∀ {a : α} {b : β}, (do
        ensure (P a) error
        return f a) = Except.ok b → P a ∧ b = f a := by
      intro a b hab
      rw [unit_bind_eq_ok, ensure_eq_ok] at hab
      exact ⟨hab.1, (Except.ok.inj hab.2).symm⟩
    refine ⟨fun a ha => ?_, ?_⟩
    · obtain ⟨b, _, hab⟩ := exists_of_mem_left h ha
      exact (hpoint hab).1
    · induction h with
      | nil => rfl
      | cons hab _ ih => rw [List.map_cons, (hpoint hab).2, ih]
  · rintro ⟨hP, rfl⟩
    rw [List.forall₂_map_right_iff, List.forall₂_same]
    intro a ha
    rw [unit_bind_eq_ok, ensure_eq_ok]
    exact ⟨hP a ha, rfl⟩

/-- What `load` reads for the claim later: the same claim and artifact, and the evidence of the package
is still listed. -/
structure Relisted (authority authority' : Authority) (package : Record EvidencePackage) : Prop where
  claim_eq : authority'.claim = authority.claim
  codeArtifact_eq : authority'.codeArtifact = package.values.codeArtifact
  listed : ∀ item ∈ package.values.evidenceRefs,
    item.values.evidenceRefId ∈ authority'.evidence.map (·.values.evidenceRefId)

/-- The rows that belong to a manifest are those of one package. -/
structure Held (s : State) (package : Record EvidencePackage) : Prop where
  components : (s.components.filter fun row =>
      row.sbomManifestId = package.values.sbomManifest.values.sbomManifestId) = (rowsOf package).components
  vulnerabilities : (s.vulnerabilities.filter fun row =>
      row.values.sbomManifestId = package.values.sbomManifest.values.sbomManifestId) =
        package.values.vulnerabilities
  provenances : (s.provenances.filter fun row =>
      row.values.sbomManifestId = package.values.sbomManifest.values.sbomManifestId) =
        [package.values.provenance]

variable (py) in
/-- The package with the order of its rows: it comes back when it has one component and one vulnerability
at most, and its records are intact. -/
structure Reloadable (package : Record EvidencePackage) : Prop where
  components_length : package.values.sbomManifest.values.components.length ≤ 1
  vulnerabilities_length : package.values.vulnerabilities.length ≤ 1
  package_valid : (evidencePackage py).integrityValid py package = true
  manifest_valid : (sbomManifest py).integrityValid py package.values.sbomManifest = true
  components_valid : ∀ c ∈ package.values.sbomManifest.values.components,
    (sbomComponent py).integrityValid py c = true
  vulnerabilities_kept : ∀ v ∈ package.values.vulnerabilities, fromJsonb py v = v
  evidence_valid : ∀ item ∈ package.values.evidenceRefs, (evidenceRef py).integrityValid py item = true

def manifestRow (package : Record EvidencePackage) : ManifestRow :=
  ⟨package.values.sbomManifest, package.values.complianceEvidencePackageId, package.values.importCommandId,
    package.recordSha256, package.values.evidenceRefs, package.values.expiresAt, package.values.policyVersion⟩

variable (py) in
/-- What one order of the rows makes of the package. -/
structure Reloads (orders : Orders) (package : Record EvidencePackage) : Prop where
  components_eq : (orders.components.order (rowsOf package).components).map (·.record) =
    package.values.sbomManifest.values.components
  vulnerabilities_eq : (orders.vulnerabilities.order package.values.vulnerabilities).map (fromJsonb py) =
    package.values.vulnerabilities
  package_valid : (evidencePackage py).integrityValid py package = true
  manifest_valid : (sbomManifest py).integrityValid py package.values.sbomManifest = true
  components_valid : ∀ c ∈ package.values.sbomManifest.values.components,
    (sbomComponent py).integrityValid py c = true
  evidence_valid : ∀ item ∈ package.values.evidenceRefs, (evidenceRef py).integrityValid py item = true

section relisted
variable (hbuilt : Built py authority now package)
  (hrelisted : Relisted authority authority' package)
include hbuilt hrelisted

theorem checkManifest_iff :
    checkManifest py (manifestRow package) authority' = .ok () ↔
      (sbomManifest py).integrityValid py package.values.sbomManifest = true ∧
        ∀ item ∈ package.values.evidenceRefs, (evidenceRef py).integrityValid py item = true := by
  have hbound : BoundTo authority'.claim package.values.sbomManifest.values.metadata := by
    rw [hrelisted.claim_eq, hbuilt.manifest_eq, hbuilt.metadata_eq]
    exact ⟨rfl, rfl⟩
  unfold checkManifest
  simp only [unit_bind_eq_ok, ensure_eq_ok]
  constructor
  · rintro ⟨⟨_, hmanifest⟩, hevidence, _⟩
    exact ⟨hmanifest, fun item hitem => (hevidence item hitem).2.2.2⟩
  · rintro ⟨hmanifest, hevidence⟩
    refine ⟨⟨hbound, hmanifest⟩, fun item hitem => ?_, hrelisted.listed⟩
    have hitem' : item ∈ authority.evidence := by
      rw [← hbuilt.evidenceRefs_eq]
      exact hitem
    obtain ⟨htenant, htrace, hverification, hclaim⟩ := authority.evidence_bound item hitem'
    rw [hrelisted.claim_eq]
    exact ⟨⟨htenant, htrace⟩, hverification, hclaim, hevidence item hitem⟩

theorem readComponents_iff {rows : List ComponentRow}
    (hperm : rows.Perm (rowsOf package).components) {components : List (Record SBOMComponent)} :
    rows.mapM (readComponent py package.values.sbomManifest.values authority') = .ok components ↔
      (∀ c ∈ package.values.sbomManifest.values.components,
        (sbomComponent py).integrityValid py c = true) ∧ components = rows.map (·.record) := by
  have hmem : ∀ row, row ∈ rows ↔ ∃ c ∈ package.values.sbomManifest.values.components,
      (⟨package.values.sbomManifest.values.sbomManifestId, c⟩ : ComponentRow) = row := by
    intro row
    rw [hperm.mem_iff]
    exact List.mem_map
  unfold readComponent
  rw [mapM_ensure]
  refine and_congr_left fun _ => ⟨fun h c hc => ?_, fun h row hrow => ?_⟩
  · exact (h _ ((hmem _).mpr ⟨c, hc, rfl⟩)).2.1
  · obtain ⟨c, hc, rfl⟩ := (hmem row).mp hrow
    refine ⟨?_, h c hc, List.mem_map_of_mem hc⟩
    rw [hrelisted.claim_eq]
    change BoundTo _ c.values.metadata
    rw [hbuilt.components_eq c hc, hbuilt.metadata_eq]
    exact ⟨rfl, rfl⟩

theorem readVulnerabilities_iff {rows : List (Record VulnerabilityRecord)}
    (hperm : rows.Perm package.values.vulnerabilities)
    {vulnerabilities : List (Record VulnerabilityRecord)} :
    rows.mapM (readVulnerability py package.values.sbomManifest.values authority') =
        .ok vulnerabilities ↔
      (∀ v ∈ package.values.vulnerabilities,
        (vulnerabilityRecord py).integrityValid py (fromJsonb py v) = true) ∧
        vulnerabilities = rows.map (fromJsonb py) := by
  unfold readVulnerability
  dsimp only
  rw [mapM_ensure]
  refine and_congr_left fun _ => ⟨fun h v hv => ?_, fun h v hv => ?_⟩
  · exact (h v (hperm.mem_iff.mpr hv)).2.1
  · have hv' := hperm.mem_iff.mp hv
    obtain ⟨hmetadata, hmanifest, _⟩ := hbuilt.vulnerabilities_eq v hv'
    refine ⟨?_, h v hv', hmanifest⟩
    rw [hrelisted.claim_eq]
    change BoundTo _ v.values.metadata
    rw [hmetadata, hbuilt.metadata_eq]
    exact ⟨rfl, rfl⟩

theorem checkProvenance_ok :
    checkProvenance py package.values.sbomManifest.values authority' package.values.provenance = .ok () := by
  obtain ⟨_, _, hartifact, hsame⟩ := hbuilt.bindings
  unfold checkProvenance
  rw [ensure_eq_ok, hrelisted.claim_eq, hrelisted.codeArtifact_eq]
  refine ⟨?_, hbuilt.provenance_valid, hartifact, hsame⟩
  rw [hbuilt.provenance_eq, hbuilt.metadata_eq]
  exact ⟨rfl, rfl⟩

/-- The values with other components and vulnerabilities. -/
def EvidencePackage.reorder (p : EvidencePackage) (components : List (Record SBOMComponent))
    (vulnerabilities : List (Record VulnerabilityRecord)) : EvidencePackage :=
  { p with
    sbomManifest := { p.sbomManifest with values := { p.sbomManifest.values with components } }
    vulnerabilities }

theorem reloaded_eq (components : List (Record SBOMComponent))
    (vulnerabilities : List (Record VulnerabilityRecord)) :
    reloaded (manifestRow package) authority' components vulnerabilities package.values.provenance =
      package.values.reorder components vulnerabilities := by
  have hmetadata : (⟨authority'.claim.traceId, authority'.claim.tenantId,
      package.values.sbomManifest.values.metadata.versionCas,
      package.values.sbomManifest.values.metadata.createdAt⟩ : Metadata) = package.values.metadata := by
    rw [hbuilt.manifest_eq, hrelisted.claim_eq, hbuilt.metadata_eq]
  have hverification := hbuilt.verificationId_eq
  have hclaim := hbuilt.claimId_eq
  rw [← hrelisted.claim_eq] at hverification hclaim
  unfold reloaded manifestRow EvidencePackage.reorder
  simp only [hmetadata, hrelisted.codeArtifact_eq, ← hverification, ← hclaim]

omit hrelisted in
theorem build_reorder_iff {components : List (Record SBOMComponent)}
    {vulnerabilities : List (Record VulnerabilityRecord)} :
    (evidencePackage py).build py (package.values.reorder components vulnerabilities) = .ok package ↔
      components = package.values.sbomManifest.values.components ∧
        vulnerabilities = package.values.vulnerabilities ∧
        (evidencePackage py).integrityValid py package = true := by
  constructor
  · intro h
    obtain ⟨validated, hvalidated, hpackage⟩ := RecordModel.build_eq_ok.mp h
    obtain ⟨hvalues, _, _⟩ := evidencePackage_validate hvalidated
    have hsame : package.values = validated := congrArg Record.values hpackage
    rw [hvalues] at hsame
    have hcomponents : package.values.sbomManifest.values.components = components :=
      congrArg (fun p => p.sbomManifest.values.components) hsame
    have hvulnerabilities : package.values.vulnerabilities = vulnerabilities :=
      congrArg EvidencePackage.vulnerabilities hsame
    refine ⟨hcomponents.symm, hvulnerabilities.symm, ?_⟩
    rw [← hcomponents, ← hvulnerabilities] at h
    exact RecordModel.integrityValid_of_validate h hbuilt.validate_eq
  · rintro ⟨rfl, rfl, hvalid⟩
    refine RecordModel.build_eq_ok.mpr ⟨package.values, hbuilt.validate_eq, ?_⟩
    have hsha : package.recordSha256 = dumpSha256 py ((evidencePackage py).members package.values) :=
      of_decide_eq_true hvalid
    change package = ⟨package.values, dumpSha256 py ((evidencePackage py).members package.values)⟩
    rw [← hsha]

variable (hheld : Held s package)
  (hhead : (orders.manifests.order (s.manifests.filter fun row =>
    row.record.values.codeArtifactId = package.values.codeArtifact.values.codeArtifactId)).head? =
      some (manifestRow package))
include hheld hhead

theorem latestPackage_eq_some :
    latestPackage py orders s authority' = .ok (some q) ↔
      ((sbomManifest py).integrityValid py package.values.sbomManifest = true ∧
        ∀ item ∈ package.values.evidenceRefs, (evidenceRef py).integrityValid py item = true) ∧
      (∀ c ∈ package.values.sbomManifest.values.components,
        (sbomComponent py).integrityValid py c = true) ∧
      (∀ v ∈ package.values.vulnerabilities,
        (vulnerabilityRecord py).integrityValid py (fromJsonb py v) = true) ∧
      (evidencePackage py).build py (package.values.reorder
        ((orders.components.order (rowsOf package).components).map (·.record))
        ((orders.vulnerabilities.order package.values.vulnerabilities).map (fromJsonb py))) = .ok q ∧
      q.recordSha256 = package.recordSha256 := by
  have hcomponents := @readComponents_iff _ _ _ _ _ hbuilt hrelisted _
    (orders.components.perm (rowsOf package).components)
  have hvulnerabilities := @readVulnerabilities_iff _ _ _ _ _ hbuilt hrelisted _
    (orders.vulnerabilities.perm package.values.vulnerabilities)
  have hprovenance : (orders.provenances.order [package.values.provenance]).head? =
      some package.values.provenance := by
    rw [orders.provenances.order_eq_of_length (le_refl 1)]
    rfl
  unfold latestPackage
  rw [hrelisted.codeArtifact_eq, hhead]
  change (do
    checkManifest py (manifestRow package) authority'
    let components ← (orders.components.order (s.components.filter fun component =>
      component.sbomManifestId = package.values.sbomManifest.values.sbomManifestId)).mapM
        (readComponent py package.values.sbomManifest.values authority')
    let vulnerabilities ← (orders.vulnerabilities.order (s.vulnerabilities.filter fun vulnerability =>
      vulnerability.values.sbomManifestId = package.values.sbomManifest.values.sbomManifestId)).mapM
        (readVulnerability py package.values.sbomManifest.values authority')
    match (orders.provenances.order (s.provenances.filter fun provenance =>
        provenance.values.sbomManifestId =
          package.values.sbomManifest.values.sbomManifestId)).head? with
    | none => return none
    | some provenance => do
      checkProvenance py package.values.sbomManifest.values authority' provenance
      let reloaded ← (evidencePackage py).build py
        (reloaded (manifestRow package) authority' components vulnerabilities provenance)
      ensure (reloaded.recordSha256 = package.recordSha256)
        (.valueError "C11 persisted package SHA mismatch")
      return some reloaded) = .ok (some q) ↔ _
  rw [hheld.components, hheld.vulnerabilities, hheld.provenances, hprovenance]
  simp only [bind_eq_ok, checkManifest_iff hbuilt hrelisted, hcomponents, hvulnerabilities,
    checkProvenance_ok hbuilt hrelisted, reloaded_eq hbuilt hrelisted]
  constructor
  · rintro ⟨_, hchecks, _, ⟨hvalid, rfl⟩, _, ⟨hkept, rfl⟩, _, _, rebuilt, hbuild, _, hsha, hsame⟩
    rw [Option.some.inj (Except.ok.inj hsame)] at hbuild hsha
    exact ⟨hchecks, hvalid, hkept, hbuild, ensure_eq_ok.mp hsha⟩
  · rintro ⟨hchecks, hvalid, hkept, hbuild, hsha⟩
    exact ⟨(), hchecks, _, ⟨hvalid, rfl⟩, _, ⟨hkept, rfl⟩, (), trivial, q, hbuild, (),
      ensure_eq_ok.mpr hsha, rfl⟩

/-- **One order.** When the row of the package comes first, the package comes back exactly when the order
of its rows is the one that it was built with, and its records are intact. -/
theorem latestPackage_iff :
    latestPackage py orders s authority' = .ok (some package) ↔ Reloads py orders package := by
  rw [latestPackage_eq_some hbuilt hrelisted hheld hhead, build_reorder_iff hbuilt]
  constructor
  · rintro ⟨⟨hmanifest, hevidence⟩, hvalid, _, ⟨hcomponents, hvulnerabilities, hpackage⟩, _⟩
    exact ⟨hcomponents, hvulnerabilities, hpackage, hmanifest, hvalid, hevidence⟩
  · intro h
    refine ⟨⟨h.manifest_valid, h.evidence_valid⟩, h.components_valid, fun v hv => ?_,
      ⟨h.components_eq, h.vulnerabilities_eq, h.package_valid⟩, rfl⟩
    have hmem : fromJsonb py v ∈ package.values.vulnerabilities := by
      rw [← h.vulnerabilities_eq]
      exact List.mem_map_of_mem ((RowOrder.mem_order _).mpr hv)
    exact (hbuilt.vulnerabilities_eq _ hmem).2.2

theorem eq_of_records
    (hq : latestPackage py orders s authority' = .ok (some q))
    (hmanifest : q.values.sbomManifest = package.values.sbomManifest)
    (hvulnerabilities : q.values.vulnerabilities = package.values.vulnerabilities) : q = package := by
  obtain ⟨_, _, _, hbuild, hsha⟩ := (latestPackage_eq_some hbuilt hrelisted hheld hhead).mp hq
  obtain ⟨validated, hvalidated, hbuilt'⟩ := RecordModel.build_eq_ok.mp hbuild
  obtain ⟨hvalues, _, _⟩ := evidencePackage_validate hvalidated
  have hsame : q.values = validated := congrArg Record.values hbuilt'
  rw [hvalues] at hsame
  have hcomponents : q.values.sbomManifest.values.components =
      (orders.components.order (rowsOf package).components).map (·.record) :=
    congrArg (fun p => p.sbomManifest.values.components) hsame
  have hrows : q.values.vulnerabilities =
      (orders.vulnerabilities.order package.values.vulnerabilities).map (fromJsonb py) :=
    congrArg EvidencePackage.vulnerabilities hsame
  rw [hmanifest] at hcomponents
  rw [hvulnerabilities] at hrows
  rw [← hcomponents, ← hrows] at hvalidated
  have hpackage : validated = package.values :=
    Except.ok.inj (hvalidated.symm.trans hbuilt.validate_eq)
  cases q
  cases package
  subst hsha
  rw [hvalues] at hpackage
  exact congrArg (fun values => (⟨values, _⟩ : Record EvidencePackage)) (hsame.trans hpackage)

end relisted

/-- **Every order.** The package comes back under every order of its rows exactly when it is reloadable. -/
theorem forall_reloads_iff (hbuilt : Built py authority now package)
    (hcomponents : package.values.sbomManifest.values.components.Nodup)
    (hvulnerabilities : package.values.vulnerabilities.Nodup) :
    (∀ orders, Reloads py orders package) ↔ Reloadable py package := by
  constructor
  · intro h
    have htieComponents : ∀ a ∈ (rowsOf package).components, ∀ b ∈ (rowsOf package).components,
        a.record.values.metadata.createdAt = b.record.values.metadata.createdAt := by
      have hcreated : ∀ a ∈ (rowsOf package).components,
          a.record.values.metadata = package.values.metadata := by
        intro a ha
        obtain ⟨c, hc, rfl⟩ := List.mem_map.mp ha
        exact hbuilt.components_eq c hc
      intro a ha b hb
      rw [hcreated a ha, hcreated b hb]
    have htieVulnerabilities : ∀ a ∈ package.values.vulnerabilities,
        ∀ b ∈ package.values.vulnerabilities,
          a.values.metadata.createdAt = b.values.metadata.createdAt := by
      intro a ha b hb
      rw [(hbuilt.vulnerabilities_eq a ha).1, (hbuilt.vulnerabilities_eq b hb).1]
    have hstable := h ⟨.stable _, .stable _, .stable _, .stable _⟩
    have hbackwards := h ⟨.stable _, .backwards _, .backwards _, .stable _⟩
    have hkept := hstable.vulnerabilities_eq
    have hreversed := hbackwards.vulnerabilities_eq
    have hcomponentsReversed := hbackwards.components_eq
    rw [RowOrder.stable_order htieVulnerabilities] at hkept
    rw [RowOrder.backwards_order htieVulnerabilities, List.map_reverse, hkept] at hreversed
    rw [RowOrder.backwards_order htieComponents, List.map_reverse] at hcomponentsReversed
    have hrecords : (rowsOf package).components.map (·.record) =
        package.values.sbomManifest.values.components := (List.map_map ..).trans (List.map_id _)
    rw [hrecords] at hcomponentsReversed
    refine ⟨RowOrder.length_of_reverse_eq hcomponents hcomponentsReversed,
      RowOrder.length_of_reverse_eq hvulnerabilities hreversed, hstable.package_valid,
      hstable.manifest_valid, hstable.components_valid, ?_, hstable.evidence_valid⟩
    exact List.map_inj_left.mp (hkept.trans (List.map_id _).symm)
  · intro h orders
    refine ⟨?_, ?_, h.package_valid, h.manifest_valid, h.components_valid, h.evidence_valid⟩
    · rw [orders.components.order_eq_of_length]
      · exact (List.map_map ..).trans (List.map_id _)
      · change (List.map _ _).length ≤ 1
        rw [List.length_map]
        exact h.components_length
    · rw [orders.vulnerabilities.order_eq_of_length h.vulnerabilities_length]
      exact (List.map_congr_left h.vulnerabilities_kept).trans (List.map_id _)

end one

/-! ### After an import -/

section imported

variable {py : Platform} {authority authority' : Authority} {now : ℕ} {s s' : State}
  {package : Record EvidencePackage}

/-- The rows of the package come after those that were there. -/
structure Inserted (s s' : State) (package : Record EvidencePackage) : Prop where
  manifests : s'.manifests = s.manifests ++ [manifestRow package]
  components : s'.components = s.components ++ (rowsOf package).components
  vulnerabilities : s'.vulnerabilities = s.vulnerabilities ++ package.values.vulnerabilities
  provenances : s'.provenances = s.provenances ++ [package.values.provenance]

theorem State.mem_keys {key : UniqueKey} : key ∈ s.keys py ↔ (∃ row ∈ s.manifests, key ∈ row.keys py) ∨
    (∃ row ∈ s.components, key ∈ row.keys py) ∨ (∃ v ∈ s.vulnerabilities, key ∈ vulnerabilityKeys py v) ∨
    (∃ p ∈ s.provenances, key ∈ provenanceKeys py p) ∨ ∃ e ∈ s.outbox, key ∈ outboxKeys py e := by
  unfold State.keys
  simp only [List.mem_append, List.mem_flatMap, or_assoc]

theorem Unused.manifest_new (h : Unused py s package) {row : ManifestRow} (hrow : row ∈ s.manifests)
    (key : UniqueKey) (hkey : key ∈ row.keys py) : key ∉ (manifestRow package).keys py := fun hnew =>
  h.2 key (State.mem_keys.mpr (.inl ⟨_, List.mem_singleton_self _, hnew⟩))
    (State.mem_keys.mpr (.inl ⟨row, hrow, hkey⟩))

theorem Unused.manifest_ne (h : Unused py s package) {row : ManifestRow} (hrow : row ∈ s.manifests) :
    row.record.values.sbomManifestId ≠ package.values.sbomManifest.values.sbomManifestId := by
  intro heq
  refine h.manifest_new hrow (.manifest row.record.values.sbomManifestId) ?_ ?_
  · simp [ManifestRow.keys]
  · simp [ManifestRow.keys, manifestRow, heq]

theorem nodup_of_keys {α : Type} {keys : α → List UniqueKey} {l : List α}
    (h : (l.flatMap keys).Nodup) (hne : ∀ a, keys a ≠ []) : l.Nodup := by
  have hpairwise := (List.nodup_flatMap.mp h).2
  refine hpairwise.imp fun {a b} hdisjoint => ?_
  rintro rfl
  obtain ⟨key, hkey⟩ := List.exists_mem_of_ne_nil _ (hne a)
  exact hdisjoint hkey hkey

theorem Unused.nodup (h : Unused py s package) :
    package.values.sbomManifest.values.components.Nodup ∧ package.values.vulnerabilities.Nodup := by
  have hkeys := h.1
  unfold State.keys at hkeys
  rw [List.nodup_append, List.nodup_append, List.nodup_append, List.nodup_append] at hkeys
  obtain ⟨⟨⟨⟨_, hcomponents, _⟩, hvulnerabilities, _⟩, _⟩, _⟩ := hkeys
  constructor
  · have hrows : (rowsOf package).components.Nodup :=
      nodup_of_keys hcomponents fun row => List.cons_ne_nil _ _
    exact List.Nodup.of_map _ hrows
  · exact nodup_of_keys hvulnerabilities fun v => List.cons_ne_nil _ _

/-- Every package of the artifact that was imported before is older. -/
def Newest (s : State) (package : Record EvidencePackage) : Prop :=
  ∀ row ∈ s.manifests,
    row.record.values.codeArtifactId = package.values.codeArtifact.values.codeArtifactId →
      row.createdAt < package.values.metadata.createdAt

theorem Inserted.filter_manifests (hinserted : Inserted s s' package)
    (hbuilt : Built py authority now package) :
    (s'.manifests.filter fun row =>
      row.record.values.codeArtifactId = package.values.codeArtifact.values.codeArtifactId) =
      (s.manifests.filter fun row =>
        row.record.values.codeArtifactId = package.values.codeArtifact.values.codeArtifactId) ++
        [manifestRow package] := by
  rw [hinserted.manifests, List.filter_append]
  congr 1
  rw [List.filter_eq_self]
  exact List.forall_mem_singleton.mpr (decide_eq_true hbuilt.bindings.2.1)

theorem latestPackage_head (h : latestPackage py orders s authority' = .ok (some q)) :
    ∃ row, (orders.manifests.order (s.manifests.filter fun row =>
        row.record.values.codeArtifactId = authority'.codeArtifact.values.codeArtifactId)).head? = some row ∧
      q.values.sbomManifest.values.sbomManifestId = row.record.values.sbomManifestId := by
  unfold latestPackage at h
  split at h
  next => cases h
  next row hrow =>
    refine ⟨row, hrow, ?_⟩
    simp only [bind_eq_ok] at h
    obtain ⟨_, _, components, _, vulnerabilities, _, h⟩ := h
    split at h
    next => cases h
    next provenance _ =>
      simp only [bind_eq_ok] at h
      obtain ⟨_, _, rebuilt, hbuild, _, _, hsame⟩ := h
      rw [Option.some.inj (Except.ok.inj hsame)] at hbuild
      obtain ⟨validated, hvalidated, rfl⟩ := RecordModel.build_eq_ok.mp hbuild
      rw [(evidencePackage_validate hvalidated).1]
      rfl

def bundleOf (authority : Authority) (package : Record EvidencePackage)
    (sbomDocument : List (Key × Value)) : EvidenceBundle :=
  ⟨authority.claim.tenantId, package.values.codeArtifact, some package.values.sbomManifest,
    some sbomDocument, package.values.vulnerabilities, some package.values.provenance,
    package.values.evidenceRefs⟩

variable (py) in
structure DocumentsStored (objects : Objects) (package : Record EvidencePackage) : Prop where
  documents : Documents py objects
  sbom : Stored py objects package.values.sbomManifest.values.sbomArtifact
  sbom_sha256 : package.values.sbomManifest.values.sbomArtifact.sha256 =
    package.values.sbomManifest.values.sbomSha256
  output : Stored py objects package.values.provenance.values.buildOutputArtifact
  output_sha256 : package.values.provenance.values.buildOutputArtifact.sha256 =
    package.values.provenance.values.buildOutputSha256

variable (py) in
/-- `load` returns the records of the package until it expires. -/
def Loads (s : State) (authority : Authority) (package : Record EvidencePackage) : Prop :=
  ∀ authority', Relisted authority authority' package → ∀ (orders : Orders) (context : TenantContext) (t : ℕ),
    context.tenantId = authority.claim.tenantId → context.traceId = authority.claim.traceId →
    t < package.values.expiresAt →
    ∃ sbomDocument, load py orders s context authority' t =
        .ok (bundleOf authority' package sbomDocument) ∧
      canonicalSha256 py (.dict sbomDocument) = .ok package.values.sbomManifest.values.sbomSha256

theorem load_of_latestPackage {context : TenantContext} {t : ℕ}
    (hstored : DocumentsStored py s.objects package)
    (htenant : authority'.claim.tenantId = context.tenantId)
    (htrace : authority'.claim.traceId = context.traceId) (ht : t < package.values.expiresAt)
    (hlatest : latestPackage py orders s authority' = .ok (some package)) :
    ∃ sbomDocument, load py orders s context authority' t =
        .ok (bundleOf authority' package sbomDocument) ∧
      canonicalSha256 py (.dict sbomDocument) = .ok package.values.sbomManifest.values.sbomSha256 := by
  obtain ⟨sbomDocument, hsbom, hdigest⟩ := readDocument_ok hstored.documents hstored.sbom
  obtain ⟨outputDocument, houtput, _⟩ := readDocument_ok hstored.documents hstored.output
  rw [hstored.sbom_sha256] at hsbom hdigest
  rw [hstored.output_sha256] at houtput
  refine ⟨sbomDocument, ?_, hdigest⟩
  unfold load
  rw [unit_bind_eq_ok, ensure_eq_ok]
  refine ⟨⟨htenant, htrace⟩, bind_eq_ok.mpr ⟨_, hlatest, ?_⟩⟩
  dsimp only
  rw [if_neg (not_le.mpr ht)]
  exact bind_eq_ok.mpr ⟨_, hsbom, bind_eq_ok.mpr ⟨_, houtput, rfl⟩⟩

theorem latestPackage_of_load {context : TenantContext} {t : ℕ}
    {sbomDocument : List (Key × Value)}
    (h : load py orders s context authority' t = .ok (bundleOf authority' package sbomDocument)) :
    ∃ q, latestPackage py orders s authority' = .ok (some q) ∧
      q.values.sbomManifest = package.values.sbomManifest ∧
      q.values.vulnerabilities = package.values.vulnerabilities := by
  unfold load at h
  rw [unit_bind_eq_ok, bind_eq_ok] at h
  obtain ⟨_, latest, hlatest, h⟩ := h
  cases latest with
  | none =>
    cases congrArg EvidenceBundle.sbomManifest (Except.ok.inj h)
  | some q =>
    dsimp only at h
    split_ifs at h
    · cases congrArg EvidenceBundle.sbomManifest (Except.ok.inj h)
    · rw [bind_eq_ok] at h
      obtain ⟨document, _, h⟩ := h
      rw [bind_eq_ok] at h
      obtain ⟨_, _, h⟩ := h
      have hbundle := Except.ok.inj h
      exact ⟨q, hlatest, Option.some.inj (congrArg EvidenceBundle.sbomManifest hbundle),
        congrArg EvidenceBundle.vulnerabilities hbundle⟩

theorem Built.relisted (hbuilt : Built py authority now package) :
    Relisted authority authority package := by
  refine ⟨rfl, hbuilt.codeArtifact_eq.symm, fun item hitem => List.mem_map_of_mem ?_⟩
  rw [← hbuilt.evidenceRefs_eq]
  exact hitem

variable (hbuilt : Built py authority now package) (hunused : Unused py s package)
  (hinserted : Inserted s s' package)
include hbuilt hunused hinserted

theorem forall_head_iff_newest :
    (∀ o : RowOrder fun row : ManifestRow => OrderDual.toDual row.createdAt,
      (o.order (s'.manifests.filter fun row =>
        row.record.values.codeArtifactId = package.values.codeArtifact.values.codeArtifactId)).head? =
          some (manifestRow package)) ↔ Newest s package := by
  have hcreated : (manifestRow package).createdAt = package.values.metadata.createdAt :=
    congrArg Metadata.createdAt hbuilt.manifest_eq
  rw [hinserted.filter_manifests hbuilt,
    RowOrder.forall_head_iff (List.mem_append_right _ (List.mem_singleton_self _))]
  constructor
  · intro h row hrow hartifact
    have hlt := h row (List.mem_append_left _ (List.mem_filter.mpr ⟨hrow, decide_eq_true hartifact⟩)) ?_
    · rw [OrderDual.toDual_lt_toDual, hcreated] at hlt
      exact hlt
    · rintro rfl
      exact hunused.manifest_ne hrow rfl
  · intro h row hrow hne
    rw [List.mem_append, List.mem_filter, List.mem_singleton] at hrow
    obtain ⟨hrow, hartifact⟩ := hrow.resolve_right hne
    rw [OrderDual.toDual_lt_toDual, hcreated]
    exact h row hrow (of_decide_eq_true hartifact)

/-- When a package with the manifest of the imported one comes back, its row came first. -/
theorem head_of_latestPackage (hrelisted : Relisted authority authority' package)
    (hq : latestPackage py orders s' authority' = .ok (some q))
    (hid : q.values.sbomManifest.values.sbomManifestId =
      package.values.sbomManifest.values.sbomManifestId) :
    (orders.manifests.order (s'.manifests.filter fun row =>
      row.record.values.codeArtifactId = package.values.codeArtifact.values.codeArtifactId)).head? =
        some (manifestRow package) := by
  obtain ⟨row, hrow, hrowId⟩ := latestPackage_head hq
  rw [hrelisted.codeArtifact_eq] at hrow
  have hmem := (RowOrder.mem_order _).mp (List.mem_of_mem_head? hrow)
  rw [hinserted.filter_manifests hbuilt, List.mem_append, List.mem_filter, List.mem_singleton] at hmem
  rcases hmem with ⟨hold, _⟩ | rfl
  · exact absurd (hrowId.symm.trans hid) (hunused.manifest_ne hold)
  · exact hrow

variable (hinvariant : Invariant py s)
include hinvariant

theorem Invariant.held : Held s' package := by
  obtain ⟨_, _, _, hprovenance⟩ := hbuilt.bindings
  constructor
  · rw [hinserted.components, List.filter_append, List.filter_eq_nil_iff.mpr, List.filter_eq_self.mpr,
      List.nil_append]
    · intro row hrow
      obtain ⟨c, _, rfl⟩ := List.mem_map.mp hrow
      exact decide_eq_true rfl
    · intro row hrow hsame
      obtain ⟨m, hm, hid⟩ := hinvariant.components row hrow
      exact hunused.manifest_ne hm (hid.trans (of_decide_eq_true hsame))
  · rw [hinserted.vulnerabilities, List.filter_append, List.filter_eq_nil_iff.mpr, List.filter_eq_self.mpr,
      List.nil_append]
    · intro v hv
      exact decide_eq_true (hbuilt.vulnerabilities_eq v hv).2.1
    · intro row hrow hsame
      obtain ⟨m, hm, hid⟩ := hinvariant.vulnerabilities row hrow
      exact hunused.manifest_ne hm (hid.trans (of_decide_eq_true hsame))
  · rw [hinserted.provenances, List.filter_append, List.filter_eq_nil_iff.mpr, List.filter_eq_self.mpr,
      List.nil_append]
    · exact List.forall_mem_singleton.mpr (decide_eq_true hprovenance)
    · intro row hrow hsame
      obtain ⟨m, hm, hid⟩ := hinvariant.provenances row hrow
      exact hunused.manifest_ne hm (hid.trans (of_decide_eq_true hsame))

/-- **After an import**, the package comes back under every order exactly when it is the newest of its
artifact and reloadable. -/
theorem latest_iff (hrelisted : Relisted authority authority' package) :
    (∀ orders, latestPackage py orders s' authority' = .ok (some package)) ↔
      Newest s package ∧ Reloadable py package := by
  have hheld := hinvariant.held hbuilt hunused hinserted
  have hheads := forall_head_iff_newest hbuilt hunused hinserted
  obtain ⟨hcomponents, hvulnerabilities⟩ := hunused.nodup
  rw [← forall_reloads_iff hbuilt hcomponents hvulnerabilities]
  constructor
  · intro h
    have hnewest : Newest s package := by
      rw [← hheads]
      intro o
      have hlatest := h ⟨o, .stable _, .stable _, .stable _⟩
      exact head_of_latestPackage hbuilt hunused hinserted hrelisted hlatest rfl
    refine ⟨hnewest, fun orders => ?_⟩
    have hhead := hheads.mpr hnewest orders.manifests
    exact (latestPackage_iff hbuilt hrelisted hheld hhead).mp (h orders)
  · rintro ⟨hnewest, hreloads⟩ orders
    have hhead := hheads.mpr hnewest orders.manifests
    exact (latestPackage_iff hbuilt hrelisted hheld hhead).mpr (hreloads orders)

theorem loads_iff (hstored : DocumentsStored py s'.objects package) :
    Loads py s' authority package ↔ Newest s package ∧ Reloadable py package := by
  constructor
  · intro h
    rw [← latest_iff hbuilt hunused hinserted hinvariant hbuilt.relisted]
    have hexpiry : now < package.values.expiresAt := by
      have hlater := hbuilt.bindings.1
      rw [hbuilt.metadata_eq] at hlater
      exact hlater
    intro orders
    obtain ⟨_, hload, _⟩ := h authority hbuilt.relisted orders
      ⟨authority.claim.tenantId, authority.claim.traceId⟩ now rfl rfl hexpiry
    obtain ⟨q, hq, hmanifest, hvulnerabilities⟩ := latestPackage_of_load hload
    have hid := congrArg (fun m => m.values.sbomManifestId) hmanifest
    have hhead := head_of_latestPackage hbuilt hunused hinserted hbuilt.relisted hq hid
    have hheld := hinvariant.held hbuilt hunused hinserted
    rw [hq, eq_of_records hbuilt hbuilt.relisted hheld hhead hq hmanifest hvulnerabilities]
  · intro h authority' hrelisted orders context t htenant htrace ht
    have hlatest := (latest_iff hbuilt hunused hinserted hinvariant hrelisted).mpr h
    refine load_of_latestPackage hstored ?_ ?_ ht (hlatest orders)
    · rw [hrelisted.claim_eq, htenant]
    · rw [hrelisted.claim_eq, htrace]

end imported

end CyberControl.Compliance
