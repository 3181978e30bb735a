import CyberControl.ComplianceImport

/-! # What imports leave

The objects and rows after any sequence of imports. -/

namespace CyberControl.Compliance

open Python (Key Value)
open Transition

variable {py : Platform} {settings : Settings}

/-! ### Objects -/

/-- The objects are texts of documents. -/
def Documents (py : Platform) (objects : Objects) : Prop :=
  ∀ object ∈ objects, ∃ document : Document py, dumps py (.dict document.members) = .ok object.2

/-- The artifact is there. -/
def Stored (py : Platform) (objects : Objects) (ref : ArtifactObjectRef) : Prop :=
  ∃ content, read py objects ref = .ok content ∧ (ref.objectKey, content) ∈ objects

/-- Every object of the first store is in the second under its key. -/
def Kept (objects objects' : Objects) : Prop :=
  ∀ key content, objects.lookup key = some content → objects'.lookup key = some content

variable {ref : ArtifactObjectRef}

theorem read_eq_ok {objects : Objects} {content : List Char} :
    read py objects ref = .ok content ↔ 1 ≤ ref.byteSize ∧ objects.lookup ref.objectKey = some content ∧
      byteSize content = ref.byteSize ∧ py.sha256 content = ref.sha256 := by
  unfold read
  split_ifs with hsize
  · constructor
    · nofun
    · intro h
      omega
  · split
    next hnone =>
      rw [hnone]
      simp
    next found hfound =>
      rw [hfound]
      split_ifs with hbad
      · constructor
        · nofun
        · rintro ⟨_, heq, hcontent⟩
          cases heq
          exact absurd hcontent (not_and_or.mpr hbad)
      · push Not at hbad
        constructor
        · intro h
          cases h
          exact ⟨by omega, rfl, hbad⟩
        · rintro ⟨_, heq, _⟩
          cases heq
          rfl

variable {objects objects' : Objects}

theorem Stored.kept (h : Stored py objects ref)
    (hkept : Kept objects objects') : Stored py objects' ref := by
  obtain ⟨content, hread, _⟩ := h
  obtain ⟨hsize, hlookup, hsame⟩ := read_eq_ok.mp hread
  have hlookup' := hkept _ _ hlookup
  exact ⟨content, read_eq_ok.mpr ⟨hsize, hlookup', hsame⟩, mem_of_lookup hlookup'⟩

theorem put_ok {key : String} {content : List Char}
    (h : put py settings objects key content = .ok objects') :
    byteSize content ≠ 0 ∧ Kept objects objects' ∧
      (∀ object ∈ objects', object ∈ objects ∨ object = (key, content)) ∧
      ∃ stored, objects'.lookup key = some stored ∧ byteSize stored = byteSize content ∧
        py.sha256 stored = py.sha256 content := by
  unfold put at h
  split_ifs at h with hsize
  rw [not_or] at hsize
  split at h
  next hnone =>
    cases h
    have hkept : Kept objects (objects ++ [(key, content)]) := by
      intro k c hc
      rw [List.lookup_append, hc]
      rfl
    have hnew : (objects ++ [(key, content)]).lookup key = some content := by
      rw [List.lookup_append, hnone, List.lookup_cons_self]
      rfl
    refine ⟨hsize.1, hkept, ?_, content, hnew, rfl, rfl⟩
    intro object hobject
    rw [List.mem_append, List.mem_singleton] at hobject
    exact hobject
  next existing hexisting =>
    split_ifs at h with hdifferent
    cases h
    push Not at hdifferent
    exact ⟨hsize.1, fun _ _ hc => hc, fun _ ho => Or.inl ho, existing, hexisting, hdifferent⟩

theorem storeJson_ok {key : String} {document : Document py} {createdAt : ℕ}
    (h : storeJson py settings objects key document createdAt = .ok (objects', ref)) :
    Kept objects objects' ∧ (Documents py objects → Documents py objects') ∧ Stored py objects' ref ∧
      canonicalSha256 py (.dict document.members) = .ok ref.sha256 := by
  unfold storeJson at h
  obtain ⟨content, hcontent, h⟩ := bind_eq_ok.mp h
  obtain ⟨objects'', hput, h⟩ := bind_eq_ok.mp h
  cases h
  obtain ⟨hsize, hkept, hmem, stored, hlookup, hsame⟩ := put_ok hput
  refine ⟨hkept, fun hdocuments object hobject => ?_, ?_, bind_eq_ok.mpr ⟨content, hcontent, rfl⟩⟩
  · rcases hmem object hobject with hold | rfl
    · exact hdocuments object hold
    · exact ⟨document, hcontent⟩
  · refine ⟨stored, read_eq_ok.mpr ⟨?_, hlookup, hsame⟩, mem_of_lookup hlookup⟩
    change 1 ≤ byteSize content
    omega

/-! ### Packages -/

/-- A package of the claim and the artifact, built at the time `now`. -/
structure Built (py : Platform) (authority : Authority) (now : ℕ) (package : Record EvidencePackage) :
    Prop where
  metadata_eq : package.values.metadata = ⟨authority.claim.traceId, authority.claim.tenantId, 1, now⟩
  verificationId_eq : package.values.verificationId = authority.claim.verificationId
  claimId_eq : package.values.claimId = authority.claim.claimId
  codeArtifact_eq : package.values.codeArtifact = authority.codeArtifact
  evidenceRefs_eq : package.values.evidenceRefs = authority.evidence
  manifest_eq : package.values.sbomManifest.values.metadata = package.values.metadata
  components_eq : ∀ c ∈ package.values.sbomManifest.values.components,
    c.values.metadata = package.values.metadata
  vulnerabilities_eq : ∀ v ∈ package.values.vulnerabilities,
    v.values.metadata = package.values.metadata ∧
      v.values.sbomManifestId = package.values.sbomManifest.values.sbomManifestId ∧
      (vulnerabilityRecord py).integrityValid py v = true
  provenance_eq : package.values.provenance.values.metadata = package.values.metadata
  provenance_valid : (buildProvenance py).integrityValid py package.values.provenance = true
  bound : package.values.bound = .ok ()
  validate_eq : (evidencePackage py).validate package.values = .ok package.values

variable {raw : List (List (Key × Value))} {m : Metadata}

theorem buildComponents_ok {manifestId : ℕ}
    {bomRefs bomRefs' : List (String × ℕ)} {components : List (Record SBOMComponent)}
    (h : buildComponents py m manifestId raw bomRefs = .ok (components, bomRefs')) :
    ∀ c ∈ components, c.values.metadata = m := by
  induction raw generalizing bomRefs components with
  | nil =>
    cases h
    exact nofun
  | cons raw rest ih =>
    simp only [buildComponents, bind_eq_ok] at h
    obtain ⟨_, _, licenses, _, packageUrl, _, component, hcomponent, built, hrest, h⟩ := h
    cases h
    rw [List.forall_mem_cons]
    refine ⟨?_, ih hrest⟩
    obtain ⟨validated, hvalidated, rfl⟩ := RecordModel.build_eq_ok.mp hcomponent
    rw [sbomComponent_validate hvalidated]
    rfl

theorem buildVulnerability_ok {manifestId : ℕ} {bomRefs : List (String × ℕ)}
    {input : VulnerabilityInput} {v : Record VulnerabilityRecord}
    (h : buildVulnerability py m manifestId bomRefs input = .ok v) :
    v.values.metadata = m ∧ v.values.sbomManifestId = manifestId ∧
      (vulnerabilityRecord py).integrityValid py v = true := by
  unfold buildVulnerability at h
  split at h
  next => cases h
  next componentId _ =>
    refine ⟨?_, ?_, RecordModel.integrityValid_of_validate h rfl⟩
    · obtain ⟨_, hvalidated, rfl⟩ := RecordModel.build_eq_ok.mp h
      cases hvalidated
      rfl
    · obtain ⟨_, hvalidated, rfl⟩ := RecordModel.build_eq_ok.mp h
      cases hvalidated
      rfl

variable {command : ImportCommand py} {authority : Authority}

theorem buildManifest_ok {sbomArtifact : ArtifactObjectRef} {sbomSha256 : String}
    {manifest : Record SBOMManifest} {vulnerabilities : List (Record VulnerabilityRecord)}
    (h : buildManifest py command authority m raw sbomArtifact sbomSha256 =
      .ok (manifest, vulnerabilities)) :
    manifest.values.metadata = m ∧ manifest.values.sbomArtifact = sbomArtifact ∧
      manifest.values.sbomSha256 = sbomSha256 ∧
      (∀ c ∈ manifest.values.components, c.values.metadata = m) ∧
      ∀ v ∈ vulnerabilities, v.values.metadata = m ∧
        v.values.sbomManifestId = manifest.values.sbomManifestId ∧
        (vulnerabilityRecord py).integrityValid py v = true := by
  simp only [buildManifest, bind_eq_ok] at h
  obtain ⟨built, hcomponents, manifest', hmanifest, vulnerabilities', hvulnerabilities, h⟩ := h
  cases h
  obtain ⟨validated, hvalidated, rfl⟩ := RecordModel.build_eq_ok.mp hmanifest
  rw [sbomManifest_validate hvalidated]
  refine ⟨rfl, rfl, rfl, buildComponents_ok hcomponents, fun v hv => ?_⟩
  obtain ⟨input, _, hinput⟩ := exists_of_mem_right (mapM_eq_ok.mp hvulnerabilities) hv
  exact buildVulnerability_ok hinput

theorem checkCommand_ok {sbomSha256 : String}
    (h : checkCommand py settings command authority = .ok (raw, sbomSha256)) :
    canonicalSha256 py (.dict command.sbomDocument.members) = .ok sbomSha256 := by
  simp only [checkCommand, bind_eq_ok] at h
  obtain ⟨_, _, _, _, raw', _, digest, hdigest, h⟩ := h
  cases h
  exact hdigest

variable {package : Record EvidencePackage} {now : ℕ}

/-- **What `_build_package` builds**, and that both of its documents are stored. -/
theorem buildPackage_ok
    (h : buildPackage py settings objects command authority now = (objects', .ok package)) :
    Built py authority now package ∧
      Stored py objects' package.values.sbomManifest.values.sbomArtifact ∧
      package.values.sbomManifest.values.sbomArtifact.sha256 =
        package.values.sbomManifest.values.sbomSha256 ∧
      Stored py objects' package.values.provenance.values.buildOutputArtifact ∧
      package.values.provenance.values.buildOutputArtifact.sha256 =
        package.values.provenance.values.buildOutputSha256 := by
  unfold buildPackage at h
  split at h
  next => cases h
  next raw sbomSha256 hcheck =>
    split at h
    next => cases h
    next objects₁ sbomArtifact hsbom =>
      obtain ⟨_, _, hstoredSbom, hsbomSha⟩ := storeJson_ok hsbom
      unfold finishPackage at h
      split at h
      next => cases h
      next manifest vulnerabilities hmanifest =>
        split at h
        next => cases h
        next objects₂ outputArtifact outputSha256 houtput =>
          obtain ⟨rfl, hpackage⟩ := Prod.mk.inj h
          obtain ⟨provenance, hprovenance, hpackage⟩ := bind_eq_ok.mp hpackage
          obtain ⟨digest, hdigest, houtput⟩ := bind_eq_ok.mp houtput
          obtain ⟨stored, houtput, hpair⟩ := bind_eq_ok.mp houtput
          cases hpair
          obtain ⟨hkept, _, hstoredOutput, houtputSha⟩ := storeJson_ok houtput
          obtain ⟨hmetadata, hartifact, hsha, hcomponents, hvulnerabilities⟩ := buildManifest_ok hmanifest
          have hvalid := RecordModel.integrityValid_of_validate hprovenance rfl
          obtain ⟨validated, hvalidated, rfl⟩ := RecordModel.build_eq_ok.mp hpackage
          obtain ⟨_, hprovenance', rfl⟩ := RecordModel.build_eq_ok.mp hprovenance
          cases hprovenance'
          obtain ⟨rfl, hbound, hagain⟩ := evidencePackage_validate hvalidated
          refine ⟨⟨rfl, rfl, rfl, rfl, rfl, hmetadata, hcomponents, hvulnerabilities, rfl, hvalid, hbound,
            hagain⟩, ?_, ?_, hstoredOutput, Except.ok.inj (houtputSha.symm.trans hdigest)⟩
          · change Stored py objects₂ manifest.values.sbomArtifact
            rw [hartifact]
            exact hstoredSbom.kept hkept
          · change manifest.values.sbomArtifact.sha256 = manifest.values.sbomSha256
            rw [hartifact, hsha]
            exact Except.ok.inj (hsbomSha.symm.trans (checkCommand_ok hcheck))

theorem buildPackage_objects (objects : Objects) (command : ImportCommand py) (authority : Authority)
    (now : ℕ) :
    Documents py objects →
      Documents py (buildPackage py settings objects command authority now).1 := by
  intro hdocuments
  unfold buildPackage
  split
  next => exact hdocuments
  next =>
    split
    next => exact hdocuments
    next hsbom =>
      have hdocuments₁ := (storeJson_ok hsbom).2.1 hdocuments
      unfold finishPackage
      split
      next => exact hdocuments₁
      next =>
        split
        next => exact hdocuments₁
        next houtput =>
          obtain ⟨_, _, houtput⟩ := bind_eq_ok.mp houtput
          obtain ⟨_, houtput, hpair⟩ := bind_eq_ok.mp houtput
          cases hpair
          exact (storeJson_ok houtput).2.1 hdocuments₁

/-! ### The transaction -/

variable {result : Except Exn (Record EvidencePackage)} {s s' : State}

theorem commit_cases {key digest : String}
    (h : commit py s key digest package = (s', result)) :
    (s' = s ∧ ∀ q, result = .ok q → ∃ entry ∈ s.idempotency,
        q.values.codeArtifact = entry.2.2.values.codeArtifact) ∨
      (s.idempotency.lookup key = none ∧ storable py package = true ∧ Unused py s package ∧
        accepted package = true ∧ s' = s.insert key digest package ∧ result = .ok package) := by
  unfold commit at h
  split at h
  next stored earlier hlookup =>
    left
    split_ifs at h with hdigest
    · cases h
      exact ⟨rfl, nofun⟩
    · cases h
      refine ⟨rfl, ?_⟩
      rintro q ⟨⟩
      exact ⟨_, mem_of_lookup hlookup, rfl⟩
  next hlookup =>
    split_ifs at h with hnull hunused
    · cases h
      exact Or.inl ⟨rfl, nofun⟩
    · cases h
      rw [Bool.not_eq_false] at hnull
      exact Or.inr ⟨hlookup, hnull, hunused.1, hunused.2, rfl, rfl⟩
    · cases h
      exact Or.inl ⟨rfl, nofun⟩

theorem importPackage_cases {context : TenantContext}
    {answer : Except Exn Authority}
    (h : importPackage py settings s context command answer now = (s', result)) :
    ∃ objects, (Documents py s.objects → Documents py objects) ∧
      ((s' = { s with objects } ∧ ∀ q, result = .ok q → ∃ entry ∈ s.idempotency,
          q.values.codeArtifact = entry.2.2.values.codeArtifact) ∨
        ∃ authority package digest, answer = .ok authority ∧
          buildPackage py settings s.objects command authority now = (objects, .ok package) ∧
          Unused py s package ∧
          s' = State.insert { s with objects } command.idempotencyKeySha256 digest package ∧
          result = .ok package) := by
  unfold importPackage at h
  split at h
  next =>
    cases h
    exact ⟨s.objects, id, Or.inl ⟨rfl, nofun⟩⟩
  next authority hcheck =>
    have hanswer : answer = .ok authority := by
      simp only [checkImport, bind_eq_ok] at hcheck
      obtain ⟨_, _, _, _, _, _, found, hfound, _, _, hsame⟩ := hcheck
      cases hsame
      exact hfound
    have hdocuments := @buildPackage_objects py settings s.objects command authority now
    split at h
    next objects _ hbuild =>
      rw [hbuild] at hdocuments
      cases h
      exact ⟨objects, hdocuments, Or.inl ⟨rfl, nofun⟩⟩
    next objects package hbuild =>
      rw [hbuild] at hdocuments
      split at h
      next =>
        cases h
        exact ⟨objects, hdocuments, Or.inl ⟨rfl, nofun⟩⟩
      next digest _ =>
        refine ⟨objects, hdocuments, ?_⟩
        rcases commit_cases h with hsame | ⟨_, _, hunused, _, rfl, rfl⟩
        · exact Or.inl hsame
        · exact Or.inr ⟨authority, package, digest, hanswer, hbuild, hunused, rfl, rfl⟩

/-! ### Runs -/

/-- Objects are documents, rows belong to manifests, and so does a package that is replayed. -/
structure Invariant (py : Platform) (s : State) : Prop where
  documents : Documents py s.objects
  components : ∀ row ∈ s.components, ∃ m ∈ s.manifests,
    m.record.values.sbomManifestId = row.sbomManifestId
  vulnerabilities : ∀ row ∈ s.vulnerabilities, ∃ m ∈ s.manifests,
    m.record.values.sbomManifestId = row.values.sbomManifestId
  provenances : ∀ row ∈ s.provenances, ∃ m ∈ s.manifests,
    m.record.values.sbomManifestId = row.values.sbomManifestId
  replayed : ∀ entry ∈ s.idempotency, ∃ m ∈ s.manifests,
    m.record.values.codeArtifactId = entry.2.2.values.codeArtifact.values.codeArtifactId

theorem Built.bindings (h : Built py authority now package) :
    package.values.metadata.createdAt < package.values.expiresAt ∧
      package.values.sbomManifest.values.codeArtifactId =
        package.values.codeArtifact.values.codeArtifactId ∧
      package.values.provenance.values.codeArtifactId =
        package.values.codeArtifact.values.codeArtifactId ∧
      package.values.provenance.values.sbomManifestId =
        package.values.sbomManifest.values.sbomManifestId := by
  have hbound := h.bound
  unfold EvidencePackage.bound at hbound
  rw [unit_bind_eq_ok, ensure_eq_ok, ensure_eq_ok] at hbound
  obtain ⟨hexpiry, _, _, hmanifest, hprovenance, hsame⟩ := hbound
  exact ⟨hexpiry, hmanifest, hprovenance, hsame⟩

theorem Invariant.insert {s : State}
    {key digest : String} (h : Invariant py s) (hbuilt : Built py authority now package) :
    Invariant py (s.insert key digest package) := by
  obtain ⟨_, hmanifest, _, hprovenance⟩ := hbuilt.bindings
  have hold : ∀ {P : ManifestRow → Prop}, (∃ m ∈ s.manifests, P m) →
      ∃ m ∈ (s.insert key digest package).manifests, P m := by
    rintro P ⟨m, hm, hP⟩
    exact ⟨m, List.mem_append_left _ hm, hP⟩
  have hnew : ∀ {P : ManifestRow → Prop} (row : ManifestRow), row ∈ (rowsOf package).manifests → P row →
      ∃ m ∈ (s.insert key digest package).manifests, P m :=
    fun row hrow hP => ⟨row, List.mem_append_right _ hrow, hP⟩
  constructor
  · exact h.documents
  · intro row hrow
    rcases List.mem_append.mp hrow with hrow | hrow
    · exact hold (h.components row hrow)
    · obtain ⟨c, _, rfl⟩ := List.mem_map.mp hrow
      exact hnew _ List.mem_cons_self rfl
  · intro row hrow
    rcases List.mem_append.mp hrow with hrow | hrow
    · exact hold (h.vulnerabilities row hrow)
    · exact hnew _ List.mem_cons_self (hbuilt.vulnerabilities_eq row hrow).2.1.symm
  · intro row hrow
    rcases List.mem_append.mp hrow with hrow | hrow
    · exact hold (h.provenances row hrow)
    · cases List.mem_singleton.mp hrow
      exact hnew _ List.mem_cons_self hprovenance.symm
  · intro entry hentry
    rcases List.mem_append.mp hentry with hentry | hentry
    · exact hold (h.replayed entry hentry)
    · cases List.mem_singleton.mp hentry
      exact hnew _ List.mem_cons_self hmanifest

theorem Invariant.importPackage {context : TenantContext}
    {answer : Except Exn Authority}
    (h : Invariant py s)
    (himport : importPackage py settings s context command answer now = (s', result)) :
    Invariant py s' := by
  obtain ⟨objects, hdocuments, ⟨rfl, _⟩ | ⟨authority, package, digest, _, hbuild, _, rfl, _⟩⟩ :=
    importPackage_cases himport
  · exact ⟨hdocuments h.documents, h.components, h.vulnerabilities, h.provenances, h.replayed⟩
  · refine Invariant.insert ?_ (buildPackage_ok hbuild).1
    exact ⟨hdocuments h.documents, h.components, h.vulnerabilities, h.provenances, h.replayed⟩

/-- **What holds after any calls.** -/
theorem Reachable.invariant {s : State} (h : Reachable py settings s) : Invariant py s := by
  obtain ⟨calls, hrun⟩ := h
  have hempty : Invariant py empty := by
    constructor <;> exact fun _ h => absurd h List.not_mem_nil
  refine run_invariant ?_ hempty hrun
  intro s call s' hs hstep
  refine hs.importPackage (Prod.ext (Option.some.inj hstep) rfl)

end CyberControl.Compliance
