import CyberControl.ComplianceReload

/-! # Imported evidence comes back

Import and loading together, in every state that calls of `import_package` lead to. -/

namespace CyberControl.Compliance

open Python (Key Value)

variable {py : Platform} {settings : Settings}

/-! ### Imports -/

/-- The state after a call. -/
def afterImport (py : Platform) (settings : Settings) (s : State) (call : ImportCall py) : State :=
  (importPackage py settings s call.context call.command call.load call.now).1

variable {s : State}

theorem Reachable.afterImport (h : Reachable py settings s) (call : ImportCall py) :
    Reachable py settings (afterImport py settings s call) := by
  obtain ⟨calls, hrun⟩ := h
  exact ⟨calls ++ [call], Transition.run_append_eq_some.mpr ⟨s, hrun, rfl⟩⟩

variable {package : Record EvidencePackage} {objects : Objects}

theorem inserted_insert {key digest : String} :
    Inserted s (State.insert { s with objects } key digest package) package :=
  ⟨rfl, rfl, rfl, rfl⟩

theorem State.insert_objects {key digest : String} :
    (s.insert key digest package).objects = s.objects := rfl

variable {command : ImportCommand py} {authority : Authority} {now : ℕ}

theorem documentsStored (hinvariant : Invariant py s)
    (hbuild : buildPackage py settings s.objects command authority now = (objects, .ok package)) :
    DocumentsStored py objects package := by
  obtain ⟨_, hsbom, hsbomSha, houtput, houtputSha⟩ := buildPackage_ok hbuild
  refine ⟨?_, hsbom, hsbomSha, houtput, houtputSha⟩
  have hdocuments := @buildPackage_objects py settings s.objects command authority now hinvariant.documents
  rw [hbuild] at hdocuments
  exact hdocuments

theorem exists_request_sha256 {tenantId digest : String}
    (h : canonicalSha256 py command.dump = .ok digest) :
    ∃ digest, canonicalSha256 py (command.request tenantId) = .ok digest := by
  have hcanonical : ∃ d, command.dump.canonical py.numberValue = some d := by
    obtain ⟨text, htext, _⟩ := bind_eq_ok.mp h
    unfold dumps at htext
    split at htext
    next d hd => exact ⟨d, hd⟩
    next => cases htext
  obtain ⟨d, hd⟩ := hcanonical
  rw [ImportCommand.dump] at hd
  have hmember := fun m hm => @Value.canonical_member _ _ _ hd m hm
  have hrequest : ∃ d, (command.request tenantId).canonical py.numberValue = some d := by
    refine Value.exists_canonical_dict (by simp [Key.isStr]) ?_
    simp only [List.forall_mem_cons]
    refine ⟨⟨_, rfl⟩, Value.exists_canonical_dict (by simp [Key.isStr]) ?_,
      fun _ h => absurd h List.not_mem_nil⟩
    simp only [List.forall_mem_cons]
    refine ⟨⟨_, rfl⟩, ⟨_, rfl⟩, ⟨_, rfl⟩, ?_, ?_, ?_, fun _ h => absurd h List.not_mem_nil⟩
    · exact hmember (.str "sbom_document", .dict command.sbomDocument.members) (by simp)
    · exact hmember (.str "vulnerability_records", .list (command.vulnerabilityRecords.map (·.dump)))
        (by simp)
    · exact hmember (.str "provenance_document", command.provenanceDocument.dump) (by simp)
  obtain ⟨d, hd⟩ := hrequest
  refine ⟨py.sha256 d.encode, bind_eq_ok.mpr ⟨d.encode, ?_, rfl⟩⟩
  rw [dumps, hd]

variable {context : TenantContext}

theorem importPackage_fresh (hcheck : checkImport py context command (.ok authority) = .ok authority)
    (hkey : s.idempotency.lookup command.idempotencyKeySha256 = none)
    (hbuild : buildPackage py settings s.objects command authority now = (objects, .ok package)) :
    ∃ digest, ∀ s', importPackage py settings s context command (.ok authority) now = (s', .ok package) ↔
      (storable py package = true ∧ accepted package = true ∧ Unused py s package) ∧
        s' = State.insert { s with objects } command.idempotencyKeySha256 digest package := by
  obtain ⟨digest, hdigest⟩ : ∃ digest,
      canonicalSha256 py (command.request context.tenantId) = .ok digest := by
    simp only [checkImport, bind_eq_ok] at hcheck
    obtain ⟨_, _, digest, hdigest, _⟩ := hcheck
    exact exists_request_sha256 hdigest
  refine ⟨digest, fun s' => ?_⟩
  have himport : importPackage py settings s context command (.ok authority) now =
      commit py { s with objects } command.idempotencyKeySha256 digest package := by
    unfold importPackage
    rw [hcheck]
    dsimp only
    rw [hbuild]
    dsimp only
    rw [hdigest]
  rw [himport]
  unfold commit
  rw [hkey]
  dsimp only
  constructor
  · intro hcommit
    split_ifs at hcommit with hnull hunused
    · cases hcommit
    · rw [Bool.not_eq_false] at hnull
      exact ⟨⟨hnull, hunused.2, hunused.1⟩, (Prod.mk.inj hcommit).1.symm⟩
    · cases hcommit
  · rintro ⟨⟨hstorable, haccepted, hunused⟩, rfl⟩
    rw [if_neg (by rw [hstorable]; exact Bool.noConfusion), if_pos ⟨hunused, haccepted⟩]

theorem checkImport_of_isSome (h : (checkImport py context command (.ok authority)).toOption.isSome = true) :
    checkImport py context command (.ok authority) = .ok authority := by
  cases hcheck : checkImport py context command (.ok authority) with
  | error _ =>
    rw [hcheck] at h
    cases h
  | ok _ =>
    simp only [checkImport, bind_eq_ok] at hcheck
    obtain ⟨_, _, _, _, _, _, _, hload, _, _, hsame⟩ := hcheck
    cases hload
    exact hsame.symm

/-! ### A sample -/

def libraryOf (ref : String) : Value :=
  .dict [(.str "bom-ref", .str ref), (.str "name", .str ref), (.str "version", .str "1")]

/-- An SBOM of two components. -/
def sampleSbom : Document samplePlatform where
  members :=
    [(.str "bomFormat", .str "CycloneDX"), (.str "specVersion", .str "1.6"),
      (.str "serialNumber", .str "urn:1"), (.str "components", .list [libraryOf "a", libraryOf "b"])]
  plain := by decide
  distinct := by decide

/-- An SBOM of one component. -/
def oneSbom : Document samplePlatform where
  members := [(.str "bomFormat", .str "CycloneDX"), (.str "specVersion", .str "1.6"),
    (.str "serialNumber", .str "urn:1"), (.str "components", .list [libraryOf "a"])]
  plain := by decide
  distinct := by decide

def sampleOutput : Document samplePlatform := ⟨[(.str "ok", .bool true)], by decide, by decide⟩

def sampleAuthority : Authority where
  claim := ⟨"t", "0123456789abcdef", 7, 8⟩
  codeArtifact := ⟨⟨⟨"0123456789abcdef", "t", 1, 0⟩, 5, 7, 8, "aa", []⟩, "h"⟩
  evidence := []
  codeArtifact_bound := by decide
  evidence_bound := by decide

def sampleSettings : Settings := ⟨"p1", 86400, [("b", "1", "t")], 1000000⟩

def sampleContext : TenantContext := ⟨"t", "0123456789abcdef"⟩

/-- The import of an SBOM under an idempotency key, with the digest of the command. -/
def importOf (sbom : Document samplePlatform) (key : String) : ImportCommand samplePlatform :=
  let command : ImportCommand samplePlatform :=
    { metadata := ⟨"0123456789abcdef", "t", 1, 10⟩
      recordSha256 := ""
      importCommandId := 3
      verificationId := 7
      claimId := 8
      sbomDocument := sbom
      vulnerabilityRecords := []
      provenanceDocument := ⟨"b", "1", "t", "aa", sampleOutput, 9, true, "c"⟩
      idempotencyKeySha256 := key }
  { command with
    recordSha256 := ((canonicalSha256 samplePlatform command.dump).toOption).getD "" }

def sampleCommand : String → ImportCommand samplePlatform := importOf sampleSbom

theorem eq_ok_of_snd {σ α : Type} {r : σ × Except Exn α} {a : α} (h : r.2.toOption = some a) :
    r = (r.1, .ok a) :=
  Prod.ext rfl (eq_ok_of_toOption h)

theorem eq_ok_get {σ α : Type} {r : σ × Except Exn α} (h : r.2.toOption.isSome = true) :
    r = (r.1, .ok (r.2.toOption.get h)) :=
  eq_ok_of_snd (Option.some_get h).symm

theorem afterImport_eq {s s' : State} {call : ImportCall py} {result : Except Exn (Record EvidencePackage)}
    (h : importPackage py settings s call.context call.command call.load call.now = (s', result)) :
    importPackage py settings s call.context call.command call.load call.now =
      (afterImport py settings s call, result) ∧ afterImport py settings s call = s' := by
  unfold afterImport
  rw [h]
  exact ⟨rfl, rfl⟩

def sampleBuild : Objects × Except Exn (Record EvidencePackage) :=
  buildPackage samplePlatform sampleSettings empty.objects (sampleCommand "k") sampleAuthority 20

theorem sampleBuild_isSome : sampleBuild.2.toOption.isSome = true := by decide +kernel

def samplePackage : Record EvidencePackage := sampleBuild.2.toOption.get sampleBuild_isSome

theorem sample_checked :
    checkImport samplePlatform sampleContext (sampleCommand "k") (.ok sampleAuthority) = .ok sampleAuthority :=
  checkImport_of_isSome (by decide +kernel)

def oneBuild : Objects × Except Exn (Record EvidencePackage) :=
  buildPackage samplePlatform sampleSettings empty.objects (importOf oneSbom "k") sampleAuthority 20

/-- Both packages fit the tables, and the one of one component is intact. -/
theorem samples_fit : (storable samplePlatform samplePackage = true ∧ accepted samplePackage = true ∧
    Unused samplePlatform empty samplePackage) ∧
      ((checkImport samplePlatform sampleContext (importOf oneSbom "k")
        (.ok sampleAuthority)).toOption.isSome && oneBuild.2.toOption.any fun package => decide (
          (storable samplePlatform package = true ∧ accepted package = true ∧
            Unused samplePlatform empty package) ∧
          package.values.sbomManifest.values.components.length ≤ 1 ∧
          package.values.vulnerabilities.length = 0 ∧
          (evidencePackage samplePlatform).integrityValid samplePlatform package = true ∧
          (sbomManifest samplePlatform).integrityValid samplePlatform package.values.sbomManifest = true ∧
          (∀ c ∈ package.values.sbomManifest.values.components,
            (sbomComponent samplePlatform).integrityValid samplePlatform c = true) ∧
          package.values.evidenceRefs.length = 0)) = true := by
  constructor
  · decide +kernel
  · decide +kernel

def sampleCall : ImportCall samplePlatform := ⟨sampleContext, sampleCommand "k", .ok sampleAuthority, 20⟩

def sampleState : State := afterImport samplePlatform sampleSettings empty sampleCall

theorem sample_inserted : ∃ digest,
    importPackage samplePlatform sampleSettings empty sampleContext (sampleCommand "k") (.ok sampleAuthority)
        20 = (sampleState, .ok samplePackage) ∧
      sampleState = State.insert { empty with objects := sampleBuild.1 }
        (sampleCommand "k").idempotencyKeySha256 digest samplePackage := by
  obtain ⟨digest, himport⟩ := importPackage_fresh sample_checked rfl (eq_ok_get sampleBuild_isSome)
  have himported := (himport _).mpr ⟨samples_fit.1, rfl⟩
  exact ⟨digest, @afterImport_eq _ _ _ _ sampleCall _ himported⟩

theorem reachable_empty : Reachable samplePlatform sampleSettings empty := ⟨[], rfl⟩

theorem reachable_sample : Reachable samplePlatform sampleSettings sampleState :=
  reachable_empty.afterImport sampleCall

/-- The package of one component is stored, and its records are intact. -/
theorem one_imported : ∃ package,
    checkImport samplePlatform sampleContext (importOf oneSbom "k") (.ok sampleAuthority) = .ok sampleAuthority ∧
      oneBuild = (oneBuild.1, .ok package) ∧
      (storable samplePlatform package = true ∧ accepted package = true ∧ Unused samplePlatform empty package) ∧
      Reloadable samplePlatform package := by
  obtain ⟨hchecked, hbuild⟩ := (Bool.and_eq_true _ _).mp samples_fit.2
  obtain ⟨package, hpackage, h⟩ := (Option.any_eq_true _ _).mp hbuild
  obtain ⟨hfits, hcomponents, hvulnerabilities, hvalid, hmanifest, hall, hevidence⟩ := of_decide_eq_true h
  refine ⟨package, checkImport_of_isSome hchecked, eq_ok_of_snd hpackage, hfits,
    hcomponents, hvulnerabilities.trans_le zero_le_one, hvalid, hmanifest, hall, ?_, ?_⟩
  · simp [List.eq_nil_of_length_eq_zero hvulnerabilities]
  · simp [List.eq_nil_of_length_eq_zero hevidence]

/-! ### Packages -/

/-- **The only package of its artifact** is inserted under keys that no row has. -/
theorem importPackage_only {s s' : State}
    (hreachable : Reachable py settings s)
    (himport : importPackage py settings s context command (.ok authority) now = (s', .ok package))
    (hother : ∀ row ∈ s.manifests,
      row.record.values.codeArtifactId ≠ package.values.codeArtifact.values.codeArtifactId) :
    Built py authority now package ∧ Unused py s package ∧ Inserted s s' package ∧
      DocumentsStored py s'.objects package := by
  have hinvariant := hreachable.invariant
  obtain ⟨objects, _, ⟨_, hreplay⟩ | ⟨authority', q, digest, hauthority, hbuild, hunused, hs', hq⟩⟩ :=
    importPackage_cases himport
  · obtain ⟨entry, hentry, hartifact⟩ := hreplay package rfl
    obtain ⟨row, hrow, hid⟩ := hinvariant.replayed entry hentry
    rw [← hartifact] at hid
    exact absurd hid (hother row hrow)
  · cases hauthority
    cases hq
    subst hs'
    exact ⟨(buildPackage_ok hbuild).1, hunused, inserted_insert, documentsStored hinvariant hbuild⟩

/-- **Packages reload.** The only package of its artifact comes back under every order of the rows, and
`load` returns its records until it expires, exactly when it is reloadable. -/
theorem package_reloads_iff {s s' : State} {context : TenantContext} {command : ImportCommand py}
    {authority : Authority} {now : ℕ} {package : Record EvidencePackage}
    (hreachable : Reachable py settings s)
    (himport : importPackage py settings s context command (.ok authority) now = (s', .ok package))
    (hother : ∀ row ∈ s.manifests,
      row.record.values.codeArtifactId ≠ package.values.codeArtifact.values.codeArtifactId) :
    ((∀ authority', Relisted authority authority' package → ∀ orders,
        latestPackage py orders s' authority' = .ok (some package)) ∧ Loads py s' authority package) ↔
      Reloadable py package := by
  have hinvariant := hreachable.invariant
  obtain ⟨hbuilt, hunused, hinserted, hstored⟩ := importPackage_only hreachable himport hother
  have hnewest : Newest s package := fun row hrow hid => absurd hid (hother row hrow)
  have hlatest : ∀ authority', Relisted authority authority' package →
      ((∀ orders, latestPackage py orders s' authority' = .ok (some package)) ↔
        Newest s package ∧ Reloadable py package) :=
    fun _ hrelisted => latest_iff hbuilt hunused hinserted hinvariant hrelisted
  have hloads := loads_iff hbuilt hunused hinserted hinvariant hstored
  constructor
  · rintro ⟨h, _⟩
    exact ((hlatest authority hbuilt.relisted).mp (h authority hbuilt.relisted)).2
  · intro h
    exact ⟨fun authority' hrelisted => (hlatest authority' hrelisted).mpr ⟨hnewest, h⟩,
      hloads.mpr ⟨hnewest, h⟩⟩

/-- The package of one component comes back, and is loaded until it expires. -/
theorem package_reloads_sample :
    ∃ s' package, importPackage samplePlatform sampleSettings empty sampleContext (importOf oneSbom "k")
        (.ok sampleAuthority) 20 = (s', .ok package) ∧
      (∀ authority', Relisted sampleAuthority authority' package → ∀ orders,
        latestPackage samplePlatform orders s' authority' = .ok (some package)) ∧
      Loads samplePlatform s' sampleAuthority package := by
  obtain ⟨package, hchecked, hbuild, hfits, hreloadable⟩ := one_imported
  obtain ⟨digest, himport⟩ := importPackage_fresh hchecked rfl hbuild
  have himported := (himport _).mpr ⟨hfits, rfl⟩
  exact ⟨_, package, himported, (package_reloads_iff reachable_empty himported
    (fun _ hrow => absurd hrow List.not_mem_nil)).mpr hreloadable⟩

theorem sample_length : samplePackage.values.sbomManifest.values.components.length = 2 := by
  decide +kernel

/-- **Two components tie.** Their order is not that of the database, and the package has it in its
digest: it does not come back under every order. -/
theorem sample_not_reloaded :
    ¬ ∀ (py : Platform) (settings : Settings) (s s' : State) (context : TenantContext)
        (command : ImportCommand py) (authority : Authority) (now : ℕ) (package : Record EvidencePackage),
      Reachable py settings s →
      importPackage py settings s context command (.ok authority) now = (s', .ok package) →
      (∀ row ∈ s.manifests,
        row.record.values.codeArtifactId ≠ package.values.codeArtifact.values.codeArtifactId) →
      ∀ authority', Relisted authority authority' package → ∀ orders,
        latestPackage py orders s' authority' = .ok (some package) := by
  intro h
  have hnone : ∀ row ∈ empty.manifests, row.record.values.codeArtifactId ≠
      samplePackage.values.codeArtifact.values.codeArtifactId := fun _ hrow => absurd hrow List.not_mem_nil
  obtain ⟨_, himported, _⟩ := sample_inserted
  obtain ⟨hbuilt, hunused, hinserted, _⟩ := importPackage_only reachable_empty himported hnone
  have horders := h _ _ _ _ _ _ _ _ _ reachable_empty himported hnone _ hbuilt.relisted
  have hlatest := latest_iff hbuilt hunused hinserted reachable_empty.invariant hbuilt.relisted
  have hlength := (hlatest.mp horders).2.components_length
  rw [sample_length] at hlength
  omega

/-! ### Renewal -/

variable (py) in
/-- When a package is imported and loaded: the database takes it, no key of its records is used, every
earlier package of the artifact is older, and it is reloadable. -/
structure Renewable (s : State) (package : Record EvidencePackage) : Prop where
  storable : storable py package = true
  accepted : accepted package = true
  unused : Unused py s package
  newest : Newest s package
  reloadable : Reloadable py package

/-- **Evidence can be renewed** exactly when the package is renewable: the import under a new key
succeeds, and `load` then returns the package until it expires. -/
theorem evidence_renewed_iff {s : State} {context : TenantContext} {command : ImportCommand py}
    {authority : Authority} {now : ℕ} {objects : Objects} {package : Record EvidencePackage}
    (hreachable : Reachable py settings s)
    (hcheck : checkImport py context command (.ok authority) = .ok authority)
    (hkey : s.idempotency.lookup command.idempotencyKeySha256 = none)
    (hbuild : buildPackage py settings s.objects command authority now = (objects, .ok package)) :
    (∃ s', importPackage py settings s context command (.ok authority) now = (s', .ok package) ∧
        Loads py s' authority package) ↔ Renewable py s package := by
  have hinvariant := hreachable.invariant
  have hbuilt := (buildPackage_ok hbuild).1
  have hstored := documentsStored hinvariant hbuild
  obtain ⟨digest, himport⟩ := importPackage_fresh hcheck hkey hbuild
  constructor
  · rintro ⟨s', himported, hloads⟩
    obtain ⟨⟨hstorable, haccepted, hunused⟩, rfl⟩ := (himport s').mp himported
    obtain ⟨hnewest, hreloadable⟩ :=
      (loads_iff hbuilt hunused inserted_insert hinvariant hstored).mp hloads
    exact ⟨hstorable, haccepted, hunused, hnewest, hreloadable⟩
  · intro h
    exact ⟨_, (himport _).mpr ⟨⟨h.storable, h.accepted, h.unused⟩, rfl⟩,
      (loads_iff hbuilt h.unused inserted_insert hinvariant hstored).mpr ⟨h.newest, h.reloadable⟩⟩

/-- The first import of one component. -/
theorem evidence_renewed_sample :
    ∃ package s', importPackage samplePlatform sampleSettings empty sampleContext (importOf oneSbom "k")
        (.ok sampleAuthority) 20 = (s', .ok package) ∧
      Loads samplePlatform s' sampleAuthority package := by
  obtain ⟨package, hchecked, hbuild, hfits, hreloadable⟩ := one_imported
  exact ⟨package, (evidence_renewed_iff reachable_empty hchecked rfl hbuild).mpr
    { storable := hfits.1
      accepted := hfits.2.1
      unused := hfits.2.2
      newest := fun _ hrow => absurd hrow List.not_mem_nil
      reloadable := hreloadable }⟩

/-- **The same SBOM** cannot be imported again for an artifact. -/
theorem not_unused_of_sbom {row : ManifestRow}
    (hrow : row ∈ s.manifests)
    (hartifact : row.record.values.codeArtifactId = package.values.sbomManifest.values.codeArtifactId)
    (hsbom : row.record.values.sbomSha256 = package.values.sbomManifest.values.sbomSha256) :
    ¬ Unused py s package := by
  intro h
  refine h.manifest_new hrow
    (.manifestContent row.record.values.codeArtifactId row.record.values.sbomSha256) ?_ ?_
  · simp [ManifestRow.keys]
  · simp [ManifestRow.keys, manifestRow, hartifact, hsbom]

/-- Nor can the same build output. -/
theorem not_unused_of_output {record : Record BuildProvenance}
    (hrecord : record ∈ s.provenances)
    (hartifact : record.values.codeArtifactId = package.values.provenance.values.codeArtifactId)
    (houtput : record.values.buildOutputSha256 = package.values.provenance.values.buildOutputSha256) :
    ¬ Unused py s package := by
  intro h
  have hkeys : ∀ r : Record BuildProvenance,
      .provenanceContent r.values.codeArtifactId r.values.buildOutputSha256 ∈ provenanceKeys py r := fun r => by
    simp [provenanceKeys]
  refine h.2 _ (State.mem_keys.mpr (.inr (.inr (.inr (.inl ⟨_, List.mem_singleton_self _, hkeys _⟩)))))
    (State.mem_keys.mpr (.inr (.inr (.inr (.inl ⟨record, hrecord, ?_⟩)))))
  rw [← hartifact, ← houtput]
  exact hkeys record

/-- Building the sample again, after its package expired. -/
def sampleRebuild : Objects × Except Exn (Record EvidencePackage) :=
  buildPackage samplePlatform sampleSettings sampleBuild.1 (sampleCommand "k2") sampleAuthority
    86400000021

theorem sampleRebuild_isSome : sampleRebuild.2.toOption.isSome = true := by decide +kernel

def sampleRenewal : Record EvidencePackage := sampleRebuild.2.toOption.get sampleRebuild_isSome

theorem sample_expired : samplePackage.values.expiresAt < 86400000021 ∧
    (manifestRow samplePackage).record.values.codeArtifactId =
      sampleRenewal.values.sbomManifest.values.codeArtifactId ∧
    (manifestRow samplePackage).record.values.sbomSha256 =
      sampleRenewal.values.sbomManifest.values.sbomSha256 := by
  decide +kernel

/-- **An expired package** is not renewed by the SBOM and the build output that it has. -/
theorem sample_not_renewed :
    ¬ ∀ (py : Platform) (settings : Settings) (s : State) (context : TenantContext)
        (command : ImportCommand py) (authority : Authority) (now : ℕ) (objects : Objects)
        (package : Record EvidencePackage),
      Reachable py settings s → checkImport py context command (.ok authority) = .ok authority →
      s.idempotency.lookup command.idempotencyKeySha256 = none →
      buildPackage py settings s.objects command authority now = (objects, .ok package) →
      ∃ s', importPackage py settings s context command (.ok authority) now = (s', .ok package) := by
  intro h
  obtain ⟨_, hartifact, hsbom⟩ := sample_expired
  obtain ⟨digest, _, hstate⟩ := sample_inserted
  have hkey : sampleState.idempotency.lookup (sampleCommand "k2").idempotencyKeySha256 = none := by
    rw [hstate]
    rfl
  have hcheck : checkImport samplePlatform sampleContext (sampleCommand "k2") (.ok sampleAuthority) =
      .ok sampleAuthority := checkImport_of_isSome (by decide +kernel)
  have hbuild : buildPackage samplePlatform sampleSettings sampleState.objects (sampleCommand "k2")
      sampleAuthority 86400000021 = (sampleRebuild.1, .ok sampleRenewal) := by
    have hobjects : sampleState.objects = sampleBuild.1 := by
      rw [hstate, State.insert_objects]
    rw [hobjects]
    exact eq_ok_get sampleRebuild_isSome
  obtain ⟨s', himported⟩ := h samplePlatform sampleSettings sampleState sampleContext (sampleCommand "k2")
    sampleAuthority 86400000021 sampleRebuild.1 sampleRenewal reachable_sample hcheck hkey hbuild
  obtain ⟨_, himport⟩ := importPackage_fresh hcheck hkey hbuild
  obtain ⟨⟨_, _, hunused⟩, _⟩ := (himport s').mp himported
  have hrow : manifestRow samplePackage ∈ sampleState.manifests := by
    rw [hstate]
    exact List.mem_append_right _ (List.mem_singleton_self _)
  exact not_unused_of_sbom hrow hartifact hsbom hunused

end CyberControl.Compliance
